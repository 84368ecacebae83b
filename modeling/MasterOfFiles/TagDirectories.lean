import Mathlib.Algebra.Ring.Nat
import Mathlib.Data.Bool.AllAny
import MasterOfFiles.PathWalks
import MasterOfFiles.ShellWords

/-!
The directories of two File:Tags and the command that removes one. The names come out of
the text of a CREATE at its first colon and go unchanged into the paths, and the path of
the directory goes into a buffer of 256 bytes and from there to sh. Names are bytes
without a NUL, and `raiz` is the configured PUNTO_MONTAJE.
-/
namespace MasterOfFiles.TagDirectories

open ByteBuffers PathWalks ShellWords

section Rutas

/-- What split_file_tag gives: there is no colon in the name of the file. -/
@[ext]
structure FileTag where
  file : Bytes
  tag : Bytes
  sinDosPuntos : 58 ∉ file

def splitFileTag (filetag : Bytes) : Option FileTag :=
  match filetag.dropWhile (· ≠ 58) with
  | [] => none
  | _ :: tag => some ⟨filetag.takeWhile (· ≠ 58), tag, fun hmem => by
      simpa using List.mem_takeWhile_imp hmem⟩

def files : Bytes := [102, 105, 108, 101, 115]

/-- "%s/files". -/
def directorioFiles (raiz : Bytes) : Bytes := raiz ++ 47 :: files

/-- "%s/%s/%s". -/
def rutaTag (raiz : Bytes) (p : FileTag) : Bytes :=
  directorioFiles raiz ++ 47 :: (p.file ++ 47 :: p.tag)

def logicalBlocks : Bytes := [108, 111, 103, 105, 99, 97, 108, 95, 98, 108, 111, 99, 107, 115]

/-- "%s/%s/%s/logical_blocks/%s". -/
def rutaBlockLogico (raiz : Bytes) (p : FileTag) (nombreBloque : Bytes) : Bytes :=
  directorioFiles raiz ++ 47 :: (p.file ++ 47 :: (p.tag ++ 47 :: (logicalBlocks ++
    47 :: nombreBloque)))

def rm : Bytes := [114, 109]

def menosR : Bytes := [45, 114]

/-- snprintf of "rm -r %s" into the 256 bytes of eliminar_carpeta_con_contido. -/
def comando (ruta : Bytes) : Bytes := (rm ++ 32 :: (menosR ++ 32 :: ruta)).take 255

end Rutas

section Propiedad

variable (cwd : Lugar) (raiz : Bytes)

def enFiles : Lugar := resolver cwd (directorioFiles raiz)

def lugarTag (p : FileTag) : Lugar := resolver cwd (rutaTag raiz p)

/-- The directory is strictly below directorio_files, and the command that removes it
gives it to rm as one word. -/
structure Propio (p : FileTag) : Prop where
  debajo : enFiles cwd raiz <+: lugarTag cwd raiz p
  estricto : lugarTag cwd raiz p ≠ enFiles cwd raiz
  comando : palabrasShell (comando (rutaTag raiz p)) = some [rm, menosR, rutaTag raiz p]

structure TagsAislados (p q : FileTag) : Prop where
  primero : Propio cwd raiz p
  segundo : Propio cwd raiz q
  distintos : lugarTag cwd raiz p ≠ lugarTag cwd raiz q
  fuera : ¬ lugarTag cwd raiz p <+: lugarTag cwd raiz q
  fuera' : ¬ lugarTag cwd raiz q <+: lugarTag cwd raiz p
  bloques : ∀ b b', EsNombre b → EsNombre b' →
    resolver cwd (rutaBlockLogico raiz p b) ≠ resolver cwd (rutaBlockLogico raiz q b')

end Propiedad

section Condicion

variable (cwd : Lugar) (raiz : Bytes)

/-- The path of the directory fits in the command and means itself to the shell. -/
@[mk_iff]
structure CabeLiteral (p : FileTag) : Prop where
  cabe : raiz.length + p.file.length + p.tag.length ≤ 241
  comun : ∀ b ∈ raiz ++ p.file ++ p.tag, Comun b
  literal : empiezaLiteral raiz

instance (p : FileTag) : Decidable (CabeLiteral raiz p) :=
  letI := List.decidableBAll Comun (raiz ++ p.file ++ p.tag)
  decidable_of_iff' _ (cabeLiteral_iff raiz p)

/-- Where the two names lead from a directory, one after the other. -/
def bajar (aqui : Lugar) (p : FileTag) : Lugar := andar (andar aqui p.file) p.tag

/-- The two names of each pair lead to different places below `aqui`, and neither is on
the way to the other. -/
def Separados (aqui : Lugar) (p q : FileTag) : Prop :=
  ∃ a b, bajar aqui p = aqui ++ a ∧ bajar aqui q = aqui ++ b ∧ a ≠ [] ∧ b ≠ [] ∧
    ¬ a <+: b ∧ ¬ b <+: a

end Condicion

section Nombres

variable {cwd : Lugar} {raiz : Bytes} {p q : FileTag}

/-- Every pair is that of a text. -/
theorem splitFileTag_unir (p : FileTag) : splitFileTag (p.file ++ 58 :: p.tag) = some p := by
  have hpos : ∀ b ∈ p.file, decide (b ≠ 58) = true := by
    intro b hb
    exact decide_eq_true fun heq => p.sinDosPuntos (heq ▸ hb)
  have hdrop : (p.file ++ 58 :: p.tag).dropWhile (· ≠ 58) = 58 :: p.tag := by
    rw [List.dropWhile_append_of_pos hpos]
    rfl
  have htake : (p.file ++ 58 :: p.tag).takeWhile (· ≠ 58) = p.file := by
    rw [List.takeWhile_append_of_pos hpos, List.takeWhile_cons_of_neg (by decide),
      List.append_nil]
  unfold splitFileTag
  rw [hdrop]
  exact congrArg some (FileTag.ext htake rfl)

theorem directorioFiles_ne_nil (raiz : Bytes) : directorioFiles raiz ≠ [] := by
  simp [directorioFiles]

theorem lugarTag_eq (cwd : Lugar) (raiz : Bytes) (p : FileTag) :
    lugarTag cwd raiz p = bajar (enFiles cwd raiz) p := by
  rw [lugarTag, rutaTag, resolver_append_cons cwd (directorioFiles_ne_nil raiz),
    andar_append_cons]
  rfl

theorem esNombre_logicalBlocks : EsNombre logicalBlocks :=
  esNombre_of_sinPuntos (by decide) (by decide) (by decide)

/-- A block is an entry of the directory logical_blocks of its Tag. -/
theorem resolver_rutaBlockLogico (cwd : Lugar) (raiz : Bytes) (p : FileTag) {b : Bytes}
    (hb : EsNombre b) : resolver cwd (rutaBlockLogico raiz p b) =
      lugarTag cwd raiz p ++ [logicalBlocks] ++ [b] := by
  rw [lugarTag_eq, rutaBlockLogico, resolver_append_cons cwd (directorioFiles_ne_nil raiz),
    andar_append_cons, andar_append_cons, andar_append_cons,
    andar_of_esNombre _ esNombre_logicalBlocks, andar_of_esNombre _ hb]
  rfl

end Nombres

section Comandos

variable {raiz : Bytes} {p : FileTag}

theorem comando_eq (ruta : Bytes) :
    comando ruta = (rm ++ 32 :: menosR) ++ 32 :: ruta.take 249 := rfl

theorem empiezaLiteral_rutaTag (raiz : Bytes) (p : FileTag) :
    empiezaLiteral (rutaTag raiz p) = empiezaLiteral raiz := by
  cases raiz with
  | nil => rfl
  | cons b raiz => rfl

theorem comun_rutaTag_iff (raiz : Bytes) (p : FileTag) :
    (∀ b ∈ rutaTag raiz p, Comun b) ↔ ∀ b ∈ raiz ++ p.file ++ p.tag, Comun b := by
  have hfiles : ∀ b ∈ files, Comun b := List.all_iff_forall_prop.mp (by decide)
  have hbarra : Comun 47 := by decide
  simp only [rutaTag, directorioFiles, List.forall_mem_append, List.forall_mem_cons]
  constructor
  · rintro ⟨⟨hraiz, -⟩, -, hfile, -, htag⟩
    exact ⟨⟨hraiz, hfile⟩, htag⟩
  · rintro ⟨⟨hraiz, hfile⟩, htag⟩
    exact ⟨⟨hraiz, hbarra, hfiles⟩, hbarra, hfile, hbarra, htag⟩

/-- The command names the directory, whole and as one word, just when its path has at
most 249 bytes and each stands for itself. -/
theorem palabras_comando_iff (raiz : Bytes) (p : FileTag) :
    palabrasShell (comando (rutaTag raiz p)) = some [rm, menosR, rutaTag raiz p] ↔
      CabeLiteral raiz p := by
  have hpal : palabras (rm ++ 32 :: menosR) = [rm, menosR] := by decide
  have hruta : rutaTag raiz p ≠ [] := by simp [rutaTag]
  have hlen : (rutaTag raiz p).length ≤ 249 ↔
      raiz.length + p.file.length + p.tag.length ≤ 241 := by
    have hfiles : files.length = 5 := rfl
    simp only [rutaTag, directorioFiles, List.length_append, List.length_cons, hfiles]
    omega
  have hesp : ∀ b ∈ rm ++ 32 :: menosR, b ∉ especiales :=
    List.all_iff_forall_prop.mp (by decide)
  have hiff := palabrasShell_argumento_iff (x := 32) hesp (by decide) (by decide) (by decide)
    (rutaTag raiz p) 249
  rw [hpal] at hiff
  rw [comando_eq]
  constructor
  · intro h
    obtain ⟨-, hcabe, hcomun, hlit⟩ := hiff.mp h
    exact ⟨hlen.mp hcabe, (comun_rutaTag_iff raiz p).mp hcomun,
      empiezaLiteral_rutaTag raiz p ▸ hlit⟩
  · intro h
    exact hiff.mpr ⟨hruta, hlen.mpr h.cabe, (comun_rutaTag_iff raiz p).mpr h.comun,
      (empiezaLiteral_rutaTag raiz p).trans h.literal⟩

end Comandos

section Aislamiento

variable {raiz : Bytes} {p q : FileTag}

theorem propio_iff (cwd : Lugar) (raiz : Bytes) (p : FileTag) :
    Propio cwd raiz p ↔ CabeLiteral raiz p ∧
      ∃ a, bajar (enFiles cwd raiz) p = enFiles cwd raiz ++ a ∧ a ≠ [] := by
  constructor
  · intro h
    obtain ⟨a, ha⟩ := h.debajo
    refine ⟨(palabras_comando_iff raiz p).mp h.comando, a, ?_, ?_⟩
    · rw [ha, lugarTag_eq]
    · rintro rfl
      rw [List.append_nil] at ha
      exact h.estricto ha.symm
  · rintro ⟨hcabe, a, ha, hne⟩
    rw [← lugarTag_eq] at ha
    refine ⟨⟨a, ha.symm⟩, ?_, (palabras_comando_iff raiz p).mpr hcabe⟩
    intro heq
    rw [ha] at heq
    exact hne (List.append_cancel_left (heq.trans (List.append_nil _).symm))

theorem separados_of_tagsAislados {cwd : Lugar} (h : TagsAislados cwd raiz p q) :
    Separados (enFiles cwd raiz) p q := by
  obtain ⟨-, a, ha, ha'⟩ := (propio_iff cwd raiz p).mp h.primero
  obtain ⟨-, b, hb, hb'⟩ := (propio_iff cwd raiz q).mp h.segundo
  have hfuera := h.fuera
  have hfuera' := h.fuera'
  rw [lugarTag_eq, lugarTag_eq, ha, hb, List.prefix_append_right_inj] at hfuera hfuera'
  exact ⟨a, b, ha, hb, ha', hb', hfuera, hfuera'⟩

theorem tagsAislados_of_separados {cwd : Lugar} (hp : CabeLiteral raiz p)
    (hq : CabeLiteral raiz q) (h : Separados (enFiles cwd raiz) p q) :
    TagsAislados cwd raiz p q := by
  obtain ⟨a, b, ha, hb, ha', hb', hfuera, hfuera'⟩ := h
  have hdistintos : lugarTag cwd raiz p ≠ lugarTag cwd raiz q := by
    intro heq
    rw [lugarTag_eq, lugarTag_eq, ha, hb] at heq
    exact hfuera (List.append_cancel_left heq ▸ List.prefix_refl a)
  constructor
  · exact (propio_iff cwd raiz p).mpr ⟨hp, a, ha, ha'⟩
  · exact (propio_iff cwd raiz q).mpr ⟨hq, b, hb, hb'⟩
  · exact hdistintos
  · rwa [lugarTag_eq, lugarTag_eq, ha, hb, List.prefix_append_right_inj]
  · rwa [lugarTag_eq, lugarTag_eq, ha, hb, List.prefix_append_right_inj]
  · intro c c' hc hc'
    rw [resolver_rutaBlockLogico cwd raiz p hc, resolver_rutaBlockLogico cwd raiz q hc']
    exact append_ne_of_ne hdistintos [logicalBlocks]

/-- Two pairs are isolated just when their paths fit, mean themselves to the shell and,
followed from directorio_files, part below it. -/
theorem tagsAislados_iff (cwd : Lugar) (raiz : Bytes) (p q : FileTag) :
    TagsAislados cwd raiz p q ↔
      CabeLiteral raiz p ∧ CabeLiteral raiz q ∧ Separados (enFiles cwd raiz) p q := by
  constructor
  · intro h
    exact ⟨((propio_iff cwd raiz p).mp h.primero).1, ((propio_iff cwd raiz q).mp h.segundo).1,
      separados_of_tagsAislados h⟩
  · intro ⟨hp, hq, hsep⟩
    exact tagsAislados_of_separados hp hq hsep

/-- Names that are entries of a directory keep different pairs apart. -/
theorem separados_of_esNombre (aqui : Lugar) (hf : EsNombre p.file) (ht : EsNombre p.tag)
    (hf' : EsNombre q.file) (ht' : EsNombre q.tag) (hne : p ≠ q) : Separados aqui p q := by
  have hbajar : ∀ r : FileTag, EsNombre r.file → EsNombre r.tag →
      bajar aqui r = aqui ++ [r.file, r.tag] := by
    intro r hrf hrt
    rw [bajar, andar_of_esNombre _ hrf, andar_of_esNombre _ hrt, List.append_assoc]
    rfl
  have hdistintas : [p.file, p.tag] ≠ [q.file, q.tag] := by
    intro heq
    obtain ⟨hfile, htag, -⟩ := List.cons_eq_cons.mp heq |>.imp id List.cons_eq_cons.mp
    exact hne (FileTag.ext hfile htag)
  refine ⟨_, _, hbajar p hf ht, hbajar q hf' ht', List.cons_ne_nil _ _, List.cons_ne_nil _ _,
    ?_, ?_⟩
  · intro hpre
    exact hdistintas (hpre.eq_of_length rfl)
  · intro hpre
    exact hdistintas (hpre.eq_of_length rfl).symm

theorem tagsAislados_of_esNombre (cwd : Lugar) (hp : CabeLiteral raiz p) (hq : CabeLiteral raiz q)
    (hf : EsNombre p.file) (ht : EsNombre p.tag) (hf' : EsNombre q.file) (ht' : EsNombre q.tag)
    (hne : p ≠ q) : TagsAislados cwd raiz p q :=
  tagsAislados_of_separados hp hq
    (separados_of_esNombre (enFiles cwd raiz) hf ht hf' ht' hne)

/-- "a:b" and "a:b/c", under "./storage". -/
theorem not_tagsAislados_anidados : ¬ ∀ cwd raiz filetag filetag' p q,
    splitFileTag filetag = some p → splitFileTag filetag' = some q → p ≠ q →
      TagsAislados cwd raiz p q := by
  intro h
  have hab : splitFileTag [97, 58, 98] = some ⟨[97], [98], by decide⟩ := rfl
  have habc : splitFileTag [97, 58, 98, 47, 99] = some ⟨[97], [98, 47, 99], by decide⟩ := rfl
  have hne : (⟨[97], [98], by decide⟩ : FileTag) ≠ ⟨[97], [98, 47, 99], by decide⟩ := by
    simp
  have hanidados := h [] [46, 47, 115, 116, 111, 114, 97, 103, 101] _ _ _ _ hab habc hne
  exact hanidados.fuera (by decide)

end Aislamiento

end MasterOfFiles.TagDirectories
