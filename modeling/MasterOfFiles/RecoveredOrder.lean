import MasterOfFiles.RestartRecovery

/-!
The order of the logical blocks a restart finds. A Tag's list is built in the
order readdir lists the directory, and nothing sorts it, while every later request
takes the place in the list for the block's number.
-/
namespace MasterOfFiles.RecoveredOrder

open ByteBuffers BlockNames StorageState StorageOperations PartialRuns TagLookups BlockTable
open StorageRestart RestartRecovery ReachableStates

variable {md5 : Bytes → String} {sb : Superbloque} {s s' : Storage} {f t : String}

/-- The answer to READ_BLOCK when the link at the path is read. -/
def respuestaLectura (sb : Superbloque) (leido : Option Bytes) : Respuesta :=
  match leido with
  | none => .error
  | some contenido => .bloque ((contenido ++ [0]).take sb.blockSize)

/-- The answer to WRITE_BLOCK on a logical block. -/
def respuestaEscritura (md5 : Bytes → String) (sb : Superbloque) (s : Storage) (f t : String)
    (bl : BlockLogico) (contenido : Bytes) : Storage × Respuesta :=
  if sb.blockSize < contenido.length then (s, .error)
  else
    let (s', resultado) := operacionWriteBloque md5 sb s f t bl contenido
    (s', respuestaDe resultado)

/-- The n-th block of the list is logical block n, on the disk of before the start: the
one READ_BLOCK n reads, WRITE_BLOCK n writes and, if it is the last, TRUNCATE unlinks. -/
structure OrdenLogico (md5 : Bytes → String) (sb : Superbloque) (d : Disco) (s' : Storage)
    (f t : String) (bloques : List BlockLogico) : Prop where
  nombre : ∀ (n : ℕ) bl, bloques[n]? = some bl → bl.nombreBlock = crearNombreBloqueLogico n
  lectura : ∀ n : ℕ, n < bloques.length → storageReadBlock sb s' f t n =
    respuestaLectura sb (d.getContenido (rutaBlockLogico f t (crearNombreBloqueLogico n)))
  escritura : ∀ (n : ℕ) bl, bloques[n]? = some bl → ∀ contenido,
    storageWriteBlock md5 sb s' f t n contenido = respuestaEscritura md5 sb s' f t
      ⟨crearNombreBloqueLogico n, bl.bloqueFisicoAsociado⟩ contenido
  recorte : ∀ k, bloques.length = k + 1 → ∀ s'', achicarUno s' f t = .ok s'' →
    s''.disco = d.unlink (rutaBlockLogico f t (crearNombreBloqueLogico k))

section Levantar

/-- The state while the directories are read: the disk and the names in the table stay. -/
def Leyendo (sb : Superbloque) (d : Disco) (s : Storage) : Prop :=
  TablaCompleta sb s ∧ s.disco = d ∧ s.listaFiles = []

/-- A block of the list: its name was listed and the block it names is in the table. -/
def BlockListado (sb : Superbloque) (nombre : String) (bl : BlockLogico) : Prop :=
  bl.nombreBlock = nombre ∧ ∃ i < cantBlock sb, bl.bloqueFisicoAsociado = nombreBloqueFisico i

theorem leyendo_arranque (sb : Superbloque) (s : Storage) :
    Leyendo sb s.disco (arranque sb s) :=
  ⟨tabla_arranque sb s, rfl, rfl⟩

theorem Leyendo.sumar {d : Disco} (h : Leyendo sb d s) (i : ℕ) (k : ℤ) :
    Leyendo sb d (sumarAsociados s i k) := by
  obtain ⟨htabla, hdisco, hfiles⟩ := h
  exact ⟨(tabla_sumarAsociados s i k).trans htabla, hdisco, hfiles⟩

theorem length_of_tabla (h : TablaCompleta sb s) :
    s.listaBloquesFisicos.length = cantBlock sb := by
  have hlength := congrArg List.length h
  unfold tabla at hlength
  rwa [List.length_map, List.length_map, List.length_range] at hlength

theorem blockListado_of_levantarBlock {d : Disco} {n : String} {bl : BlockLogico}
    (h : Leyendo sb d s) (hop : levantarBlock md5 f t s n = .ok (s', bl)) :
    BlockListado sb n bl ∧ Leyendo sb d s' := by
  unfold levantarBlock at hop
  split at hop
  · simp at hop
  · next contenido _ =>
    split at hop
    · simp at hop
    · next i hbuscar =>
      obtain ⟨rfl, rfl⟩ := Prod.mk.inj (Except.ok.inj hop)
      refine ⟨⟨rfl, i, ?_⟩, h.sumar i 1⟩
      obtain ⟨b, _, hindex⟩ := Option.bind_eq_some_iff.mp hbuscar
      have hi : i < s.listaBloquesFisicos.length :=
        (List.findIdx?_eq_some_iff_getElem.mp hindex).1
      have hbf := List.getElem?_eq_getElem hi
      refine ⟨by rwa [length_of_tabla h.1] at hi, ?_⟩
      rw [hbf, Option.map_some, Option.getD_some]
      exact pathBlock_of_tabla h.1 hbf

variable (listado : Listado s)

/-- A Tag of the list, with its blocks in the order they were listed. -/
def TagListado (sb : Superbloque) (f nombre : String) (tag : Tag) : Prop :=
  tag.nameTag = nombre ∧
    List.Forall₂ (BlockListado sb) (listado.bloques f nombre) tag.listaBlockLogicos

def FileListado (sb : Superbloque) (nombre : String) (file : File) : Prop :=
  file.nameFile = nombre ∧
    List.Forall₂ (TagListado listado sb nombre) (listado.tags nombre) file.tags

theorem tagListado_of_levantarTag {d : Disco} {s₁ s₂ : Storage} {tag : Tag}
    (h : Leyendo sb d s₁) (hop : levantarTag md5 listado f s₁ t = .ok (s₂, tag)) :
    TagListado listado sb f t tag ∧ Leyendo sb d s₂ := by
  unfold levantarTag at hop
  split at hop
  · simp at hop
  · next s₃ bloques hcollect =>
    obtain ⟨rfl, rfl⟩ := Prod.mk.inj (Except.ok.inj hop)
    obtain ⟨hbloques, hend⟩ := forall₂_of_collect (I := Leyendo sb d) (R := BlockListado sb)
      (fun _ _ _ _ hs hbl => blockListado_of_levantarBlock hs hbl) h hcollect
    exact ⟨⟨rfl, hbloques⟩, hend⟩

theorem fileListado_of_levantarFile {d : Disco} {s₁ s₂ : Storage} {file : File}
    (h : Leyendo sb d s₁) (hop : levantarFile md5 listado s₁ f = .ok (s₂, file)) :
    FileListado listado sb f file ∧ Leyendo sb d s₂ := by
  unfold levantarFile at hop
  split at hop
  · simp at hop
  · next s₃ tags hcollect =>
    obtain ⟨rfl, rfl⟩ := Prod.mk.inj (Except.ok.inj hop)
    obtain ⟨htags, hend⟩ := forall₂_of_collect (I := Leyendo sb d) (R := TagListado listado sb f)
      (fun _ _ _ _ hs htag => tagListado_of_levantarTag listado hs htag) h hcollect
    exact ⟨⟨rfl, htags⟩, hend⟩

/-- A restart leaves the disk, and the Files in the order they were listed. -/
theorem files_of_reiniciar (hop : reiniciar md5 sb s listado = .ok s') :
    List.Forall₂ (FileListado listado sb) listado.files s'.listaFiles ∧
      TablaCompleta sb s' ∧ s'.disco = s.disco := by
  unfold reiniciar freshStartFalse at hop
  cases hcollect : collect (levantarFile md5 listado) (arranque sb s) listado.files with
  | error e => simp [hcollect] at hop
  | ok p =>
    obtain ⟨s₁, files⟩ := p
    obtain ⟨hfiles, htabla, hdisco, hvacia⟩ := forall₂_of_collect (I := Leyendo sb s.disco)
      (R := FileListado listado sb)
      (fun _ _ _ _ hs hfile => fileListado_of_levantarFile listado hs hfile)
      (leyendo_arranque sb s) hcollect
    simp only [hcollect, hvacia, List.nil_append] at hop
    obtain rfl := Except.ok.inj hop
    exact ⟨hfiles, htabla, hdisco⟩

theorem exists_of_forall₂ {α β : Type*} {R : α → β → Prop} {xs : List α} {ys : List β}
    (h : List.Forall₂ R xs ys) {y : β} (hy : y ∈ ys) : ∃ x ∈ xs, R x y := by
  obtain ⟨i, hi, rfl⟩ := List.getElem_of_mem hy
  have hlength := h.length_eq
  exact ⟨xs[i], List.getElem_mem _, (List.forall₂_iff_get.mp h).2 i (by omega) hi⟩

/-- The list of a Tag found after a restart. -/
theorem tagListado_of_reiniciar {tag : Tag} (hop : reiniciar md5 sb s listado = .ok s')
    (htag : buscarTag s' f t = some tag) : TagListado listado sb f t tag := by
  obtain ⟨hfiles, _⟩ := files_of_reiniciar listado hop
  obtain ⟨file, hfile, hnombre, hmem⟩ := mem_of_buscarTag htag
  obtain ⟨f', _, hf', htags⟩ := exists_of_forall₂ hfiles hfile
  obtain ⟨t', _, hlistado⟩ := exists_of_forall₂ htags hmem
  obtain rfl : f' = f := hf'.symm.trans hnombre
  obtain rfl : t' = t := hlistado.1.symm.trans (nameTag_of_buscarTag htag)
  exact hlistado

/-- The names in the order readdir gave them. -/
theorem map_nombreBlock_of_reiniciar {tag : Tag} (hop : reiniciar md5 sb s listado = .ok s')
    (htag : buscarTag s' f t = some tag) :
    tag.listaBlockLogicos.map BlockLogico.nombreBlock = listado.bloques f t := by
  have hbloques := (tagListado_of_reiniciar listado hop htag).2
  generalize listado.bloques f t = nombres, tag.listaBlockLogicos = bloques at hbloques ⊢
  induction hbloques with
  | nil => rfl
  | cons hbl _ ih => rw [List.map_cons, ih, hbl.1]

end Levantar

section Orden

/-- The names of the first logical blocks, in order. -/
def nombresEnOrden (cantidad : ℕ) : List String :=
  (List.range cantidad).map fun n : ℕ => crearNombreBloqueLogico n

theorem nombre_iff_map {bloques : List BlockLogico} :
    (∀ (n : ℕ) bl, bloques[n]? = some bl → bl.nombreBlock = crearNombreBloqueLogico n) ↔
      bloques.map BlockLogico.nombreBlock =
        nombresEnOrden bloques.length := by
  unfold nombresEnOrden
  constructor
  · intro h
    refine List.ext_getElem (by simp) fun n hn _ => ?_
    rw [List.length_map] at hn
    simpa using h n bloques[n] (List.getElem?_eq_getElem hn)
  · intro h n bl hbl
    have hn := congrArg (fun l => l[n]?) h
    obtain ⟨hlt, _⟩ := List.getElem?_eq_some_iff.mp hbl
    simpa [List.getElem?_map, hbl, List.getElem?_range hlt] using hn

theorem storageReadBlock_of_nombre {tag : Tag} {bl : BlockLogico} {n : ℕ}
    (htag : buscarTag s f t = some tag) (hbl : tag.listaBlockLogicos[n]? = some bl) :
    storageReadBlock sb s f t n =
      respuestaLectura sb (s.disco.getContenido (rutaBlockLogico f t bl.nombreBlock)) := by
  have hn := (List.getElem?_eq_some_iff.mp hbl).1
  have hrango : ¬ ((n : ℤ) < 0 ∨ (tag.listaBlockLogicos.length : ℤ) ≤ n) := by omega
  unfold storageReadBlock
  simp only [htag, if_neg hrango, Int.toNat_natCast, hbl]
  rfl

theorem storageWriteBlock_of_nombre {tag : Tag} {bl : BlockLogico} {n : ℕ}
    (htag : buscarTag s f t = some tag) (hbl : tag.listaBlockLogicos[n]? = some bl)
    (contenido : Bytes) :
    storageWriteBlock md5 sb s f t n contenido =
      respuestaEscritura md5 sb s f t bl contenido := by
  unfold storageWriteBlock
  simp only [htag, hbl]
  rfl

theorem disco_achicarUno_of_last {tag : Tag} {bl : BlockLogico} {i : ℕ}
    (htag : buscarTag s f t = some tag) (hlast : tag.listaBlockLogicos.getLast? = some bl)
    (hindex : buscarIndexBlockFisico s bl.bloqueFisicoAsociado = some i)
    (hop : achicarUno s f t = .ok s') :
    s'.disco = s.disco.unlink (rutaBlockLogico f t bl.nombreBlock) := by
  have hmod : buscarIndexBlockFisico (modificarTag s f t quitarUltimo)
      bl.bloqueFisicoAsociado = some i := hindex
  unfold achicarUno at hop
  simp only [htag, Option.bind_some, hlast, hmod] at hop
  split_ifs at hop
  rw [← Except.ok.inj hop]
  rfl

/-- After a restart the list of a Tag is in the order of its blocks, and the requests act
on the blocks of their numbers, exactly when the directory was listed in that order. -/
theorem ordenLogico_iff_listado (listado : Listado s) {tag : Tag}
    (hop : reiniciar md5 sb s listado = .ok s') (htag : buscarTag s' f t = some tag) :
    OrdenLogico md5 sb s.disco s' f t tag.listaBlockLogicos ↔
      listado.bloques f t = nombresEnOrden (listado.bloques f t).length := by
  have hnombres := map_nombreBlock_of_reiniciar listado hop htag
  obtain ⟨_, htabla, hdisco⟩ := files_of_reiniciar listado hop
  have hbloques := (tagListado_of_reiniciar listado hop htag).2
  have hcant : (listado.bloques f t).length = tag.listaBlockLogicos.length := hbloques.length_eq
  rw [hcant, ← hnombres, ← nombre_iff_map]
  refine ⟨OrdenLogico.nombre, fun hnombre => ⟨hnombre, fun n hn => ?_, fun n bl hbl c => ?_,
    fun k hk s'' hrecorte => ?_⟩⟩
  · have hbl := List.getElem?_eq_getElem hn
    rw [storageReadBlock_of_nombre htag hbl, hnombre n _ hbl, hdisco]
  · rw [storageWriteBlock_of_nombre htag hbl, ← hnombre n bl hbl]
  · have hbl : tag.listaBlockLogicos[k]? = some tag.listaBlockLogicos[k] :=
      List.getElem?_eq_getElem (by omega)
    have hlast : tag.listaBlockLogicos.getLast? = some tag.listaBlockLogicos[k] := by
      have hultimo : tag.listaBlockLogicos.length - 1 = k := by omega
      rw [List.getLast?_eq_getElem?, hultimo]
      exact hbl
    obtain ⟨_, _, _, i, hi, hasociado⟩ := exists_of_forall₂ hbloques (List.getElem_mem _)
    have hindex := buscarIndex_of_tabla htabla hi
    rw [← hasociado] at hindex
    rw [disco_achicarUno_of_last htag hlast hindex hrecorte, hdisco, hnombre k _ hbl]

end Orden

section Invertido

/-- A File with two logical blocks, both linked to block0000, whose hash is in the index. -/
def imagenDosBloques : Storage where
  listaFiles := [⟨"f", [⟨"t", ⟨4, ["0"], .workInProgress⟩,
    [⟨"000000.dat", "block0000"⟩, ⟨"000001.dat", "block0000"⟩]⟩]⟩]
  listaBloquesFisicos := []
  bitmap := List.replicate 8 false
  hashIndexConfig := []
  disco := {
    physicalBlocks := Function.update (fun _ => none) "block0000" (some [0, 0])
    tagDirs := Function.update (fun _ => false) (rutaTag "f" "t") true
    links := fun r =>
      if r = rutaBlockLogico "f" "t" "000000.dat" ∨ r = rutaBlockLogico "f" "t" "000001.dat" then
        some "block0000"
      else none
    metadataConfig := fun _ => none
    blocksHashIndex := [(hashContenido hashLegible [0, 0], "block0000")] }

def listadoInvertido : Listado imagenDosBloques where
  files := ["f"]
  tags := fun f => if f = "f" then ["t"] else []
  bloques := fun f t => if f = "f" ∧ t = "t" then ["000001.dat", "000000.dat"] else []
  files_nodup := List.nodup_singleton _
  mem_files := by
    intro f
    rw [isSome_buscarFile_iff]
    rfl
  tags_nodup := by
    intro f
    split_ifs
    · exact List.nodup_singleton _
    · exact List.nodup_nil
  mem_tags := by
    intro f t
    change _ ↔ Function.update (fun _ => false) (rutaTag "f" "t") true (rutaTag f t) = true
    rw [Function.update_apply]
    by_cases hf : f = "f"
    · simp [hf, rutaTag]
    · simp [hf, rutaTag]
  bloques_nodup := by
    intro f t
    split_ifs
    · decide
    · exact List.nodup_nil
  mem_bloques := by
    intro f t n
    by_cases hft : f = "f" ∧ t = "t"
    · obtain ⟨rfl, rfl⟩ := hft
      simp [imagenDosBloques, rutaBlockLogico, or_comm]
    · have hruta : ∀ n', rutaBlockLogico f t n ≠ rutaBlockLogico "f" "t" n' := by
        intro n' heq
        obtain ⟨hf, hrest⟩ := Prod.mk.inj heq
        exact hft ⟨hf, (Prod.mk.inj hrest).1⟩
      simp [imagenDosBloques, hft, hruta]

theorem reiniciar_invertido : ∃ s' tag,
    reiniciar hashLegible superbloqueChico imagenDosBloques listadoInvertido = .ok s' ∧
      buscarTag s' "f" "t" = some tag ∧
      tag.listaBlockLogicos.map BlockLogico.nombreBlock = ["000001.dat", "000000.dat"] :=
  ⟨_, _, rfl, rfl, rfl⟩

theorem ordenLogico_iff_listado_invertido : ∃ s' tag,
    reiniciar hashLegible superbloqueChico imagenDosBloques listadoInvertido = .ok s' ∧
      buscarTag s' "f" "t" = some tag ∧
      (OrdenLogico hashLegible superbloqueChico imagenDosBloques.disco s' "f" "t"
          tag.listaBlockLogicos ↔
        listadoInvertido.bloques "f" "t" =
          nombresEnOrden (listadoInvertido.bloques "f" "t").length) := by
  obtain ⟨s', tag, hop, htag, _⟩ := reiniciar_invertido
  exact ⟨s', tag, hop, htag, ordenLogico_iff_listado listadoInvertido hop htag⟩

/-- readdir may list the second block first. -/
theorem not_ordenLogico_recuperado : ¬ ∀ md5 sb s (listado : Listado s) s' f t tag,
    reiniciar md5 sb s listado = .ok s' → buscarTag s' f t = some tag →
      OrdenLogico md5 sb s.disco s' f t tag.listaBlockLogicos := by
  intro h
  obtain ⟨s', tag, hop, htag, hnombres⟩ := reiniciar_invertido
  have horden := h _ _ _ _ _ _ _ _ hop htag
  have hmap := nombre_iff_map.mp horden.nombre
  rw [hnombres] at hmap
  have hprimero := congrArg List.head? hmap
  have hlargo : tag.listaBlockLogicos.length = 2 := by
    rw [← List.length_map BlockLogico.nombreBlock, hnombres]
    rfl
  rw [hlargo] at hprimero
  exact absurd hprimero (by decide)

end Invertido

end MasterOfFiles.RecoveredOrder
