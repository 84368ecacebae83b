import MasterOfFiles.BlockTable
import MasterOfFiles.PlainNames
import MasterOfFiles.SharedStrings
import MasterOfFiles.TruncateTurns

/-!
The arrays of addresses beside the Tags they belong to. Every request does to the arrays
what it does to the lists of strings, so that each Tag that a lookup can ever come to has
as many addresses as strings. As long as no lookup finds a freed string, a request keeps
it so just when the strings it frees are in no other array that a lookup finds.
-/
namespace MasterOfFiles.StringLayouts

open KeyedLists ByteBuffers BlockNames StorageState StorageFiles StorageOperations
open TagLookups BlockZero TruncateEffects TruncateOutcomes TruncateTurns RequestEffects
open ReachableStates CommitDeduplication PlainNames SharedStrings

variable {md5 : Bytes → String} {sb : Superbloque} {s s' s₁ : Storage} {p : Punteros}
  {f t f' t' : String} {tag : Tag} {celdas : List ℕ}

section Entradas

/-- The Tags that lookups of the name come to, one DELETE after another. -/
def tagsDe (s : Storage) (nameFile nameTag : String) : List Tag :=
  withKey Tag.nameTag nameTag (((buscarFile s nameFile).map File.tags).getD [])

def arreglosDe (p : Punteros) (nameFile nameTag : String) : List (List ℕ) :=
  (withKey Prod.fst (rutaTag nameFile nameTag) p.arreglos).map Prod.snd

theorem buscarTag_eq_head? (s : Storage) (f t : String) :
    buscarTag s f t = (tagsDe s f t).head? := by
  unfold buscarTag tagsDe
  cases buscarFile s f with
  | none => rfl
  | some file => exact first_eq_head? file.tags

theorem celdasDe_eq_headD (p : Punteros) (f t : String) :
    celdasDe p f t = (arreglosDe p f t).headD [] := by
  unfold celdasDe arreglosDe
  rw [first_eq_head?]
  cases withKey Prod.fst (rutaTag f t) p.arreglos with
  | nil => rfl
  | cons e es => rfl

theorem gemelo_eq_head? (s : Storage) (f t : String) :
    gemelo s f t = (tagsDe s f t).tail.head? := by
  unfold gemelo tagsDe
  cases buscarFile s f with
  | none => rfl
  | some file =>
    change first Tag.nameTag t (eraseFirst Tag.nameTag t file.tags) = _
    rw [first_eq_head?, withKey_eraseFirst_self]
    rfl

theorem tagsDe_congr (h : s'.listaFiles = s.listaFiles) (f t : String) :
    tagsDe s' f t = tagsDe s f t := by
  unfold tagsDe buscarFile
  rw [h]

theorem tagsDe_modificarTags_self (s : Storage) (f t : String) (h : List Tag → List Tag) :
    tagsDe (modificarTags s f h) f t =
      withKey Tag.nameTag t (((buscarFile s f).map fun file => h file.tags).getD []) := by
  unfold tagsDe
  rw [buscarFile_modificarTags_self, Option.map_map]
  rfl

theorem tagsDe_modificarTags_ne (s : Storage) (t : String) (h : List Tag → List Tag)
    (hf : f' ≠ f) : tagsDe (modificarTags s f h) f' t = tagsDe s f' t := by
  have hfile : buscarFile (modificarTags s f h) f' = buscarFile s f' :=
    first_modifyFirst_ne (fun _ => rfl) hf
  unfold tagsDe
  rw [hfile]

theorem tagsDe_crearFile (s : Storage) (f f' t : String) :
    tagsDe (crearFile s f) f' t = tagsDe s f' t := by
  unfold tagsDe buscarFile crearFile
  rw [first_append]
  cases first File.nameFile f' s.listaFiles with
  | some file => rfl
  | none =>
    rcases eq_or_ne f f' with hname | hname
    · simp [first, hname]
    · simp [first, hname]

theorem tagsDe_asegurarFile (s : Storage) (f f' t : String) :
    tagsDe (asegurarFile s f) f' t = tagsDe s f' t := by
  unfold asegurarFile
  split_ifs
  · rfl
  · exact tagsDe_crearFile s f f' t

theorem tagsDe_agregarTag (hfile : (buscarFile s f).isSome) (f' t' : String) :
    tagsDe (agregarTag s f tag) f' t' = tagsDe s f' t' ++
      if rutaTag f' t' = rutaTag f tag.nameTag then [tag] else [] := by
  unfold agregarTag
  rcases eq_or_ne f' f with rfl | hf
  · obtain ⟨file, hfile⟩ := Option.isSome_iff_exists.mp hfile
    rw [tagsDe_modificarTags_self, tagsDe, hfile, Option.map_some, Option.map_some,
      Option.getD_some, Option.getD_some, withKey_append]
    congr 1
    by_cases ht : t' = tag.nameTag
    · simp [withKey, rutaTag, ht]
    · simp [withKey, rutaTag, ht, Ne.symm ht]
  · have hne : rutaTag f' t' ≠ rutaTag f tag.nameTag := fun h => hf (Prod.mk.inj h).1
    rw [tagsDe_modificarTags_ne s t' _ hf, if_neg hne, List.append_nil]

theorem tagsDe_modificarTag_self {g : Tag → Tag} (hg : ∀ tag, (g tag).nameTag = tag.nameTag)
    (s : Storage) (f t : String) :
    tagsDe (modificarTag s f t g) f t = (tagsDe s f t).modifyHead g := by
  unfold modificarTag
  rw [tagsDe_modificarTags_self]
  unfold tagsDe
  cases buscarFile s f with
  | none => rfl
  | some file => exact withKey_modifyFirst_self hg

theorem tagsDe_modificarTag_ne {g : Tag → Tag} (hg : ∀ tag, (g tag).nameTag = tag.nameTag)
    (s : Storage) (h : rutaTag f' t' ≠ rutaTag f t) :
    tagsDe (modificarTag s f t g) f' t' = tagsDe s f' t' := by
  unfold modificarTag
  rcases eq_or_ne f' f with rfl | hf
  · rw [tagsDe_modificarTags_self]
    unfold tagsDe
    cases buscarFile s f' with
    | none => rfl
    | some file => exact withKey_modifyFirst_ne hg fun ht => h (by rw [ht])
  · exact tagsDe_modificarTags_ne s t' _ hf

theorem tagsDe_quitarTag_self (s : Storage) (f t : String) :
    tagsDe (quitarTag s f t) f t = (tagsDe s f t).tail := by
  unfold quitarTag
  rw [tagsDe_modificarTags_self]
  unfold tagsDe
  cases buscarFile s f with
  | none => rfl
  | some file => exact withKey_eraseFirst_self

theorem tagsDe_quitarTag_ne (s : Storage) (h : rutaTag f' t' ≠ rutaTag f t) :
    tagsDe (quitarTag s f t) f' t' = tagsDe s f' t' := by
  unfold quitarTag
  rcases eq_or_ne f' f with rfl | hf
  · rw [tagsDe_modificarTags_self]
    unfold tagsDe
    cases buscarFile s f' with
    | none => rfl
    | some file => exact withKey_eraseFirst_ne fun ht => h (by rw [ht])
  · exact tagsDe_modificarTags_ne s t' _ hf

end Entradas

section Arreglos

theorem arreglosDe_agregarCeldas (p : Punteros) (f t f' t' : String) (celdas : List ℕ) :
    arreglosDe (agregarCeldas p f t celdas) f' t' = arreglosDe p f' t' ++
      if rutaTag f' t' = rutaTag f t then [celdas] else [] := by
  unfold arreglosDe agregarCeldas
  rw [withKey_append, List.map_append]
  congr 1
  by_cases h : rutaTag f' t' = rutaTag f t
  · simp [withKey, h]
  · simp [withKey, h, Ne.symm h]

theorem arreglosDe_fijarCeldas_self (p : Punteros) (f t : String) (celdas : List ℕ) :
    arreglosDe (fijarCeldas p f t celdas) f t = (arreglosDe p f t).modifyHead fun _ => celdas := by
  have hclave : ∀ e : RutaTag × List ℕ, (e.1, celdas).1 = e.1 := fun _ => rfl
  unfold arreglosDe fijarCeldas
  rw [withKey_modifyFirst_self hclave]
  cases withKey Prod.fst (rutaTag f t) p.arreglos with
  | nil => rfl
  | cons e es => rfl

theorem arreglosDe_fijarCeldas_ne (p : Punteros) (h : rutaTag f' t' ≠ rutaTag f t)
    (celdas : List ℕ) : arreglosDe (fijarCeldas p f t celdas) f' t' = arreglosDe p f' t' := by
  have hclave : ∀ e : RutaTag × List ℕ, (e.1, celdas).1 = e.1 := fun _ => rfl
  unfold arreglosDe fijarCeldas
  rw [withKey_modifyFirst_ne hclave h]

theorem arreglosDe_quitarCeldas_self (p : Punteros) (f t : String) :
    arreglosDe (quitarCeldas p f t) f t = (arreglosDe p f t).tail := by
  unfold arreglosDe quitarCeldas
  rw [withKey_eraseFirst_self, List.map_tail]

theorem arreglosDe_quitarCeldas_ne (p : Punteros) (h : rutaTag f' t' ≠ rutaTag f t) :
    arreglosDe (quitarCeldas p f t) f' t' = arreglosDe p f' t' := by
  unfold arreglosDe quitarCeldas
  rw [withKey_eraseFirst_ne h]

end Arreglos

section Listas

theorem listaFiles_agrandar (s : Storage) (f t : String) (nro : ℤ) (k : ℕ) :
    ∃ nombres, (agrandar s f t nro k).1.listaFiles =
      (modificarTag s f t (agregarBloques nombres)).listaFiles := by
  induction k generalizing s nro with
  | zero => exact ⟨[], congrArg Storage.listaFiles (modificarTag_eq_self s fun _ _ => rfl).symm⟩
  | succ k ih =>
    unfold agrandar
    cases huno : agrandarUno s f t nro with
    | none => exact ⟨[], congrArg Storage.listaFiles (modificarTag_eq_self s fun _ _ => rfl).symm⟩
    | some s₁ =>
      obtain ⟨nombres, hnombres⟩ := ih s₁ (nro + 1)
      unfold agrandarUno at huno
      split at huno
      · simp at huno
      · dsimp only at huno
        split at huno
        · obtain rfl := Option.some.inj huno
          refine ⟨nombres, hnombres.trans (listaFiles_modificarTag_congr ?_ f t _)⟩
          rfl
        · obtain rfl := Option.some.inj huno
          refine ⟨crearNombreBloqueLogico nro :: nombres, ?_⟩
          refine listaFiles_comp (nameTag_agregarBloques [crearNombreBloqueLogico nro]) ?_ hnombres
          rfl

theorem listaFiles_copiarBloques (s : Storage) (f t : String) (bls acc : List BlockLogico) :
    (bls.foldl (copiarBloque f t) (s, acc)).1.listaFiles = s.listaFiles := by
  induction bls generalizing s acc with
  | nil => rfl
  | cons bl bls ih =>
    have hlista : (copiarBloque f t (s, acc) bl).1.listaFiles = s.listaFiles := by
      unfold copiarBloque
      split
      · rfl
      · dsimp only
        split
        · rfl
        · rfl
    rw [List.foldl_cons]
    exact (ih _ _).trans hlista

theorem listaFiles_procesarBloques {bls bls' : List BlockLogico}
    (hop : procesarBloques md5 f t s bls = .ok (s', bls')) : s'.listaFiles = s.listaFiles := by
  induction bls generalizing s bls' with
  | nil => rw [← (Prod.mk.inj (Except.ok.inj hop)).1]
  | cons bl bls ih =>
    obtain ⟨s₁, bl₁, bls₂, hhead, htail, -⟩ := procesarBloques_cons_ok hop
    refine (ih htail).trans ?_
    obtain ⟨c, -, ⟨-, rfl, -⟩ | ⟨-, rfl, -⟩ | ⟨b, -, -, hreasignar⟩⟩ :=
      procesarBloqueCommit_pasos hhead
    · rfl
    · rfl
    · rw [reasignar_eq] at hreasignar
      obtain ⟨bfs, bitmap, heq⟩ := soltarTomar_eq (cambiarDisco s
        (moverEnlace s.disco (rutaBlockLogico f t bl.nombreBlock) b)) bl.bloqueFisicoAsociado b
      rw [← (Prod.mk.inj hreasignar).1, heq]
      rfl

theorem listaFiles_liberarUsados (sb : Superbloque) (s : Storage) (es : List String) :
    (es.foldl (liberarUsado sb) s).listaFiles = s.listaFiles := by
  induction es generalizing s with
  | nil => rfl
  | cons e es ih =>
    refine (ih (liberarUsado sb s e)).trans ?_
    unfold liberarUsado
    dsimp only
    split
    · rfl
    · split_ifs
      · rfl
      · rfl

theorem listaFiles_writeBloque (md5 : Bytes → String) (sb : Superbloque) (s : Storage)
    (f t : String) (bl : BlockLogico) (contenido : Bytes) :
    (operacionWriteBloque md5 sb s f t bl contenido).1.listaFiles = s.listaFiles := by
  unfold operacionWriteBloque
  by_cases hnone : (buscarTag s f t).isNone
  · rw [if_pos hnone]
  · rw [if_neg hnone]
    split
    · rfl
    · by_cases hcabe : sb.blockSize < contenido.length
      · rw [if_pos hcabe]
      · rw [if_neg hcabe]
        split
        · rfl
        · rfl

theorem listaFiles_eliminarTag (sb : Superbloque) (htag : buscarTag s f t = some tag) :
    (operacionEliminarTag sb s f t).listaFiles = (quitarTag s f t).listaFiles := by
  unfold operacionEliminarTag quitarTag modificarTags
  rw [htag]
  dsimp only
  rw [listaFiles_liberarUsados]

/-- The copy is added with the source's blocks, whatever was linked. -/
theorem listaFiles_tagFile {fo tgo : String} (htag : buscarTag s fo tgo = some tag) (f t : String) :
    ∃ bloques, (operacionTagFile s fo tgo f t).1.listaFiles =
      (agregarTag (asegurarFile s f) f
        { copia t tag with listaBlockLogicos := bloques }).listaFiles := by
  unfold operacionTagFile
  rw [htag]
  dsimp only
  rw [crearTag_fst]
  generalize hd : { asegurarFile s f with
    disco := (crearTag ((asegurarFile s f).disco.crearRutaTag (rutaTag f t)) t (rutaTag f t)).2 }
      = s₁
  refine ⟨(copiarBloques s₁ f t tag.listaBlockLogicos).2, ?_⟩
  have hlista : (copiarBloques s₁ f t tag.listaBlockLogicos).1.listaFiles =
      (asegurarFile s f).listaFiles := by
    unfold copiarBloques
    rw [listaFiles_copiarBloques, ← hd]
  unfold registrarCopia agregarTag modificarTags
  dsimp only
  rw [hlista]
  rfl

theorem listaFiles_guardarMetadata (s : Storage) (f t : String) :
    (guardarMetadata s f t).listaFiles = s.listaFiles := by
  obtain ⟨mc, hmc⟩ := guardarMetadata_eq s f t
  rw [hmc]

end Listas

section Forma

/-- Behind each Tag that lookups can come to there is an array of as many addresses as its
list of blocks has strings. -/
def Forma (s : Storage) (p : Punteros) : Prop :=
  ∀ f t, (arreglosDe p f t).map List.length =
    (tagsDe s f t).map fun tag => tag.metadata.blocksFisicosUsados.length

theorem forma_fijar (h : Forma s p) {g : Tag → Tag} (hg : ∀ tag, (g tag).nameTag = tag.nameTag)
    (hlista : s'.listaFiles = (modificarTag s f t g).listaFiles) (htag : buscarTag s f t = some tag)
    (hlargo : celdas.length = (g tag).metadata.blocksFisicosUsados.length) :
    Forma s' (fijarCeldas p f t celdas) := by
  intro f' t'
  rw [tagsDe_congr hlista]
  by_cases hne : rutaTag f' t' = rutaTag f t
  · obtain ⟨rfl, rfl⟩ := Prod.mk.inj hne
    have hself := h f' t'
    rw [buscarTag_eq_head?] at htag
    rw [tagsDe_modificarTag_self hg, arreglosDe_fijarCeldas_self]
    obtain ⟨resto, hresto⟩ := List.head?_eq_some_iff.mp htag
    rw [hresto] at hself ⊢
    cases harreglos : arreglosDe p f' t' with
    | nil => simp [harreglos] at hself
    | cons a as =>
      rw [harreglos] at hself
      simp only [List.map_cons, List.cons.injEq] at hself
      simp [hlargo, hself.2]
  · rw [tagsDe_modificarTag_ne hg s hne, arreglosDe_fijarCeldas_ne p hne]
    exact h f' t'

/-- A change of the Tag found that keeps the length of its list. -/
theorem forma_modificar (h : Forma s p) {g : Tag → Tag}
    (hg : ∀ tag, (g tag).nameTag = tag.nameTag)
    (hlista : s'.listaFiles = (modificarTag s f t g).listaFiles)
    (hlargo : ∀ tag, buscarTag s f t = some tag → (g tag).metadata.blocksFisicosUsados.length =
      tag.metadata.blocksFisicosUsados.length) : Forma s' p := by
  intro f' t'
  rw [h f' t', tagsDe_congr hlista]
  by_cases hne : rutaTag f' t' = rutaTag f t
  · obtain ⟨rfl, rfl⟩ := Prod.mk.inj hne
    rw [tagsDe_modificarTag_self hg]
    rw [buscarTag_eq_head?] at hlargo
    cases htags : tagsDe s f' t' with
    | nil => rfl
    | cons tag tags =>
      have hcabeza := hlargo tag (by rw [htags, List.head?_cons])
      simp [hcabeza]
  · rw [tagsDe_modificarTag_ne hg s hne]

theorem forma_congr (h : Forma s p) (hlista : s'.listaFiles = s.listaFiles) : Forma s' p := by
  intro f t
  rw [tagsDe_congr hlista]
  exact h f t

theorem forma_agregar (h : Forma s p) (hfile : (buscarFile s f).isSome)
    (hlista : s'.listaFiles = (agregarTag s f tag).listaFiles) (htag : tag.nameTag = t)
    (hlargo : celdas.length = tag.metadata.blocksFisicosUsados.length) :
    Forma s' (agregarCeldas p f t celdas) := by
  intro f' t'
  rw [tagsDe_congr hlista, tagsDe_agregarTag hfile, arreglosDe_agregarCeldas, List.map_append,
    List.map_append, h f' t', htag]
  split_ifs
  · simp [hlargo]
  · rfl

theorem forma_quitar (h : Forma s p) (hlista : s'.listaFiles = (quitarTag s f t).listaFiles) :
    Forma s' (quitarCeldas p f t) := by
  intro f' t'
  rw [tagsDe_congr hlista]
  by_cases hne : rutaTag f' t' = rutaTag f t
  · obtain ⟨rfl, rfl⟩ := Prod.mk.inj hne
    rw [tagsDe_quitarTag_self, arreglosDe_quitarCeldas_self, List.map_tail, List.map_tail, h]
  · rw [tagsDe_quitarTag_ne s hne, arreglosDe_quitarCeldas_ne p hne]
    exact h f' t'

theorem Forma.length_celdasDe (h : Forma s p) (htag : buscarTag s f t = some tag) :
    (celdasDe p f t).length = tag.metadata.blocksFisicosUsados.length := by
  have hself := h f t
  rw [buscarTag_eq_head?] at htag
  obtain ⟨resto, hresto⟩ := List.head?_eq_some_iff.mp htag
  rw [hresto] at hself
  rw [celdasDe_eq_headD]
  cases harreglos : arreglosDe p f t with
  | nil => simp [harreglos] at hself
  | cons a as =>
    rw [harreglos] at hself
    exact (List.cons.inj hself).1

end Forma

section Truncate

/-- A TRUNCATE is rejected, or grows or shrinks the Tag it finds; only a growth that is left
without a bit does not get to the metadata. -/
theorem truncate_pasos {tamanio c : ℤ}
    (hop : operacionTruncateFile sb s f t tamanio = .ok (s', c)) :
    (s' = s ∧ c ≠ 0) ∨ ∃ tag s₁, buscarTag s f t = some tag ∧
      ((∃ nombres, s₁.listaFiles = (modificarTag s f t (agregarBloques nombres)).listaFiles) ∧
          (s' = s₁ ∧ c ≠ 0 ∨ s' = terminarTruncate s₁ f t tamanio ∧ c = 0) ∨
        (∃ n, s₁.listaFiles = (modificarTag s f t (quitarBloques n)).listaFiles) ∧
          s' = terminarTruncate s₁ f t tamanio ∧ c = 0) := by
  unfold operacionTruncateFile at hop
  split_ifs at hop
  · obtain ⟨rfl, rfl⟩ := Prod.mk.inj (Except.ok.inj hop)
    exact Or.inl ⟨rfl, by decide⟩
  · split at hop
    · obtain ⟨rfl, rfl⟩ := Prod.mk.inj (Except.ok.inj hop)
      exact Or.inl ⟨rfl, by decide⟩
    · next tag htag =>
      dsimp only at hop
      split_ifs at hop
      · obtain ⟨rfl, rfl⟩ := Prod.mk.inj (Except.ok.inj hop)
        exact Or.inl ⟨rfl, by decide⟩
      · have hlista := listaFiles_agrandar s f t (cantidadBloques sb tag.metadata.tamanioFile)
          (cantidadBloques sb tamanio - cantidadBloques sb tag.metadata.tamanioFile).toNat
        split at hop
        · next s₁ hloop =>
          rw [hloop] at hlista
          obtain ⟨rfl, rfl⟩ := Prod.mk.inj (Except.ok.inj hop)
          exact Or.inr ⟨tag, s₁, htag, Or.inl ⟨hlista, Or.inl ⟨rfl, by decide⟩⟩⟩
        · next s₁ hloop =>
          rw [hloop] at hlista
          obtain ⟨rfl, rfl⟩ := Prod.mk.inj (Except.ok.inj hop)
          exact Or.inr ⟨tag, s₁, htag, Or.inl ⟨hlista, Or.inr ⟨rfl, rfl⟩⟩⟩
      · split at hop
        · simp at hop
        · next s₁ hloop =>
          obtain ⟨rfl, rfl⟩ := Prod.mk.inj (Except.ok.inj hop)
          have hlista := (achicar_efecto htag hloop).1
          exact Or.inr ⟨tag, s₁, htag, Or.inr ⟨⟨_, hlista⟩, rfl, rfl⟩⟩

theorem rastroTruncate_eq {tamanio c : ℤ} (htag : buscarTag s f t = some tag)
    (hop : operacionTruncateFile sb s f t tamanio = .ok (s', c)) :
    rastroTruncate sb p s f t tamanio =
      let r := if largoDe s f t < largoDe s' f t then
          rastroCrecer p f t tag.metadata.blocksFisicosUsados
        else sinRastro p
      if c = 0 then rastroTerminar r s f t tamanio else r := by
  unfold rastroTruncate
  rw [htag, hop]

theorem largoDe_modificar {g : Tag → Tag} (hg : ∀ tag, (g tag).nameTag = tag.nameTag)
    (htag : buscarTag s f t = some tag)
    (hlista : s'.listaFiles = (modificarTag s f t g).listaFiles) :
    largoDe s' f t = (g tag).listaBlockLogicos.length := by
  unfold largoDe
  rw [buscarTag_congr hlista, buscarTag_modificarTag_self s hg, htag]
  rfl

/-- What the growth loop leaves: the array of its Tag. -/
theorem forma_crecer (h : Forma s p) (htag : buscarTag s f t = some tag) {nombres : List String}
    (hlista : s₁.listaFiles = (modificarTag s f t (agregarBloques nombres)).listaFiles) :
    Forma s₁ (if largoDe s f t < largoDe s₁ f t then
        rastroCrecer p f t tag.metadata.blocksFisicosUsados else sinRastro p).punteros := by
  have hlargo : largoDe s f t = tag.listaBlockLogicos.length := by
    unfold largoDe
    rw [htag]
    rfl
  have husados := usados_agregarBloques nombres tag
  rw [hlargo, largoDe_modificar (nameTag_agregarBloques nombres) htag hlista,
    listaBlockLogicos_agregarBloques, List.length_append, List.length_map]
  cases nombres with
  | nil =>
    rw [if_neg (by simp)]
    exact forma_modificar h (nameTag_agregarBloques []) hlista fun _ _ => rfl
  | cons nombre nombres =>
    rw [if_pos (by simp), rastroCrecer]
    rw [if_neg (List.cons_ne_nil _ _), agregarUsado] at husados
    dsimp only
    split_ifs at husados ⊢ with hcero
    · refine forma_modificar h (nameTag_agregarBloques _) hlista fun tag' htag' => ?_
      obtain rfl := Option.some.inj (htag.symm.trans htag')
      rw [husados]
    · refine forma_fijar (p := p) h (nameTag_agregarBloques _) hlista htag ?_
      rw [husados, List.length_append, List.length_append, h.length_celdasDe htag]
      rfl

theorem forma_terminar {r : Rastro} {tamanio : ℤ} (h : Forma s₁ r.punteros)
    (htag : buscarTag s₁ f t = some tag) :
    Forma (terminarTruncate s₁ f t tamanio) (rastroTerminar r s f t tamanio).punteros := by
  have hlista := listaFiles_terminarTruncate s₁ f t tamanio
  unfold rastroTerminar
  dsimp only
  split_ifs with hcero
  · refine forma_fijar h (nameTag_fijarTamanio tamanio) hlista htag ?_
    unfold fijarTamanio
    rw [if_pos hcero]
    rfl
  · refine forma_modificar h (nameTag_fijarTamanio tamanio) hlista fun tag _ => ?_
    unfold fijarTamanio
    rw [if_neg hcero]

theorem forma_truncate (h : Forma s p) {tamanio c : ℤ}
    (hop : operacionTruncateFile sb s f t tamanio = .ok (s', c)) :
    Forma s' (rastroTruncate sb p s f t tamanio).punteros := by
  obtain ⟨rfl, hc⟩ | ⟨tag, s₁, htag, hcasos⟩ := truncate_pasos hop
  · unfold rastroTruncate
    split
    · rw [if_neg (by simp_all), if_neg (by simp_all)]
      exact h
    · exact h
  · have hlargo : ∀ tamanio, largoDe (terminarTruncate s₁ f t tamanio) f t = largoDe s₁ f t := by
      intro tamanio
      unfold largoDe
      rw [buscarTag_terminarTruncate_self, Option.map_map]
      rfl
    rw [rastroTruncate_eq htag hop]
    dsimp only
    obtain ⟨⟨nombres, hlista⟩, hfin⟩ | ⟨⟨n, hlista⟩, rfl, rfl⟩ := hcasos
    · have htag₁ : buscarTag s₁ f t = some (agregarBloques nombres tag) := by
        rw [buscarTag_congr hlista, buscarTag_modificarTag_self s (nameTag_agregarBloques nombres),
          htag, Option.map_some]
      have hcrecer := forma_crecer h htag hlista
      obtain ⟨rfl, hc⟩ | ⟨rfl, rfl⟩ := hfin
      · rw [if_neg hc]
        exact hcrecer
      · rw [if_pos rfl, hlargo]
        exact forma_terminar hcrecer htag₁
    · have htag₁ : buscarTag s₁ f t = some (quitarBloques n tag) := by
        rw [buscarTag_congr hlista, buscarTag_modificarTag_self s (nameTag_quitarBloques n), htag,
          Option.map_some]
      have hcorto : ¬ largoDe s f t < largoDe s₁ f t := by
        have hmenos := List.length_take_le (tag.listaBlockLogicos.length - n) tag.listaBlockLogicos
        rw [largoDe_modificar (nameTag_quitarBloques n) htag hlista, largoDe, htag, Option.map_some,
          Option.getD_some, quitarBloques]
        dsimp only
        omega
      rw [if_pos rfl, hlargo, if_neg hcorto]
      refine forma_terminar (r := sinRastro p) ?_ htag₁
      exact forma_modificar h (nameTag_quitarBloques n) hlista fun _ _ => rfl

end Truncate

section Pasos

theorem forma_create (h : Forma s p) (hop : paso md5 sb s (.create f t) = .ok s') :
    Forma s' (rastroCreate p s f t).punteros := by
  unfold rastroCreate
  obtain ⟨rfl, htag⟩ | ⟨mc, htag, rfl⟩ := paso_create hop
  · rw [if_pos htag]
    exact h
  · rw [if_neg (by simp [htag])]
    have hlista : (creado s f t mc).listaFiles =
      (agregarTag (crearFile s f) f (tagNuevo t)).listaFiles := rfl
    refine forma_agregar ?_ (buscarFile_crearFile_self s f) hlista rfl rfl
    intro f' t'
    rw [h, tagsDe_crearFile]

/-- The copy has as many addresses as the source, and as many strings. -/
theorem forma_tag (h : Forma s p) (fo tgo f t : String) :
    Forma (operacionTagFile s fo tgo f t).1 (rastroTag p s fo tgo f t).punteros := by
  unfold rastroTag
  cases htag : buscarTag s fo tgo with
  | none =>
    unfold operacionTagFile
    rw [htag]
    exact h
  | some tag =>
    obtain ⟨bloques, hlista⟩ := listaFiles_tagFile htag f t
    have hlargo := h.length_celdasDe htag
    refine forma_agregar (s := asegurarFile s f) ?_ (buscarFile_asegurarFile s f) hlista rfl
      hlargo
    intro f' t'
    rw [h, tagsDe_asegurarFile]

theorem forma_commit (h : Forma s p) {c : ℤ}
    (hop : operacionCommitTag md5 s f t = .ok (s', c)) :
    Forma s' (rastroCommit p s f t).punteros := by
  have hpunteros : (rastroCommit p s f t).punteros = p := by
    unfold rastroCommit
    split
    · rfl
    · split_ifs
      · rfl
      · rfl
  rw [hpunteros]
  obtain ⟨rfl, -⟩ | ⟨tag, s₁, bls, -, -, hbloques, rfl, -⟩ := commit_pasos hop
  · exact h
  · refine forma_modificar (g := commitear bls) (f := f) (t := t) h (nameTag_commitear bls) ?_
      fun _ _ => rfl
    rw [listaFiles_guardarMetadata]
    exact listaFiles_modificarTag_congr (listaFiles_procesarBloques hbloques) f t _

theorem listaFiles_storageWriteBlock (md5 : Bytes → String) (sb : Superbloque) (s : Storage)
    (f t : String) (n : ℕ) (contenido : Bytes) :
    (storageWriteBlock md5 sb s f t n contenido).1.listaFiles = s.listaFiles := by
  unfold storageWriteBlock
  split
  · rfl
  · split
    · rfl
    · split_ifs
      · rfl
      · exact listaFiles_writeBloque md5 sb s f t _ contenido

theorem forma_delete (h : Forma s p) (f t : String) :
    Forma (operacionEliminarTag sb s f t) (rastroDelete p s f t).punteros := by
  unfold rastroDelete
  cases htag : buscarTag s f t with
  | none =>
    rw [delete_rechazado htag]
    exact h
  | some tag => exact forma_quitar h (listaFiles_eliminarTag sb htag)

theorem forma_paso {x : Solicitud} (h : Forma s p) (hop : paso md5 sb s x = .ok s') :
    Forma s' (soltar (rastro sb p s x)) := by
  change Forma s' (rastro sb p s x).punteros
  cases x with
  | create f t => exact forma_create h hop
  | truncate f t tamanio =>
    obtain ⟨c, hop⟩ := paso_truncate hop
    exact forma_truncate h hop
  | tag fo tgo f t =>
    rw [← Except.ok.inj hop]
    exact forma_tag h fo tgo f t
  | commit f t =>
    obtain ⟨c, hop⟩ := paso_commit hop
    exact forma_commit h hop
  | writeBlock f t n contenido =>
    rw [← Except.ok.inj hop]
    exact forma_congr h (listaFiles_storageWriteBlock md5 sb s f t n contenido)
  | readBlock f t n =>
    rw [← Except.ok.inj hop]
    exact h
  | flush f t =>
    rw [← Except.ok.inj hop]
    exact h
  | delete f t =>
    rw [← Except.ok.inj hop]
    exact forma_delete h f t

end Pasos

section Vivas

/-- No array that a lookup finds holds a freed string. -/
def Vivas (p : Punteros) : Prop := ∀ f t, ∀ a ∈ celdasDe p f t, a ∉ p.liberadas

/-- Addresses are handed out from `proxima` on. -/
structure Acotadas (p : Punteros) : Prop where
  celdas : ∀ f t, ∀ a ∈ celdasDe p f t, a < p.proxima
  liberadas : ∀ a ∈ p.liberadas, a < p.proxima

/-- The strings that the request frees are in no array that a lookup finds, but the one of
its own Tag. -/
def SueltaPropias (sb : Superbloque) (c : Vigilado) (x : Solicitud) : Prop :=
  ∀ a ∈ (rastro sb c.ghost c.state x).sueltas, ∀ f t, (f, t) ∉ nombrados x →
    a ∉ celdasDe c.ghost f t

/-- An address of an array that a lookup finds, or the next one, once it is handed out. -/
def Procede (p p' : Punteros) (a : ℕ) : Prop :=
  (∃ f t, a ∈ celdasDe p f t) ∨ a = p.proxima ∧ p.proxima < p'.proxima

/-- What a request may do to the arrays, when it is about the Tags of `objeto`. -/
structure Sigue (p : Punteros) (objeto : List (String × String)) (r : Rastro) : Prop where
  liberadas : r.punteros.liberadas = p.liberadas
  proxima : p.proxima ≤ r.punteros.proxima
  ajenos : ∀ f t, (f, t) ∉ objeto → celdasDe r.punteros f t = celdasDe p f t
  procede : ∀ f t, ∀ a ∈ celdasDe r.punteros f t, Procede p r.punteros a
  sueltas : ∀ a ∈ r.sueltas, Procede p r.punteros a
  vacia : r.sueltas ≠ [] → ∀ f t, (f, t) ∈ objeto → celdasDe r.punteros f t = []

section Celdas

theorem celdasDe_agregarCeldas_ne (p : Punteros) (h : rutaTag f' t' ≠ rutaTag f t)
    (celdas : List ℕ) : celdasDe (agregarCeldas p f t celdas) f' t' = celdasDe p f' t' := by
  rw [celdasDe_eq_headD, arreglosDe_agregarCeldas, if_neg h, List.append_nil, celdasDe_eq_headD]

theorem celdasDe_agregarCeldas_self (p : Punteros) (f t : String) (celdas : List ℕ) :
    celdasDe (agregarCeldas p f t celdas) f t = celdasDe p f t ∨
      celdasDe (agregarCeldas p f t celdas) f t = celdas := by
  rw [celdasDe_eq_headD, arreglosDe_agregarCeldas, if_pos rfl, celdasDe_eq_headD]
  cases arreglosDe p f t with
  | nil => exact Or.inr rfl
  | cons a as => exact Or.inl rfl

theorem celdasDe_fijarCeldas_ne (p : Punteros) (h : rutaTag f' t' ≠ rutaTag f t)
    (celdas : List ℕ) : celdasDe (fijarCeldas p f t celdas) f' t' = celdasDe p f' t' := by
  rw [celdasDe_eq_headD, arreglosDe_fijarCeldas_ne p h, celdasDe_eq_headD]

theorem mem_celdasDe_fijarCeldas {a : ℕ} (h : a ∈ celdasDe (fijarCeldas p f t celdas) f t) :
    a ∈ celdas := by
  rw [celdasDe_eq_headD, arreglosDe_fijarCeldas_self] at h
  cases harreglos : arreglosDe p f t with
  | nil =>
    rw [harreglos] at h
    exact absurd h List.not_mem_nil
  | cons b bs =>
    rw [harreglos] at h
    exact h

theorem celdasDe_quitarCeldas_ne (p : Punteros) (h : rutaTag f' t' ≠ rutaTag f t) :
    celdasDe (quitarCeldas p f t) f' t' = celdasDe p f' t' := by
  rw [celdasDe_eq_headD, arreglosDe_quitarCeldas_ne p h, celdasDe_eq_headD]

/-- A DELETE that exposes no entry exposes no array. -/
theorem celdasDe_quitarCeldas_self (h : Forma s p) (hgemelo : gemelo s f t = none) :
    celdasDe (quitarCeldas p f t) f t = [] := by
  have hself := congrArg List.tail (h f t)
  rw [gemelo_eq_head?, List.head?_eq_none_iff] at hgemelo
  rw [← List.map_tail, ← List.map_tail, hgemelo, List.map_nil, List.map_eq_nil_iff] at hself
  rw [celdasDe_eq_headD, arreglosDe_quitarCeldas_self, hself]
  rfl

end Celdas

section Seguir

variable {objeto : List (String × String)} {r : Rastro}

theorem sigue_sinRastro (p : Punteros) (objeto : List (String × String)) :
    Sigue p objeto (sinRastro p) where
  liberadas := rfl
  proxima := le_refl _
  ajenos := fun _ _ _ => rfl
  procede := fun f t _ ha => Or.inl ⟨f, t, ha⟩
  sueltas := fun _ ha => absurd ha List.not_mem_nil
  vacia := fun hne => absurd rfl hne

theorem ne_of_not_mem {f t f' t' : String} (h : (f', t') ∉ [(f, t)]) :
    rutaTag f' t' ≠ rutaTag f t := fun heq => h (List.mem_singleton.mpr heq)

theorem sigue_crecer (p : Punteros) (f t : String) (blocks : List String) :
    Sigue p [(f, t)] (rastroCrecer p f t blocks) := by
  unfold rastroCrecer
  dsimp only
  split_ifs with hcero
  · exact { sigue_sinRastro p [(f, t)] with sueltas := fun _ ha => absurd ha List.not_mem_nil }
  · constructor
    · rfl
    · exact Nat.le_succ _
    · exact fun f' t' hne => celdasDe_fijarCeldas_ne p (ne_of_not_mem hne) _
    · intro f' t' a ha
      by_cases hne : rutaTag f' t' = rutaTag f t
      · obtain ⟨rfl, rfl⟩ := Prod.mk.inj hne
        have hmem : a ∈ celdasDe p f' t' ++ [p.proxima] := mem_celdasDe_fijarCeldas ha
        rcases List.mem_append.mp hmem with hold | hnew
        · exact Or.inl ⟨f', t', hold⟩
        · exact Or.inr ⟨List.mem_singleton.mp hnew, Nat.lt_succ_self _⟩
      · have hajeno := celdasDe_fijarCeldas_ne p hne (celdasDe p f t ++ [p.proxima])
        exact Or.inl ⟨f', t', hajeno ▸ ha⟩
    · exact fun _ ha => absurd ha List.not_mem_nil
    · exact fun hne => absurd rfl hne

theorem sigue_terminar (h : Sigue p [(f, t)] r) (hr : r.sueltas = []) (s : Storage)
    (tamanio : ℤ) : Sigue p [(f, t)] (rastroTerminar r s f t tamanio) := by
  unfold rastroTerminar
  dsimp only
  split_ifs
  · constructor
    · exact h.liberadas
    · exact h.proxima
    · intro f' t' hne
      exact (celdasDe_fijarCeldas_ne _ (ne_of_not_mem hne) _).trans (h.ajenos f' t' hne)
    · intro f' t' a ha
      by_cases hne : rutaTag f' t' = rutaTag f t
      · obtain ⟨rfl, rfl⟩ := Prod.mk.inj hne
        exact absurd (mem_celdasDe_fijarCeldas ha) List.not_mem_nil
      · rw [celdasDe_fijarCeldas_ne _ hne] at ha
        exact h.procede f' t' a ha
    · exact h.procede f t
    · intro _ f' t' hmem
      obtain ⟨rfl, rfl⟩ := Prod.mk.inj (List.mem_singleton.mp hmem)
      apply List.eq_nil_iff_forall_not_mem.mpr
      exact fun a ha => absurd (mem_celdasDe_fijarCeldas ha) List.not_mem_nil
  · exact ⟨h.liberadas, h.proxima, h.ajenos, h.procede, h.sueltas, fun hne => absurd hr hne⟩

theorem sigue_truncate (p : Punteros) (s : Storage) (f t : String) (tamanio : ℤ) :
    Sigue p [(f, t)] (rastroTruncate sb p s f t tamanio) := by
  unfold rastroTruncate
  split
  · next tag s' c _ _ =>
    have hcrecer : ∀ crece : Prop, [Decidable crece] → Sigue p [(f, t)]
        (if crece then rastroCrecer p f t tag.metadata.blocksFisicosUsados else sinRastro p) ∧
        (if crece then rastroCrecer p f t tag.metadata.blocksFisicosUsados
          else sinRastro p).sueltas = [] := by
      intro crece _
      split_ifs
      · exact ⟨sigue_crecer p f t _, rfl⟩
      · exact ⟨sigue_sinRastro p _, rfl⟩
    obtain ⟨hsigue, hsueltas⟩ := hcrecer (largoDe s f t < largoDe s' f t)
    dsimp only
    by_cases hc : c = 0
    · rw [if_pos hc]
      exact sigue_terminar hsigue hsueltas s tamanio
    · rw [if_neg hc]
      exact hsigue
  · exact sigue_sinRastro p _

/-- A Tag entry more, with addresses that there are. -/
theorem sigue_agregar (hceldas : ∀ a ∈ celdas, ∃ f t, a ∈ celdasDe p f t) (leidas : List ℕ)
    (hobjeto : (f, t) ∈ objeto) : Sigue p objeto ⟨leidas, [], agregarCeldas p f t celdas⟩ := by
  constructor
  · rfl
  · exact le_refl _
  · intro f' t' hne
    apply celdasDe_agregarCeldas_ne
    intro heq
    obtain ⟨rfl, rfl⟩ := Prod.mk.inj heq
    exact hne hobjeto
  · intro f' t' a ha
    by_cases hne : rutaTag f' t' = rutaTag f t
    · obtain ⟨rfl, rfl⟩ := Prod.mk.inj hne
      rcases celdasDe_agregarCeldas_self p f' t' celdas with heq | heq
      · exact Or.inl ⟨f', t', heq ▸ ha⟩
      · exact Or.inl (hceldas a (heq ▸ ha))
    · exact Or.inl ⟨f', t', celdasDe_agregarCeldas_ne p hne celdas ▸ ha⟩
  · exact fun _ ha => absurd ha List.not_mem_nil
  · exact fun hne => absurd rfl hne

theorem sigue_delete (h : Forma s p) (hgemelo : gemelo s f t = none) :
    Sigue p [(f, t)] (rastroDelete p s f t) := by
  unfold rastroDelete
  split_ifs
  · exact sigue_sinRastro p _
  · constructor
    · rfl
    · exact le_refl _
    · exact fun f' t' hne => celdasDe_quitarCeldas_ne p (ne_of_not_mem hne)
    · intro f' t' a ha
      by_cases hne : rutaTag f' t' = rutaTag f t
      · obtain ⟨rfl, rfl⟩ := Prod.mk.inj hne
        rw [celdasDe_quitarCeldas_self h hgemelo] at ha
        exact absurd ha List.not_mem_nil
      · exact Or.inl ⟨f', t', celdasDe_quitarCeldas_ne p hne ▸ ha⟩
    · exact fun a ha => Or.inl ⟨f, t, ha⟩
    · intro _ f' t' hmem
      obtain ⟨rfl, rfl⟩ := Prod.mk.inj (List.mem_singleton.mp hmem)
      exact celdasDe_quitarCeldas_self h hgemelo

theorem sigue_rastro (h : Forma s p) {x : Solicitud}
    (hgemelo : ∀ f t, x = .delete f t → gemelo s f t = none) :
    Sigue p (nombrados x) (rastro sb p s x) := by
  cases x with
  | create f t =>
    change Sigue p [(f, t)] (rastroCreate p s f t)
    unfold rastroCreate
    split_ifs
    · exact sigue_sinRastro p _
    · exact sigue_agregar (fun _ ha => absurd ha List.not_mem_nil) [] (List.mem_singleton.mpr rfl)
  | truncate f t tamanio => exact sigue_truncate p s f t tamanio
  | tag fo tgo f t =>
    change Sigue p [(fo, tgo), (f, t)] (rastroTag p s fo tgo f t)
    unfold rastroTag
    split_ifs
    · exact sigue_sinRastro p _
    · refine sigue_agregar (fun a ha => ⟨fo, tgo, ha⟩) _ ?_
      exact List.mem_cons_of_mem _ (List.mem_singleton.mpr rfl)
  | commit f t =>
    change Sigue p [(f, t)] (rastroCommit p s f t)
    unfold rastroCommit
    split
    · exact sigue_sinRastro p _
    · split_ifs
      · exact sigue_sinRastro p _
      · have hnada := sigue_sinRastro p [(f, t)]
        exact ⟨rfl, hnada.proxima, hnada.ajenos, hnada.procede, hnada.sueltas, hnada.vacia⟩
  | writeBlock f t n contenido => exact sigue_sinRastro p _
  | readBlock f t n => exact sigue_sinRastro p _
  | flush f t => exact sigue_sinRastro p _
  | delete f t => exact sigue_delete h (hgemelo f t rfl)

end Seguir

/-- Freed strings and arrays stay below the next address. -/
theorem Acotadas.soltar (h : Acotadas p) {objeto : List (String × String)} {r : Rastro}
    (hr : Sigue p objeto r) : Acotadas (soltar r) := by
  have hprocede : ∀ a, Procede p r.punteros a → a < r.punteros.proxima := by
    rintro a (⟨f, t, ha⟩ | ⟨rfl, hlt⟩)
    · exact lt_of_lt_of_le (h.celdas f t a ha) hr.proxima
    · exact hlt
  constructor
  · exact fun f t a ha => hprocede a (hr.procede f t a ha)
  · intro a ha
    rcases List.mem_append.mp ha with hnew | hold
    · exact hprocede a (hr.sueltas a hnew)
    · rw [hr.liberadas] at hold
      exact lt_of_lt_of_le (h.liberadas a hold) hr.proxima

/-- From a state where no lookup finds a freed string, none does after the request just
when those it frees are only its own Tag's. -/
theorem vivas_soltar_iff {objeto : List (String × String)} {r : Rastro} (hac : Acotadas p)
    (hvivas : Vivas p) (hr : Sigue p objeto r) :
    Vivas (soltar r) ↔ ∀ a ∈ r.sueltas, ∀ f t, (f, t) ∉ objeto → a ∉ celdasDe p f t := by
  constructor
  · intro h a ha f t hne hmem
    apply h f t a
    · exact (hr.ajenos f t hne).symm ▸ hmem
    · exact List.mem_append_left _ ha
  · intro h f t a ha hlibre
    have ha : a ∈ celdasDe r.punteros f t := ha
    rcases List.mem_append.mp hlibre with hnew | hold
    · by_cases hmem : (f, t) ∈ objeto
      · rw [hr.vacia (List.ne_nil_of_mem hnew) f t hmem] at ha
        exact absurd ha List.not_mem_nil
      · rw [hr.ajenos f t hmem] at ha
        exact h a hnew f t hmem ha
    · rw [hr.liberadas] at hold
      obtain ⟨f', t', ha'⟩ | ⟨rfl, -⟩ := hr.procede f t a ha
      · exact hvivas f' t' a ha' hold
      · exact lt_irrefl _ (hac.liberadas _ hold)

/-- The arrays of a Storage that has just been started: nothing has been freed yet. -/
structure Levantados (s : Storage) (p : Punteros) : Prop where
  forma : Forma s p
  acotadas : Acotadas p
  liberadas : p.liberadas = []

theorem Levantados.vivas (h : Levantados s p) : Vivas p := by
  intro f t a _
  rw [h.liberadas]
  exact List.not_mem_nil

theorem levantados_inicio (sb : Superbloque) :
    Levantados (freshStart sb) (inicio sb).ghost := by
  have hceldas : ∀ f t, celdasDe (inicio sb).ghost f t =
      if rutaTag "initial_file" "BASE" = rutaTag f t then [0] else [] := by
    intro f t
    unfold celdasDe inicio
    simp only [first]
    split_ifs
    · rfl
    · rfl
  constructor
  · have hvacia : Forma (crearFile ⟨[], [], [], [], discoVacio⟩ "initial_file") ⟨[], [], 1⟩ := by
      intro f t
      rw [tagsDe_crearFile]
      rfl
    obtain ⟨mc, hmc⟩ := freshStart_eq sb
    have hlista : (freshStart sb).listaFiles =
        (agregarTag (crearFile ⟨[], [], [], [], discoVacio⟩ "initial_file") "initial_file"
          (tagInicial sb)).listaFiles := by
      rw [hmc]
      rfl
    exact forma_agregar hvacia (buscarFile_crearFile_self _ _) hlista rfl rfl
  · constructor
    · intro f t a ha
      rw [hceldas] at ha
      split_ifs at ha
      · rw [List.mem_singleton.mp ha]
        exact Nat.one_pos
      · exact absurd ha List.not_mem_nil
    · exact fun a ha => absurd ha List.not_mem_nil
  · rfl

end Vivas

end MasterOfFiles.StringLayouts
