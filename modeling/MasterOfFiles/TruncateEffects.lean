import Mathlib.Tactic.Ring
import MasterOfFiles.BlockZero

/-!
What TRUNCATE does from a state that meets the invariant. A turn of the growth
loop finds no bit, changes nothing, or links one free block; a turn of the
shrink loop drops the last logical block with its link. The rules at the end
carry a property through both loops.
-/
namespace MasterOfFiles.TruncateEffects

open KeyedLists ByteBuffers ConfigText BlockNames StorageState StorageFiles StorageOperations
open TagLookups BlockZero

variable {sb : Superbloque} {s : Storage} {f t : String}

theorem bit_of_libre {bitmap : List Bool} {k : ℕ} (h : bitmapEncontrarBloqueLibre bitmap = some k) :
    bitmap[k]? = some false := by
  obtain ⟨hk, hbit, _⟩ := List.findIdx?_eq_some_iff_getElem.mp h
  rw [List.getElem?_eq_getElem hk]
  simpa using hbit

/-- Marking a free bit and clearing it again leaves the bitmap as it was. -/
theorem marcar_liberar {bitmap : List Bool} {k : ℕ} (h : bitmap[k]? = some false) :
    bitmapMarcarBloqueLibre (bitmapMarcarBloqueOcupado bitmap k) k = bitmap := by
  obtain ⟨hk, hbit⟩ := List.getElem?_eq_some_iff.mp h
  unfold bitmapMarcarBloqueLibre bitmapMarcarBloqueOcupado
  rw [List.set_set, ← hbit, List.set_getElem_self]

/-- The Tag is found and is not committed, so TRUNCATE works on it. -/
def Abierto (s : Storage) (f t : String) : Prop :=
  ∃ tag, buscarTag s f t = some tag ∧ tag.metadata.estado ≠ .commited

theorem Abierto.visible (h : Abierto s f t) : (buscarTag s f t).isSome := by
  obtain ⟨tag, htag, _⟩ := h
  rw [htag]
  rfl

section Agrandar

/-- The growth loop is about to link the logical block `nroBloque` to block `k`. -/
structure Ampliable (sb : Superbloque) (s : Storage) (f t : String) (nroBloque : ℤ) (k : ℕ) :
    Prop where
  libre : bitmapEncontrarBloqueLibre s.bitmap = some k
  menor : k < cantBlock sb
  directorio : s.disco.tagDirs (rutaTag f t) = true
  sin_enlace : s.disco.links (rutaBlockLogico f t (crearNombreBloqueLogico nroBloque)) = none

def ampliar (s : Storage) (f t : String) (nroBloque : ℤ) (k : ℕ) : Storage :=
  let nombreBl := crearNombreBloqueLogico nroBloque
  sumarAsociados (modificarTag
    { s with
      bitmap := bitmapMarcarBloqueOcupado s.bitmap k
      disco := { s.disco with
        links := Function.update s.disco.links (rutaBlockLogico f t nombreBl)
          (some (nombreBloqueFisico k)) } }
    f t (agregarBloqueLogico nombreBl)) 0 1

theorem links_ampliar (s : Storage) (f t : String) (nroBloque : ℤ) (k : ℕ) :
    (ampliar s f t nroBloque k).disco.links = Function.update s.disco.links
      (rutaBlockLogico f t (crearNombreBloqueLogico nroBloque)) (some (nombreBloqueFisico k)) :=
  rfl

/-- A turn of the loop gives up just when no bit is free. -/
theorem agrandarUno_eq_none_iff (s : Storage) (f t : String) (nroBloque : ℤ) :
    agrandarUno s f t nroBloque = none ↔ bitmapEncontrarBloqueLibre s.bitmap = none := by
  unfold agrandarUno
  cases bitmapEncontrarBloqueLibre s.bitmap with
  | none => simp
  | some k =>
    dsimp only
    split <;> simp

theorem agrandarUno_of_ampliable (h : ArchivosCompletos sb s) {nroBloque : ℤ} {k : ℕ}
    (ha : Ampliable sb s f t nroBloque k) :
    agrandarUno s f t nroBloque = some (ampliar s f t nroBloque k) := by
  have harchivo : (s.disco.physicalBlocks (nombreBloqueFisico k)).isNone = false := by
    rw [Option.isNone_eq_false_iff]
    exact (h k).mpr ha.menor
  have hdir : s.disco.tagDirs (directorio (rutaBlockLogico f t
      (crearNombreBloqueLogico nroBloque))) = true := ha.directorio
  unfold agrandarUno
  simp only [ha.libre, Disco.link, nombreBloqueLibre_eq, harchivo, hdir, ha.sin_enlace]
  rfl

theorem agrandarUno_of_not_ampliable (h : ArchivosCompletos sb s) {nroBloque : ℤ} {k : ℕ}
    (hlibre : bitmapEncontrarBloqueLibre s.bitmap = some k)
    (hn : ¬ Ampliable sb s f t nroBloque k) :
    agrandarUno s f t nroBloque = some s := by
  have hlink : ∃ e, s.disco.link (nombreBloqueFisico k)
      (rutaBlockLogico f t (crearNombreBloqueLogico nroBloque)) = .error e := by
    unfold Disco.link
    split_ifs with hnoent hexist
    · exact ⟨_, rfl⟩
    · exact ⟨_, rfl⟩
    · rw [Bool.or_eq_true, not_or, Option.isNone_iff_eq_none, Bool.not_eq_true',
        Bool.not_eq_false] at hnoent
      refine absurd ⟨hlibre, ?_, hnoent.2, Option.not_isSome_iff_eq_none.mp hexist⟩ hn
      exact (h k).mp (Option.isSome_iff_ne_none.mpr hnoent.1)
  obtain ⟨e, he⟩ := hlink
  unfold agrandarUno
  simp only [hlibre, nombreBloqueLibre_eq, he, marcar_liberar (bit_of_libre hlibre)]

/-- A free block other than block0000 is taken and linked once. -/
theorem coherente_conEnlace (h : Coherente sb s) (r : RutaBlock) {k : ℕ}
    (hbit : s.bitmap[k]? = some false) (hk : k < cantBlock sb)
    (hvisible : (buscarTag s r.1 r.2.1).isSome) :
    Coherente sb { s with
      bitmap := bitmapMarcarBloqueOcupado s.bitmap k
      disco := { s.disco with
        links := Function.update s.disco.links r (some (nombreBloqueFisico k)) } } where
  tags_cero := h.tags_cero
  indice_cero := h.indice_cero
  nombres := h.nombres
  archivo := h.archivo
  archivo_nombre := h.archivo_nombre
  bit_cero := by
    have hne : k ≠ 0 := by
      rintro rfl
      rw [h.bit_cero] at hbit
      simp at hbit
    change (s.bitmap.set k true)[0]? = some true
    rw [List.getElem?_set_ne hne]
    exact h.bit_cero
  enlace_ocupado := by
    intro r' b hr'
    change Function.update s.disco.links r (some (nombreBloqueFisico k)) r' = some b at hr'
    have hlength : k < s.bitmap.length := (List.getElem?_eq_some_iff.mp hbit).1
    rcases eq_or_ne r' r with rfl | hne
    · rw [Function.update_self] at hr'
      refine ⟨k, hk, (Option.some.inj hr').symm, ?_⟩
      exact List.getElem?_set_self hlength
    · rw [Function.update_of_ne hne] at hr'
      obtain ⟨k', hk', hname, hbit'⟩ := h.enlace_ocupado r' b hr'
      refine ⟨k', hk', hname, ?_⟩
      change (s.bitmap.set k true)[k']? = some true
      rcases eq_or_ne k k' with rfl | hkk
      · exact List.getElem?_set_self hlength
      · rw [List.getElem?_set_ne hkk]
        exact hbit'
  enlace_unico := by
    have hfree : ∀ r', s.disco.links r' ≠ some (nombreBloqueFisico k) := by
      intro r' hr'
      obtain ⟨k', _, hname, hbit'⟩ := h.enlace_ocupado r' _ hr'
      rw [← nombreBloqueFisico_injective hname, hbit] at hbit'
      simp at hbit'
    intro r₁ r₂ b h₁ h₂ hb
    change Function.update s.disco.links r (some (nombreBloqueFisico k)) r₁ = some b at h₁
    change Function.update s.disco.links r (some (nombreBloqueFisico k)) r₂ = some b at h₂
    rcases eq_or_ne r₁ r with rfl | hne₁
    · rw [Function.update_self] at h₁
      rcases eq_or_ne r₂ r₁ with rfl | hne₂
      · rfl
      · rw [Function.update_of_ne hne₂, ← h₁] at h₂
        exact absurd h₂ (hfree r₂)
    · rw [Function.update_of_ne hne₁] at h₁
      rcases eq_or_ne r₂ r with rfl | hne₂
      · rw [Function.update_self] at h₂
        rw [← h₂] at h₁
        exact absurd h₁ (hfree r₁)
      · rw [Function.update_of_ne hne₂] at h₂
        exact h.enlace_unico r₁ r₂ b h₁ h₂ hb
  enlace_visible := by
    intro r' b hr'
    change Function.update s.disco.links r (some (nombreBloqueFisico k)) r' = some b at hr'
    rcases eq_or_ne r' r with rfl | hne
    · exact hvisible
    · rw [Function.update_of_ne hne] at hr'
      exact h.enlace_visible r' b hr'

theorem tagEnCero_agregarBloqueLogico {tag : Tag} (h : TagEnCero tag) (nombreBl : String) :
    TagEnCero (agregarBloqueLogico nombreBl tag) where
  asociados := by
    intro bl hbl
    rcases List.mem_append.mp hbl with hold | hnew
    · exact h.asociados bl hold
    · obtain rfl := List.mem_singleton.mp hnew
      rfl
  usados := by
    intro e he
    change e ∈ agregarUsado tag.metadata.blocksFisicosUsados "0" at he
    unfold agregarUsado at he
    split_ifs at he with hmem
    · exact h.usados e he
    · rcases List.mem_append.mp he with hold | hnew
      · exact h.usados e hold
      · exact List.mem_singleton.mp hnew

theorem coherente_ampliar (h : Coherente sb s) {nroBloque : ℤ} {k : ℕ}
    (ha : Ampliable sb s f t nroBloque k) (hvisible : (buscarTag s f t).isSome) :
    Coherente sb (ampliar s f t nroBloque k) := by
  have henlace := coherente_conEnlace h (rutaBlockLogico f t (crearNombreBloqueLogico nroBloque))
    (bit_of_libre ha.libre) ha.menor hvisible
  have htag := henlace.modificarTag f t (nameTag_agregarBloqueLogico _)
    fun tag _ hcero => tagEnCero_agregarBloqueLogico hcero (crearNombreBloqueLogico nroBloque)
  exact htag.sumarAsociados 0 1

theorem buscarTag_ampliar_self (s : Storage) (f t : String) (nroBloque : ℤ) (k : ℕ) :
    buscarTag (ampliar s f t nroBloque k) f t =
      (buscarTag s f t).map (agregarBloqueLogico (crearNombreBloqueLogico nroBloque)) :=
  buscarTag_modificarTag_self { s with bitmap := _, disco := _ } (nameTag_agregarBloqueLogico _) f t

theorem buscarTag_ampliar_ne {f' t' : String} (h : rutaTag f' t' ≠ rutaTag f t) (nroBloque : ℤ)
    (k : ℕ) : buscarTag (ampliar s f t nroBloque k) f' t' = buscarTag s f' t' :=
  buscarTag_modificarTag_ne { s with bitmap := _, disco := _ } (nameTag_agregarBloqueLogico _) h

theorem Abierto.ampliar (h : Abierto s f t) (nroBloque : ℤ) (k : ℕ) :
    Abierto (ampliar s f t nroBloque k) f t := by
  obtain ⟨tag, htag, habierto⟩ := h
  refine ⟨agregarBloqueLogico (crearNombreBloqueLogico nroBloque) tag, ?_, habierto⟩
  rw [buscarTag_ampliar_self, htag, Option.map_some]

/-- A property kept by every link the loop makes holds when the loop ends. -/
theorem agrandar_regla {Q : Storage → Prop} (h : Coherente sb s) (habierto : Abierto s f t)
    (hQ : Q s)
    (hstep : ∀ s nro k, Coherente sb s → Abierto s f t → Q s →
      Ampliable sb s f t nro k → Q (ampliar s f t nro k)) (n : ℕ) (nroBloque : ℤ) :
    Coherente sb (agrandar s f t nroBloque n).1 ∧ Abierto (agrandar s f t nroBloque n).1 f t ∧
      Q (agrandar s f t nroBloque n).1 := by
  induction n generalizing s nroBloque with
  | zero => exact ⟨h, habierto, hQ⟩
  | succ n ih =>
    unfold agrandar
    cases hlibre : bitmapEncontrarBloqueLibre s.bitmap with
    | none =>
      rw [(agrandarUno_eq_none_iff ..).mpr hlibre]
      exact ⟨h, habierto, hQ⟩
    | some k =>
      by_cases ha : Ampliable sb s f t nroBloque k
      · rw [agrandarUno_of_ampliable h.archivo_isSome_iff ha]
        exact ih (coherente_ampliar h ha habierto.visible) (habierto.ampliar nroBloque k)
          (hstep s nroBloque k h habierto hQ ha) (nroBloque + 1)
      · rw [agrandarUno_of_not_ampliable h.archivo_isSome_iff hlibre ha]
        exact ih h habierto hQ (nroBloque + 1)

/-- If no turn of the loop can link a block, the loop leaves the state alone. -/
theorem agrandar_of_not_ampliable (h : Coherente sb s) (n : ℕ) (nroBloque : ℤ)
    (hn : ∀ i < n, ∀ k, ¬ Ampliable sb s f t (nroBloque + i) k) :
    (agrandar s f t nroBloque n).1 = s := by
  induction n generalizing nroBloque with
  | zero => rfl
  | succ n ih =>
    have hrest : (agrandar s f t (nroBloque + 1) n).1 = s := by
      refine ih (nroBloque + 1) fun i hi k ha => hn (i + 1) (by omega) k ?_
      rw [show nroBloque + ((i + 1 : ℕ) : ℤ) = nroBloque + 1 + i by push_cast; ring]
      exact ha
    unfold agrandar
    cases hlibre : bitmapEncontrarBloqueLibre s.bitmap with
    | none =>
      rw [(agrandarUno_eq_none_iff ..).mpr hlibre]
    | some k =>
      have hfirst : ¬ Ampliable sb s f t nroBloque k := fun ha =>
        hn 0 (by omega) k (by simpa using ha)
      rw [agrandarUno_of_not_ampliable h.archivo_isSome_iff hlibre hfirst]
      exact hrest

/-- If some turn can link a block, the loop makes at least one link, and what a
link establishes and later links keep holds when the loop ends. -/
theorem agrandar_of_ampliable {Q : Storage → Prop} (h : Coherente sb s)
    (habierto : Abierto s f t)
    (hlink : ∀ nro k, Ampliable sb s f t nro k → Q (ampliar s f t nro k))
    (hstep : ∀ s nro k, Coherente sb s → Abierto s f t → Q s →
      Ampliable sb s f t nro k → Q (ampliar s f t nro k)) (n : ℕ) (nroBloque : ℤ)
    (hn : ∃ i < n, ∃ k, Ampliable sb s f t (nroBloque + i) k) :
    Q (agrandar s f t nroBloque n).1 := by
  induction n generalizing nroBloque with
  | zero =>
    obtain ⟨i, hi, _⟩ := hn
    omega
  | succ n ih =>
    obtain ⟨i, hi, k, ha⟩ := hn
    unfold agrandar
    by_cases hfirst : Ampliable sb s f t nroBloque k
    · rw [agrandarUno_of_ampliable h.archivo_isSome_iff hfirst]
      exact (agrandar_regla (coherente_ampliar h hfirst habierto.visible)
        (habierto.ampliar nroBloque k) (hlink nroBloque k hfirst) hstep n (nroBloque + 1)).2.2
    · rw [agrandarUno_of_not_ampliable h.archivo_isSome_iff ha.libre hfirst]
      rcases i with _ | i
      · exact absurd (by simpa using ha) hfirst
      · refine ih (nroBloque + 1) ⟨i, by omega, k, ?_⟩
        rw [show nroBloque + 1 + (i : ℤ) = nroBloque + ((i + 1 : ℕ) : ℤ) by push_cast; ring]
        exact ha

end Agrandar

section Achicar

/-- The shrink loop drops the last logical block of the Tag. -/
def reducir (s : Storage) (f t : String) : Storage :=
  match (buscarTag s f t).bind fun tag => tag.listaBlockLogicos.getLast? with
  | none => s
  | some bl =>
    sumarAsociados
      { modificarTag s f t quitarUltimo with
        disco := s.disco.unlink (rutaBlockLogico f t bl.nombreBlock) } 0 (-1)

def reducirVeces (s : Storage) (f t : String) : ℕ → Storage
  | 0 => s
  | n + 1 => reducirVeces (reducir s f t) f t n

theorem tagEnCero_quitarUltimo {tag : Tag} (h : TagEnCero tag) :
    TagEnCero (quitarUltimo tag) where
  asociados := fun bl hbl => h.asociados bl (List.dropLast_subset _ hbl)
  usados := h.usados

theorem coherente_quitarUltimo (h : Coherente sb s) (f t : String) :
    Coherente sb (modificarTag s f t quitarUltimo) :=
  h.modificarTag f t nameTag_quitarUltimo fun _ _ hcero => tagEnCero_quitarUltimo hcero

theorem coherente_reducir (h : Coherente sb s) (f t : String) : Coherente sb (reducir s f t) := by
  unfold TruncateEffects.reducir
  split
  · exact h
  · next bl _ =>
    refine Coherente.sumarAsociados ?_ 0 (-1)
    refine (coherente_quitarUltimo h f t).conEnlaces ?_
    intro r b hr
    change Function.update s.disco.links (rutaBlockLogico f t bl.nombreBlock) none r = some b at hr
    rcases eq_or_ne r (rutaBlockLogico f t bl.nombreBlock) with rfl | hne
    · simp at hr
    · rw [Function.update_of_ne hne] at hr
      exact Or.inl hr

/-- The shrink loop never takes the branch that frees a block. -/
theorem achicarUno_eq (h : Coherente sb s) (f t : String) :
    achicarUno s f t = .ok (reducir s f t) := by
  unfold achicarUno TruncateEffects.reducir
  cases hlast : (buscarTag s f t).bind fun tag => tag.listaBlockLogicos.getLast? with
  | none => rfl
  | some bl =>
    obtain ⟨tag, htag, hbl⟩ := Option.bind_eq_some_iff.mp hlast
    have hasoc : bl.bloqueFisicoAsociado = bloqueFisicoInicial :=
      (h.tag_cero htag).asociados bl (List.mem_of_getLast? hbl)
    have hindex : buscarIndexBlockFisico (modificarTag s f t quitarUltimo)
        bl.bloqueFisicoAsociado = some 0 := by
      rw [hasoc]
      exact (coherente_quitarUltimo h f t).index_cero
    simp only [hindex]
    rw [if_neg (fun hfree => hfree.2 rfl)]
    rfl

theorem achicar_eq (h : Coherente sb s) (f t : String) (n : ℕ) :
    achicar s f t n = .ok (reducirVeces s f t n) := by
  induction n generalizing s with
  | zero => rfl
  | succ n ih =>
    unfold achicar
    rw [achicarUno_eq h f t]
    exact ih (coherente_reducir h f t)

/-- What a shrink step does to a Tag whose last logical block is `bl`. -/
theorem reducir_eq {tag : Tag} {bl : BlockLogico} (htag : buscarTag s f t = some tag)
    (hlast : tag.listaBlockLogicos.getLast? = some bl) :
    reducir s f t = sumarAsociados
      (cambiarDisco (modificarTag s f t quitarUltimo)
        (s.disco.unlink (rutaBlockLogico f t bl.nombreBlock))) 0 (-1) := by
  unfold reducir
  rw [htag, Option.bind_some, hlast]
  rfl

theorem reducir_vacio {tag : Tag} (htag : buscarTag s f t = some tag)
    (hlast : tag.listaBlockLogicos.getLast? = none) : reducir s f t = s := by
  unfold reducir
  rw [htag, Option.bind_some, hlast]

theorem buscarTag_reducir_self (s : Storage) (f t : String) :
    buscarTag (reducir s f t) f t = (buscarTag s f t).map quitarUltimo := by
  cases htag : buscarTag s f t with
  | none =>
    unfold reducir
    rw [htag]
    exact htag
  | some tag =>
    cases hlast : tag.listaBlockLogicos.getLast? with
    | none =>
      have hnil : quitarUltimo tag = tag := by
        obtain ⟨nombre, metadata, bloques⟩ := tag
        obtain rfl : bloques = [] := List.getLast?_eq_none_iff.mp hlast
        rfl
      rw [reducir_vacio htag hlast, htag, Option.map_some, hnil]
    | some bl =>
      rw [reducir_eq htag hlast, ← htag]
      exact buscarTag_modificarTag_self s nameTag_quitarUltimo f t

theorem buscarTag_reducir_ne (s : Storage) {f' t' : String} (h : rutaTag f' t' ≠ rutaTag f t) :
    buscarTag (reducir s f t) f' t' = buscarTag s f' t' := by
  unfold reducir
  split
  · rfl
  · exact buscarTag_modificarTag_ne s nameTag_quitarUltimo h

theorem Abierto.reducir (h : Abierto s f t) : Abierto (reducir s f t) f t := by
  obtain ⟨tag, htag, habierto⟩ := h
  refine ⟨quitarUltimo tag, ?_, habierto⟩
  rw [buscarTag_reducir_self, htag, Option.map_some]

/-- A property kept by every shrink step holds when the loop ends. -/
theorem reducirVeces_regla {Q : Storage → Prop} (h : Coherente sb s) (habierto : Abierto s f t)
    (hQ : Q s) (hstep : ∀ s, Coherente sb s → Abierto s f t → Q s → Q (reducir s f t)) (n : ℕ) :
    Coherente sb (reducirVeces s f t n) ∧ Abierto (reducirVeces s f t n) f t ∧
      Q (reducirVeces s f t n) := by
  induction n generalizing s with
  | zero => exact ⟨h, habierto, hQ⟩
  | succ n ih => exact ih (coherente_reducir h f t) habierto.reducir (hstep s h habierto hQ)

theorem bitmap_reducirVeces (s : Storage) (f t : String) (n : ℕ) :
    (reducirVeces s f t n).bitmap = s.bitmap := by
  have hstep : ∀ s : Storage, (reducir s f t).bitmap = s.bitmap := by
    intro s
    unfold reducir
    split <;> rfl
  induction n generalizing s with
  | zero => rfl
  | succ n ih => exact (ih (reducir s f t)).trans (hstep s)

theorem drop_concat_succ {α : Type*} (xs : List α) (x : α) (n : ℕ) :
    (xs ++ [x]).drop ((xs ++ [x]).length - (n + 1)) = xs.drop (xs.length - n) ++ [x] := by
  have hlength : (xs ++ [x]).length - (n + 1) = xs.length - n := by
    rw [List.length_append, List.length_singleton]
    omega
  rw [hlength, List.drop_append_of_le_length (by omega)]

/-- Shrinking unlinks the last blocks of the list. -/
theorem links_reducirVeces {tag : Tag} (htag : buscarTag s f t = some tag) (n : ℕ)
    (r : RutaBlock) :
    ((∃ bl ∈ tag.listaBlockLogicos.drop (tag.listaBlockLogicos.length - n),
        r = rutaBlockLogico f t bl.nombreBlock) →
      (reducirVeces s f t n).disco.links r = none) ∧
    ((¬ ∃ bl ∈ tag.listaBlockLogicos.drop (tag.listaBlockLogicos.length - n),
        r = rutaBlockLogico f t bl.nombreBlock) →
      (reducirVeces s f t n).disco.links r = s.disco.links r) := by
  induction n generalizing s tag with
  | zero => simp [reducirVeces]
  | succ n ih =>
    cases hlast : tag.listaBlockLogicos.getLast? with
    | none =>
      have hnil : tag.listaBlockLogicos = [] := List.getLast?_eq_none_iff.mp hlast
      have htail := ih htag
      rw [hnil, List.length_nil, Nat.zero_sub] at htail ⊢
      unfold reducirVeces
      rw [reducir_vacio htag hlast]
      exact htail
    | some bl =>
      obtain ⟨bls, hbls⟩ := List.getLast?_eq_some_iff.mp hlast
      have htag' : buscarTag (reducir s f t) f t = some (quitarUltimo tag) := by
        rw [buscarTag_reducir_self, htag, Option.map_some]
      have hlinks : (reducir s f t).disco.links r =
          Function.update s.disco.links (rutaBlockLogico f t bl.nombreBlock) none r := by
        rw [reducir_eq htag hlast]
        rfl
      have hlista : (quitarUltimo tag).listaBlockLogicos = bls := by
        rw [quitarUltimo, hbls, List.dropLast_concat]
      obtain ⟨hquita, hqueda⟩ := ih htag'
      rw [hlista] at hquita hqueda
      have hdrop : tag.listaBlockLogicos.drop (tag.listaBlockLogicos.length - (n + 1)) =
          bls.drop (bls.length - n) ++ [bl] := by
        rw [hbls, drop_concat_succ]
      rw [hdrop]
      constructor
      · rintro ⟨bl', hbl', rfl⟩
        by_cases hantes : ∃ bl'' ∈ bls.drop (bls.length - n),
            rutaBlockLogico f t bl'.nombreBlock = rutaBlockLogico f t bl''.nombreBlock
        · exact hquita hantes
        · rcases List.mem_append.mp hbl' with hbl' | hbl'
          · exact absurd ⟨bl', hbl', rfl⟩ hantes
          · obtain rfl := List.mem_singleton.mp hbl'
            exact (hqueda hantes).trans (hlinks.trans (Function.update_self ..))
      · intro hn
        have hantes : ¬ ∃ bl'' ∈ bls.drop (bls.length - n),
            r = rutaBlockLogico f t bl''.nombreBlock := by
          rintro ⟨bl'', hbl'', rfl⟩
          exact hn ⟨bl'', List.mem_append_left _ hbl'', rfl⟩
        have hne : r ≠ rutaBlockLogico f t bl.nombreBlock := by
          rintro rfl
          exact hn ⟨bl, List.mem_append_right _ (List.mem_singleton.mpr rfl), rfl⟩
        exact (hqueda hantes).trans (hlinks.trans (Function.update_of_ne hne ..))

end Achicar

section Truncate

theorem guardarMetadata_eq (s : Storage) (f t : String) :
    ∃ mc, guardarMetadata s f t = { s with disco := { s.disco with metadataConfig := mc } } := by
  unfold guardarMetadata
  cases buscarTag s f t with
  | none => exact ⟨s.disco.metadataConfig, rfl⟩
  | some tag =>
    obtain ⟨mc, hmc⟩ := actualizarMetadata_eq s.disco (rutaTag f t) tag.metadata
    exact ⟨mc, by simp only [hmc]⟩

theorem tagEnCero_fijarTamanio {tag : Tag} (h : TagEnCero tag) (tamanio : ℤ) :
    TagEnCero (fijarTamanio tamanio tag) where
  asociados := h.asociados
  usados := by
    intro e he
    change e ∈ (if tamanio = 0 then [] else tag.metadata.blocksFisicosUsados) at he
    split_ifs at he with hzero
    · exact absurd he List.not_mem_nil
    · exact h.usados e he

/-- Closing a TRUNCATE changes the Tag's metadata and its file. -/
theorem terminarTruncate_eq (s : Storage) (f t : String) (tamanio : ℤ) :
    ∃ mc, terminarTruncate s f t tamanio = cambiarDisco
      (modificarTag s f t (fijarTamanio tamanio)) { s.disco with metadataConfig := mc } :=
  guardarMetadata_eq (modificarTag s f t (fijarTamanio tamanio)) f t

theorem buscarTag_terminarTruncate_self (s : Storage) (f t : String) (tamanio : ℤ) :
    buscarTag (terminarTruncate s f t tamanio) f t =
      (buscarTag s f t).map (fijarTamanio tamanio) := by
  obtain ⟨mc, hmc⟩ := terminarTruncate_eq s f t tamanio
  rw [hmc]
  exact buscarTag_modificarTag_self s (nameTag_fijarTamanio tamanio) f t

theorem coherente_terminarTruncate (h : Coherente sb s) (f t : String) (tamanio : ℤ) :
    Coherente sb (terminarTruncate s f t tamanio) := by
  have htag := h.modificarTag f t (nameTag_fijarTamanio tamanio)
    fun tag _ hcero => tagEnCero_fijarTamanio hcero tamanio
  obtain ⟨mc, hmc⟩ := terminarTruncate_eq s f t tamanio
  rw [hmc]
  exact htag.conDisco rfl rfl

/-- TRUNCATE accepts the request. -/
structure Truncable (sb : Superbloque) (s : Storage) (f t : String) (tamanio : ℤ) (tag : Tag) :
    Prop where
  multiplo : toUint32 tamanio % sb.blockSize = 0
  existe : buscarTag s f t = some tag
  wip : tag.metadata.estado ≠ .commited

theorem Truncable.unico {tamanio : ℤ} {tag tag' : Tag} (h : Truncable sb s f t tamanio tag)
    (h' : Truncable sb s f t tamanio tag') : tag' = tag :=
  Option.some.inj (h'.existe.symm.trans h.existe)

theorem Truncable.abierto {tamanio : ℤ} {tag : Tag} (h : Truncable sb s f t tamanio tag) :
    Abierto s f t := ⟨tag, h.existe, h.wip⟩

def bloquesQueAgrega (sb : Superbloque) (tag : Tag) (tamanio : ℤ) : ℕ :=
  (cantidadBloques sb tamanio - cantidadBloques sb tag.metadata.tamanioFile).toNat

def bloquesQueLibera (sb : Superbloque) (tag : Tag) (tamanio : ℤ) : ℕ :=
  (cantidadBloques sb tag.metadata.tamanioFile - cantidadBloques sb tamanio).toNat

/-- The state when the growth loop ends. -/
def agrandado (sb : Superbloque) (s : Storage) (f t : String) (tag : Tag) (tamanio : ℤ) : Storage :=
  (agrandar s f t (cantidadBloques sb tag.metadata.tamanioFile)
    (bloquesQueAgrega sb tag tamanio)).1

theorem truncate_rechazado {tamanio : ℤ} (hn : ∀ tag, ¬ Truncable sb s f t tamanio tag) :
    ∃ c, operacionTruncateFile sb s f t tamanio = .ok (s, c) := by
  unfold operacionTruncateFile
  by_cases hmul : toUint32 tamanio % sb.blockSize = 0
  · rw [if_neg (not_not.mpr hmul)]
    cases htag : buscarTag s f t with
    | none => exact ⟨1, rfl⟩
    | some tag =>
      have hestado : tag.metadata.estado = .commited := by
        by_contra habierto
        exact hn tag ⟨hmul, htag, habierto⟩
      exact ⟨-1, by simp only [hestado, if_true]⟩
  · exact ⟨-1, if_pos hmul⟩

theorem truncate_agranda {tamanio : ℤ} {tag : Tag} (ht : Truncable sb s f t tamanio tag)
    (hlt : cantidadBloques sb tag.metadata.tamanioFile < cantidadBloques sb tamanio) :
    ∃ s' c, operacionTruncateFile sb s f t tamanio = .ok (s', c) ∧
      (s' = agrandado sb s f t tag tamanio ∨
        s' = terminarTruncate (agrandado sb s f t tag tamanio) f t tamanio) := by
  unfold operacionTruncateFile agrandado bloquesQueAgrega
  rw [if_neg (not_not.mpr ht.multiplo), ht.existe]
  simp only [if_neg ht.wip, if_pos hlt]
  rcases hloop : agrandar s f t (cantidadBloques sb tag.metadata.tamanioFile)
      (cantidadBloques sb tamanio - cantidadBloques sb tag.metadata.tamanioFile).toNat
    with ⟨s', _ | _⟩
  · exact ⟨s', -1, rfl, Or.inl rfl⟩
  · exact ⟨_, 0, rfl, Or.inr rfl⟩

theorem truncate_achica (h : Coherente sb s) {tamanio : ℤ} {tag : Tag}
    (ht : Truncable sb s f t tamanio tag)
    (hle : cantidadBloques sb tamanio ≤ cantidadBloques sb tag.metadata.tamanioFile) :
    operacionTruncateFile sb s f t tamanio = .ok
      (terminarTruncate (reducirVeces s f t (bloquesQueLibera sb tag tamanio)) f t tamanio, 0) := by
  unfold operacionTruncateFile bloquesQueLibera
  rw [if_neg (not_not.mpr ht.multiplo), ht.existe]
  simp only [if_neg ht.wip, if_neg (not_lt.mpr hle), achicar_eq h]

/-- A TRUNCATE is rejected, or runs one of the two loops. -/
theorem truncate_casos (h : Coherente sb s) {tamanio c : ℤ} {s' : Storage}
    (hop : operacionTruncateFile sb s f t tamanio = .ok (s', c)) :
    (s' = s ∧ ∀ tag, ¬ Truncable sb s f t tamanio tag) ∨
    ∃ tag, Truncable sb s f t tamanio tag ∧
      (cantidadBloques sb tag.metadata.tamanioFile < cantidadBloques sb tamanio ∧
          (s' = agrandado sb s f t tag tamanio ∨
            s' = terminarTruncate (agrandado sb s f t tag tamanio) f t tamanio) ∨
        cantidadBloques sb tamanio ≤ cantidadBloques sb tag.metadata.tamanioFile ∧
          s' = terminarTruncate (reducirVeces s f t (bloquesQueLibera sb tag tamanio)) f t
            tamanio) := by
  by_cases ht : ∃ tag, Truncable sb s f t tamanio tag
  · obtain ⟨tag, ht⟩ := ht
    refine Or.inr ⟨tag, ht, ?_⟩
    rcases lt_or_ge (cantidadBloques sb tag.metadata.tamanioFile) (cantidadBloques sb tamanio)
      with hlt | hle
    · obtain ⟨s₁, c₁, hop₁, hs₁⟩ := truncate_agranda ht hlt
      rw [hop] at hop₁
      obtain ⟨rfl, -⟩ := Prod.mk.inj (Except.ok.inj hop₁)
      exact Or.inl ⟨hlt, hs₁⟩
    · rw [truncate_achica h ht hle] at hop
      exact Or.inr ⟨hle, (Prod.mk.inj (Except.ok.inj hop)).1.symm⟩
  · obtain ⟨c₁, hop₁⟩ := truncate_rechazado (fun tag htag => ht ⟨tag, htag⟩)
    rw [hop] at hop₁
    exact Or.inl ⟨(Prod.mk.inj (Except.ok.inj hop₁)).1, fun tag htag => ht ⟨tag, htag⟩⟩

/-- A property kept by a growth link, by a shrink step and by the closing
update of the metadata holds after a TRUNCATE. -/
theorem truncate_regla {Q : Storage → Prop} (h : Coherente sb s) {tamanio : ℤ} (hQ : Q s)
    (hampliar : ∀ s nro k, Coherente sb s → Abierto s f t → Q s →
      Ampliable sb s f t nro k → Q (ampliar s f t nro k))
    (hreducir : ∀ s, Coherente sb s → Abierto s f t → Q s → Q (reducir s f t))
    (hterminar : ∀ s, Coherente sb s → Abierto s f t → Q s → Q (terminarTruncate s f t tamanio))
    {s' : Storage} {c : ℤ} (hop : operacionTruncateFile sb s f t tamanio = .ok (s', c)) :
    Coherente sb s' ∧ Q s' := by
  rcases truncate_casos h hop with ⟨rfl, _⟩ | ⟨tag, ht, ⟨_, hs'⟩ | ⟨_, rfl⟩⟩
  · exact ⟨h, hQ⟩
  · obtain ⟨hcoh, habierto, hend⟩ := agrandar_regla h ht.abierto hQ hampliar
      (bloquesQueAgrega sb tag tamanio) (cantidadBloques sb tag.metadata.tamanioFile)
    rcases hs' with rfl | rfl
    · exact ⟨hcoh, hend⟩
    · exact ⟨coherente_terminarTruncate hcoh f t tamanio, hterminar _ hcoh habierto hend⟩
  · obtain ⟨hcoh, habierto, hend⟩ := reducirVeces_regla h ht.abierto hQ hreducir
      (bloquesQueLibera sb tag tamanio)
    exact ⟨coherente_terminarTruncate hcoh f t tamanio, hterminar _ hcoh habierto hend⟩

end Truncate

end MasterOfFiles.TruncateEffects
