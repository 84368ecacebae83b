import MasterOfFiles.TruncateEffects

/-!
The outcome of TRUNCATE: the one Tag entry it changes, how many blocks the growth
loop links before it ends, and the code it returns. The loop links every block it
was asked for just when there are as many free bits of real blocks and no path in
the way; otherwise turns are skipped or it stops for want of a bit.
-/
namespace MasterOfFiles.TruncateOutcomes

open KeyedLists BlockNames StorageState StorageFiles StorageOperations
open TagLookups BlockZero TruncateEffects

variable {sb : Superbloque} {s s' : Storage} {f t : String}

section Entradas

/-- What the growth loop does to the Tag when it links blocks of these names. -/
def agregarBloques (nombres : List String) (tag : Tag) : Tag :=
  nombres.foldl (fun tag nombreBl => agregarBloqueLogico nombreBl tag) tag

/-- What the shrink loop does to the Tag. -/
def quitarBloques (n : ℕ) (tag : Tag) : Tag :=
  { tag with listaBlockLogicos := tag.listaBlockLogicos.take (tag.listaBlockLogicos.length - n) }

@[simp] theorem nameTag_agregarBloques (nombres : List String) (tag : Tag) :
    (agregarBloques nombres tag).nameTag = tag.nameTag := by
  induction nombres generalizing tag with
  | nil => rfl
  | cons nombre nombres ih => exact ih (agregarBloqueLogico nombre tag)

@[simp] theorem tamanioFile_agregarBloques (nombres : List String) (tag : Tag) :
    (agregarBloques nombres tag).metadata.tamanioFile = tag.metadata.tamanioFile := by
  induction nombres generalizing tag with
  | nil => rfl
  | cons nombre nombres ih => exact ih (agregarBloqueLogico nombre tag)

@[simp] theorem listaBlockLogicos_agregarBloques (nombres : List String) (tag : Tag) :
    (agregarBloques nombres tag).listaBlockLogicos =
      tag.listaBlockLogicos ++ nombres.map fun nombre => ⟨nombre, bloqueFisicoInicial⟩ := by
  induction nombres generalizing tag with
  | nil => simp [agregarBloques]
  | cons nombre nombres ih =>
    have htail := ih (agregarBloqueLogico nombre tag)
    rw [agregarBloqueLogico, List.append_assoc] at htail
    exact htail

@[simp] theorem nameTag_quitarBloques (n : ℕ) (tag : Tag) :
    (quitarBloques n tag).nameTag = tag.nameTag := rfl

theorem quitarBloques_quitarUltimo (n : ℕ) :
    quitarBloques n ∘ quitarUltimo = quitarBloques (n + 1) := by
  funext tag
  have hmin : min (tag.listaBlockLogicos.length - 1 - n) (tag.listaBlockLogicos.length - 1) =
      tag.listaBlockLogicos.length - (n + 1) := by omega
  unfold quitarBloques
  simp only [Function.comp, quitarUltimo, List.length_dropLast]
  rw [List.dropLast_eq_take, List.take_take, hmin]

theorem listaFiles_reducir (s : Storage) (f t : String) :
    (reducir s f t).listaFiles = (modificarTag s f t quitarUltimo).listaFiles := by
  cases hlast : (buscarTag s f t).bind fun tag => tag.listaBlockLogicos.getLast? with
  | some bl =>
    unfold reducir
    rw [hlast]
    rfl
  | none =>
    have hself : modificarTag s f t quitarUltimo = s := by
      refine modificarTag_eq_self s fun tag htag => ?_
      rw [htag, Option.bind_some, List.getLast?_eq_none_iff] at hlast
      unfold quitarUltimo
      rw [hlast, List.dropLast_nil, ← hlast]
    unfold reducir
    rw [hlast, hself]

theorem listaFiles_modificarTag_congr (h : s'.listaFiles = s.listaFiles) (f t : String)
    (g : Tag → Tag) : (modificarTag s' f t g).listaFiles = (modificarTag s f t g).listaFiles := by
  unfold modificarTag modificarTags
  rw [h]

/-- A change of the Tag entry, and then another. -/
theorem listaFiles_comp {s₁ s₂ : Storage} {g g' : Tag → Tag}
    (hg : ∀ tag, (g tag).nameTag = tag.nameTag)
    (h : s₁.listaFiles = (modificarTag s f t g).listaFiles)
    (h' : s₂.listaFiles = (modificarTag s₁ f t g').listaFiles) :
    s₂.listaFiles = (modificarTag s f t (g' ∘ g)).listaFiles := by
  rw [h', listaFiles_modificarTag_congr h, modificarTag_modificarTag s hg]

theorem listaFiles_reducirVeces (s : Storage) (f t : String) (n : ℕ) :
    (reducirVeces s f t n).listaFiles = (modificarTag s f t (quitarBloques n)).listaFiles := by
  induction n generalizing s with
  | zero =>
    have hself : modificarTag s f t (quitarBloques 0) = s := by
      refine modificarTag_eq_self s fun tag _ => ?_
      unfold quitarBloques
      rw [Nat.sub_zero, List.take_length]
    rw [hself]
    rfl
  | succ n ih =>
    rw [← quitarBloques_quitarUltimo]
    exact listaFiles_comp nameTag_quitarUltimo (listaFiles_reducir s f t) (ih (reducir s f t))

theorem listaFiles_terminarTruncate (s : Storage) (f t : String) (tamanio : ℤ) :
    (terminarTruncate s f t tamanio).listaFiles =
      (modificarTag s f t (fijarTamanio tamanio)).listaFiles := by
  obtain ⟨mc, hmc⟩ := terminarTruncate_eq s f t tamanio
  rw [hmc]
  rfl

theorem listaFiles_ampliar (s : Storage) (f t : String) (nro : ℤ) (k : ℕ) :
    (ampliar s f t nro k).listaFiles =
      (modificarTag s f t (agregarBloques [crearNombreBloqueLogico nro])).listaFiles := rfl

end Entradas

section Bucle

/-- There is a free bit of a real block for each of the `m` names from `nro` on,
and nothing keeps them from being linked. -/
structure Amplia (sb : Superbloque) (s : Storage) (f t : String) (nro : ℤ) (m : ℕ) : Prop where
  libres : m ≤ (s.bitmap.take (cantBlock sb)).count false
  directorio : 0 < m → s.disco.tagDirs (rutaTag f t) = true
  sin_enlaces : ∀ i < m,
    s.disco.links (rutaBlockLogico f t (crearNombreBloqueLogico (nro + i))) = none

theorem count_ocupar {bitmap : List Bool} {k cant : ℕ} (hbit : bitmap[k]? = some false)
    (hk : k < cant) : ((bitmapMarcarBloqueOcupado bitmap k).take cant).count false + 1 =
      (bitmap.take cant).count false := by
  obtain ⟨hlength, hget⟩ := List.getElem?_eq_some_iff.mp hbit
  have hmem : false ∈ bitmap.take cant := by
    rw [← hget]
    exact List.mem_take_iff_getElem.mpr ⟨k, by omega, rfl⟩
  have hpos := List.count_pos_iff.mpr hmem
  unfold bitmapMarcarBloqueOcupado
  rw [List.take_set, List.count_set (by rw [List.length_take]; omega), List.getElem_take, hget]
  simp only [beq_self_eq_true, if_true]
  simp only [show (true == false) = false from rfl, Bool.false_eq_true, if_false]
  omega

theorem libre_of_count {bitmap : List Bool} {cant : ℕ} (h : 0 < (bitmap.take cant).count false) :
    ∃ k < cant, bitmapEncontrarBloqueLibre bitmap = some k := by
  obtain ⟨i, hi, hget⟩ := List.mem_take_iff_getElem.mp (List.count_pos_iff.mp h)
  cases hlibre : bitmapEncontrarBloqueLibre bitmap with
  | none =>
    have hall := List.findIdx?_eq_none_iff.mp hlibre bitmap[i] (List.getElem_mem _)
    simp [hget] at hall
  | some k =>
    refine ⟨k, ?_, rfl⟩
    obtain ⟨_, _, hmin⟩ := List.findIdx?_eq_some_iff_getElem.mp hlibre
    have hle : k ≤ i := by
      by_contra hlt
      have hocupado := hmin i (by omega)
      simp [hget] at hocupado
    omega

/-- A turn that links a block spends one of the free bits. -/
theorem amplia_succ {nro : ℤ} {k m : ℕ} (ha : Ampliable sb s f t nro k)
    (hresto : Amplia sb (ampliar s f t nro k) f t (nro + 1) m) : Amplia sb s f t nro (m + 1) where
  libres := by
    have hcount : m ≤ ((bitmapMarcarBloqueOcupado s.bitmap k).take (cantBlock sb)).count false :=
      hresto.libres
    have hocupar := count_ocupar (bit_of_libre ha.libre) ha.menor
    omega
  directorio := fun _ => ha.directorio
  sin_enlaces := by
    intro i hi
    cases i with
    | zero => simpa using ha.sin_enlace
    | succ i =>
      have hnone : Function.update s.disco.links _ _ _ = none :=
        hresto.sin_enlaces i (by omega)
      rw [show nro + 1 + (i : ℤ) = nro + ((i + 1 : ℕ) : ℤ) by push_cast; ring] at hnone
      rw [Function.update_apply] at hnone
      split_ifs at hnone
      exact hnone

theorem Amplia.ampliable {nro : ℤ} {m : ℕ} (h : Amplia sb s f t nro (m + 1)) :
    ∃ k, Ampliable sb s f t nro k := by
  have hlibres := h.libres
  obtain ⟨k, hk, hlibre⟩ := libre_of_count (show 0 < (s.bitmap.take (cantBlock sb)).count false by
    omega)
  have hnone := h.sin_enlaces 0 (by omega)
  rw [Nat.cast_zero, add_zero] at hnone
  exact ⟨k, hlibre, hk, h.directorio (by omega), hnone⟩

theorem Amplia.ampliar {nro k m : ℕ} (h : Amplia sb s f t nro (m + 1))
    (ha : Ampliable sb s f t nro k) : Amplia sb (ampliar s f t nro k) f t (nro + 1) m where
  libres := by
    have hocupar := count_ocupar (bit_of_libre ha.libre) ha.menor
    have hlibres := h.libres
    change m ≤ ((bitmapMarcarBloqueOcupado s.bitmap k).take (cantBlock sb)).count false
    omega
  directorio := fun _ => ha.directorio
  sin_enlaces := by
    intro i hi
    have hnone := h.sin_enlaces (i + 1) (by omega)
    rw [show (nro : ℤ) + ((i + 1 : ℕ) : ℤ) = nro + 1 + i by push_cast; ring] at hnone
    have hne : rutaBlockLogico f t (crearNombreBloqueLogico (nro + 1 + i)) ≠
        rutaBlockLogico f t (crearNombreBloqueLogico nro) := by
      intro heq
      have hname : crearNombreBloqueLogico ((nro + 1 + i : ℕ) : ℤ) =
          crearNombreBloqueLogico (nro : ℤ) := by
        simpa [rutaBlockLogico] using heq
      have hnro : nro + 1 + i = nro := crearNombreBloqueLogico_injective hname
      omega
    rw [links_ampliar, Function.update_of_ne hne]
    exact hnone

theorem agrandar_succ_ampliable (h : ArchivosCompletos sb s) {nro : ℤ} {k : ℕ}
    (ha : Ampliable sb s f t nro k) (m : ℕ) :
    agrandar s f t nro (m + 1) = agrandar (ampliar s f t nro k) f t (nro + 1) m := by
  simp only [agrandar, agrandarUno_of_ampliable h ha]

theorem agrandar_succ_salteado (h : ArchivosCompletos sb s) {nro : ℤ} {k : ℕ}
    (hlibre : bitmapEncontrarBloqueLibre s.bitmap = some k) (hn : ¬ Ampliable sb s f t nro k)
    (m : ℕ) : agrandar s f t nro (m + 1) = agrandar s f t (nro + 1) m := by
  simp only [agrandar, agrandarUno_of_not_ampliable h hlibre hn]

theorem agrandar_succ_agotado (hnone : bitmapEncontrarBloqueLibre s.bitmap = none) (nro : ℤ)
    (m : ℕ) : agrandar s f t nro (m + 1) = (s, false) := by
  simp only [agrandar, agrandarUno, hnone]

/-- Where every name can be linked, the loop links them all in their order. -/
theorem agrandar_of_amplia (h : Coherente sb s) (habierto : Abierto s f t) {nro m : ℕ}
    (ha : Amplia sb s f t nro m) :
    (agrandar s f t nro m).2 = true ∧ (agrandar s f t nro m).1.listaFiles =
      (modificarTag s f t (agregarBloques ((List.range' nro m).map fun i : ℕ =>
        crearNombreBloqueLogico i))).listaFiles := by
  induction m generalizing s nro with
  | zero =>
    refine ⟨rfl, ?_⟩
    have hself : modificarTag s f t (agregarBloques []) = s :=
      modificarTag_eq_self s fun _ _ => rfl
    exact congrArg Storage.listaFiles hself.symm
  | succ m ih =>
    obtain ⟨k, hk⟩ := ha.ampliable
    have hresto := ha.ampliar hk
    rw [← Nat.cast_succ] at hresto
    obtain ⟨hfin, hlista⟩ := ih (coherente_ampliar h hk habierto.visible)
      (habierto.ampliar nro k) hresto
    rw [agrandar_succ_ampliable h.archivo_isSome_iff hk, ← Nat.cast_succ]
    refine ⟨hfin, ?_⟩
    have hcomp := listaFiles_comp (nameTag_agregarBloques _) (listaFiles_ampliar s f t nro k) hlista
    rw [hcomp, List.range'_succ, List.map_cons]
    rfl

/-- However the loop ends, it has linked some names, and all of them only where
every one can be; it stops without linking any only where no bit is free. -/
theorem agrandar_largo (h : Coherente sb s) (habierto : Abierto s f t) (nro : ℤ) (m : ℕ) :
    ∃ nombres, (agrandar s f t nro m).1.listaFiles =
        (modificarTag s f t (agregarBloques nombres)).listaFiles ∧
      nombres.length ≤ m ∧ (nombres.length = m → Amplia sb s f t nro m) ∧
      ((agrandar s f t nro m).2 = false → nombres = [] →
        bitmapEncontrarBloqueLibre s.bitmap = none) := by
  have hself : (modificarTag s f t (agregarBloques [])).listaFiles = s.listaFiles :=
    congrArg Storage.listaFiles (modificarTag_eq_self s fun _ _ => rfl)
  induction m generalizing s nro with
  | zero =>
    refine ⟨[], hself.symm, le_refl 0, fun _ => ⟨Nat.zero_le _, ?_, ?_⟩, ?_⟩
    · exact fun hpos => absurd hpos (lt_irrefl 0)
    · exact fun i hi => absurd hi (Nat.not_lt_zero i)
    · exact fun hfin => absurd hfin (by simp [agrandar])
  | succ m ih =>
    cases hlibre : bitmapEncontrarBloqueLibre s.bitmap with
    | none =>
      rw [agrandar_succ_agotado hlibre]
      refine ⟨[], hself.symm, Nat.zero_le _, ?_, fun _ _ => rfl⟩
      exact fun hlength => absurd hlength (by simp)
    | some k =>
      by_cases ha : Ampliable sb s f t nro k
      · rw [agrandar_succ_ampliable h.archivo_isSome_iff ha]
        obtain ⟨nombres, hlista, hle, htodos, _⟩ := ih (coherente_ampliar h ha habierto.visible)
          (habierto.ampliar nro k) (nro + 1)
          (congrArg Storage.listaFiles (modificarTag_eq_self _ fun _ _ => rfl))
        refine ⟨crearNombreBloqueLogico nro :: nombres, ?_, by simpa using hle, ?_, ?_⟩
        · exact listaFiles_comp (nameTag_agregarBloques _) (listaFiles_ampliar s f t nro k) hlista
        · intro hlength
          exact amplia_succ ha (htodos (by simpa using hlength))
        · exact fun _ hnil => absurd hnil (by simp)
      · rw [agrandar_succ_salteado h.archivo_isSome_iff hlibre ha]
        obtain ⟨nombres, hlista, hle, _, hagotado⟩ := ih h habierto (nro + 1) hself
        refine ⟨nombres, hlista, Nat.le_succ_of_le hle, ?_, ?_⟩
        · exact fun hlength => absurd hle (by omega)
        · intro hfin hnil
          exact absurd (hagotado hfin hnil) (by simp [hlibre])

theorem agrandar_agotado {tamanio : ℤ} {tag : Tag}
    (hlt : cantidadBloques sb tag.metadata.tamanioFile < cantidadBloques sb tamanio)
    (hnone : bitmapEncontrarBloqueLibre s.bitmap = none) (nro : ℤ) :
    agrandar s f t nro (bloquesQueAgrega sb tag tamanio) = (s, false) := by
  obtain ⟨m, hm⟩ : ∃ m, bloquesQueAgrega sb tag tamanio = m + 1 := by
    refine Nat.exists_eq_add_one_of_ne_zero ?_
    unfold bloquesQueAgrega
    omega
  rw [hm, agrandar_succ_agotado hnone]

end Bucle

/-- A growing TRUNCATE sets the size when its loop has gone through all turns,
and otherwise returns an error with what the loop had done. -/
theorem truncate_agranda_eq {tamanio : ℤ} {tag : Tag} (ht : Truncable sb s f t tamanio tag)
    (hlt : cantidadBloques sb tag.metadata.tamanioFile < cantidadBloques sb tamanio) :
    operacionTruncateFile sb s f t tamanio = .ok
      (if (agrandar s f t (cantidadBloques sb tag.metadata.tamanioFile)
          (bloquesQueAgrega sb tag tamanio)).2 then
        (terminarTruncate (agrandado sb s f t tag tamanio) f t tamanio, 0)
      else (agrandado sb s f t tag tamanio, -1)) := by
  unfold operacionTruncateFile agrandado bloquesQueAgrega
  rw [if_neg (not_not.mpr ht.multiplo), ht.existe]
  simp only [if_neg ht.wip, if_pos hlt]
  rcases agrandar s f t (cantidadBloques sb tag.metadata.tamanioFile)
      (cantidadBloques sb tamanio - cantidadBloques sb tag.metadata.tamanioFile).toNat
    with ⟨s', _ | _⟩
  · rfl
  · rfl

end MasterOfFiles.TruncateOutcomes
