import MasterOfFiles.WriteBackCaches
import MasterOfFiles.WorkerMemory

/-!
The frame table as the lines of a write-back cache. An occupied frame that names
a File, a Tag and a page is a line whose value is the frame's part of the byte
area. The parts of different frames do not meet, so an update of one frame is an
update of one line.
-/
namespace MasterOfFiles.FrameTables

open ByteBuffers WriteBackCaches WorkerMemory

abbrev Clave := (String × String) × ℕ

/-- The page an occupied frame holds. -/
def claveDe (f : Marco) : Option Clave :=
  if f.libre then none
  else match f.file, f.tag with
  | some file, some tag => some ((file, tag), f.pagina)
  | _, _ => none

def lineaDe (ram : Ram) (area : Bytes) (f : Marco) : Option (Line Clave Bytes) :=
  (claveDe f).map fun k => ⟨k, slice area f.base ram.pageSize, f.dirty⟩

def linea (ram : Ram) (m : Memoria) (i : ℕ) : Option (Line Clave Bytes) :=
  (m.frames[i]?).bind (lineaDe ram m.direccionBase)

/-- The shape of the table that inicializar_memoria builds and every access keeps. -/
structure Ordenada (ram : Ram) (m : Memoria) : Prop where
  tamanio : m.direccionBase.length = ram.tamMemoria
  marcos : m.frames.length = ram.frames
  bases : ∀ (i : ℕ) (f : Marco), m.frames[i]? = some f → f.base = i * ram.pageSize
  nombrado : ∀ (i : ℕ) (f : Marco), m.frames[i]? = some f → f.dirty = true → (claveDe f).isSome
  reloj : ∀ (i : ℕ) (f : Marco), m.frames[i]? = some f → f.lastUsed < 2 ^ 63

variable {ram : Ram} {m : Memoria} {i j : ℕ}

theorem frames_modificarMarco (m : Memoria) (i : ℕ) (g : Marco → Marco) (j : ℕ) :
    (modificarMarco m i g).frames[j]? = if j = i then (m.frames[i]?).map g else m.frames[j]? := by
  unfold modificarMarco
  rw [List.getElem?_modify]
  rcases eq_or_ne j i with rfl | hne
  · rw [if_pos rfl]
    simp
  · rw [if_neg hne]
    simp [Ne.symm hne]

/-- The frames lie side by side inside the byte area. -/
theorem marco_cabe (ram : Ram) (hi : i < ram.frames) :
    i * ram.pageSize + ram.pageSize ≤ ram.tamMemoria := by
  calc
    i * ram.pageSize + ram.pageSize = (i + 1) * ram.pageSize := (Nat.succ_mul _ _).symm
    _ ≤ ram.frames * ram.pageSize := Nat.mul_le_mul_right _ hi
    _ ≤ ram.tamMemoria := Nat.div_mul_le_self _ _

theorem marcos_aparte (ram : Ram) (h : i ≠ j) :
    i * ram.pageSize + ram.pageSize ≤ j * ram.pageSize ∨
      j * ram.pageSize + ram.pageSize ≤ i * ram.pageSize := by
  rw [← Nat.succ_mul, ← Nat.succ_mul]
  rcases Nat.lt_or_gt_of_ne h with hlt | hlt
  · exact Or.inl (Nat.mul_le_mul_right _ hlt)
  · exact Or.inr (Nat.mul_le_mul_right _ hlt)

theorem Ordenada.marco (h : Ordenada ram m) (hi : i < ram.frames) :
    ∃ f, m.frames[i]? = some f ∧ f.base = i * ram.pageSize := by
  have hlt : i < m.frames.length := h.marcos ▸ hi
  exact ⟨m.frames[i], List.getElem?_eq_getElem hlt, h.bases i _ (List.getElem?_eq_getElem hlt)⟩

theorem Ordenada.cabe (h : Ordenada ram m) {f : Marco} (hf : m.frames[i]? = some f) :
    f.base + ram.pageSize ≤ ram.tamMemoria := by
  rw [h.bases i f hf]
  exact marco_cabe ram (h.marcos ▸ (List.getElem?_eq_some_iff.mp hf).1)

theorem Ordenada.length_pagina (h : Ordenada ram m) {f : Marco} (hf : m.frames[i]? = some f) :
    (slice m.direccionBase f.base ram.pageSize).length = ram.pageSize := by
  have hcabe := h.cabe hf
  rw [← h.tamanio] at hcabe
  exact length_slice _ _ _ hcabe

theorem Ordenada.baseDe_eq (h : Ordenada ram m) (hi : i < ram.frames) :
    baseDe m i = i * ram.pageSize := by
  obtain ⟨f, hf, hbase⟩ := h.marco hi
  unfold baseDe
  rw [hf, Option.map_some, Option.getD_some, hbase]

theorem Ordenada.modificarMarco (h : Ordenada ram m) (i : ℕ) {g : Marco → Marco}
    (hbase : ∀ f, (g f).base = f.base)
    (hnombre : ∀ f, m.frames[i]? = some f → (g f).dirty = true → (claveDe (g f)).isSome)
    (hreloj : ∀ f, f.lastUsed < 2 ^ 63 → (g f).lastUsed < 2 ^ 63) :
    Ordenada ram (modificarMarco m i g) where
  tamanio := h.tamanio
  marcos := (List.length_modify ..).trans h.marcos
  bases := by
    intro j f hf
    rw [frames_modificarMarco] at hf
    split_ifs at hf with hj
    · obtain ⟨f', hf', rfl⟩ := Option.map_eq_some_iff.mp hf
      rw [hbase, hj]
      exact h.bases i f' hf'
    · exact h.bases j f hf
  nombrado := by
    intro j f hf hdirty
    rw [frames_modificarMarco] at hf
    split_ifs at hf
    · obtain ⟨f', hf', rfl⟩ := Option.map_eq_some_iff.mp hf
      exact hnombre f' hf' hdirty
    · exact h.nombrado j f hf hdirty
  reloj := by
    intro j f hf
    rw [frames_modificarMarco] at hf
    split_ifs at hf
    · obtain ⟨f', hf', rfl⟩ := Option.map_eq_some_iff.mp hf
      exact hreloj f' (h.reloj i f' hf')
    · exact h.reloj j f hf

/-- Copies inside the byte area keep the shape. -/
theorem Ordenada.copiar (h : Ordenada ram m) (ptr : ℕ) (bytes : Bytes)
    (hcabe : ptr + bytes.length ≤ ram.tamMemoria) :
    Ordenada ram { m with direccionBase := overlay m.direccionBase ptr bytes } where
  tamanio := (length_overlay _ _ _ (h.tamanio ▸ hcabe)).trans h.tamanio
  marcos := h.marcos
  bases := h.bases
  nombrado := h.nombrado
  reloj := h.reloj

theorem linea_eq_some {a : Line Clave Bytes} (h : linea ram m i = some a) :
    ∃ f, m.frames[i]? = some f ∧ claveDe f = some a.key ∧ f.dirty = a.dirty ∧
      slice m.direccionBase f.base ram.pageSize = a.value := by
  obtain ⟨f, hf, hlinea⟩ := Option.bind_eq_some_iff.mp h
  obtain ⟨k, hk, rfl⟩ := Option.map_eq_some_iff.mp hlinea
  exact ⟨f, hf, hk, rfl, rfl⟩

theorem linea_of_claveDe (ram : Ram) {f : Marco} (hf : m.frames[i]? = some f) {k : Clave}
    (hk : claveDe f = some k) : linea ram m i =
      some ⟨k, slice m.direccionBase f.base ram.pageSize, f.dirty⟩ := by
  unfold linea lineaDe
  rw [hf, Option.bind_some, hk, Option.map_some]

theorem claveDe_eq_some {f : Marco} {k : Clave} (h : claveDe f = some k) :
    f.libre = false ∧ f.file = some k.1.1 ∧ f.tag = some k.1.2 ∧ f.pagina = k.2 := by
  unfold claveDe at h
  split_ifs at h with hlibre
  split at h
  · next file tag hfile htag =>
    obtain rfl := Option.some.inj h
    exact ⟨Bool.eq_false_iff.mpr hlibre, hfile, htag, rfl⟩
  · simp at h

theorem frameMatchea_iff (file tag : String) (nroPag : ℕ) (f : Marco) :
    frameMatchea file tag nroPag f = true ↔ claveDe f = some ((file, tag), nroPag) := by
  unfold frameMatchea
  constructor
  · intro h
    simp only [Bool.and_eq_true, Bool.not_eq_true', beq_iff_eq] at h
    obtain ⟨⟨⟨hlibre, hpagina⟩, hfile⟩, htag⟩ := h
    unfold claveDe
    rw [hlibre, hfile, htag, hpagina]
    rfl
  · intro h
    obtain ⟨hlibre, hfile, htag, hpagina⟩ := claveDe_eq_some h
    simp [hlibre, hfile, htag, hpagina]

/-- An update of a frame is an update of its line. -/
theorem linea_modificarMarco (ram : Ram) (m : Memoria) (i : ℕ) (g : Marco → Marco) :
    linea ram (modificarMarco m i g) =
      Function.update (linea ram m) i
        ((m.frames[i]?).bind fun f => lineaDe ram m.direccionBase (g f)) := by
  funext j
  unfold linea
  rw [frames_modificarMarco]
  rcases eq_or_ne j i with rfl | hne
  · rw [if_pos rfl, Function.update_self, Option.bind_map]
    rfl
  · rw [if_neg hne, Function.update_of_ne hne]
    rfl

/-- Updates that keep what a frame holds do not show in the lines. -/
theorem linea_modificarMarco_eq (ram : Ram) (m : Memoria) (i : ℕ) {g : Marco → Marco}
    (hg : ∀ f, lineaDe ram m.direccionBase (g f) = lineaDe ram m.direccionBase f) :
    linea ram (modificarMarco m i g) = linea ram m := by
  rw [linea_modificarMarco]
  simp only [hg]
  exact Function.update_eq_self i (linea ram m)

/-- A copy into the part of one frame changes the value of that line alone. -/
theorem linea_copiar (h : Ordenada ram m) (hi : i < ram.frames) (off : ℕ) (bytes : Bytes)
    (hoff : off + bytes.length ≤ ram.pageSize) :
    linea ram { m with
        direccionBase := overlay m.direccionBase (i * ram.pageSize + off) bytes } =
      Function.update (linea ram m) i
        ((linea ram m i).map fun a => { a with value := overlay a.value off bytes }) := by
  have hcabe := marco_cabe ram hi
  have htam := h.tamanio
  funext j
  cases hf : m.frames[j]? with
  | none =>
    have hne : j ≠ i := by
      rintro rfl
      obtain ⟨f, hf', _⟩ := h.marco hi
      simp [hf] at hf'
    rw [Function.update_of_ne hne]
    unfold linea
    rw [hf]
    rfl
  | some f =>
    have hbase := h.bases j f hf
    rcases eq_or_ne j i with rfl | hne
    · rw [Function.update_self]
      unfold linea lineaDe
      rw [hf, Option.bind_some, Option.bind_some, hbase,
        slice_overlay_inside _ _ _ _ _ (by omega) hoff, Option.map_map]
      rfl
    · rw [Function.update_of_ne hne]
      unfold linea lineaDe
      have haparte := marcos_aparte ram hne
      rw [hf, Option.bind_some, Option.bind_some, hbase,
        slice_overlay_outside _ _ _ _ _ (by omega) (by omega)]

/-- A copy into a frame without a page does not show in the lines. -/
theorem linea_copiar_libre (h : Ordenada ram m) (hi : i < ram.frames)
    (hnone : linea ram m i = none) {bytes : Bytes} (hb : bytes.length ≤ ram.pageSize) :
    linea ram { m with direccionBase := overlay m.direccionBase (i * ram.pageSize) bytes } =
      linea ram m := by
  have hcopia := linea_copiar h hi 0 bytes (by omega)
  rwa [Nat.add_zero, hnone, Option.map_none, Function.update_eq_self_iff.mpr hnone.symm] at hcopia

theorem frames_inicial {f : Marco} (hf : (inicializarMemoria ram).frames[i]? = some f) :
    f = marcoInicial ram i := by
  unfold inicializarMemoria at hf
  rw [List.getElem?_map] at hf
  obtain ⟨k, hk, rfl⟩ := Option.map_eq_some_iff.mp hf
  obtain ⟨_, rfl⟩ := List.getElem?_eq_some_iff.mp hk
  rw [List.getElem_range]

theorem ordenada_inicial (ram : Ram) : Ordenada ram (inicializarMemoria ram) where
  tamanio := List.length_replicate
  marcos := by
    unfold inicializarMemoria
    rw [List.length_map, List.length_range]
  bases := by
    intro i f hf
    rw [frames_inicial hf]
    rfl
  nombrado := by
    intro i f hf hdirty
    rw [frames_inicial hf] at hdirty
    simp [marcoInicial] at hdirty
  reloj := by
    intro i f hf
    rw [frames_inicial hf]
    exact Nat.two_pow_pos 63

/-- At the start no frame holds a page. -/
theorem linea_inicial (ram : Ram) : linea ram (inicializarMemoria ram) = fun _ => none := by
  funext i
  refine Option.eq_none_iff_forall_ne_some.mpr fun a ha => ?_
  obtain ⟨f, hf, hclave, _⟩ := linea_eq_some ha
  rw [frames_inicial hf] at hclave
  simp [marcoInicial, claveDe] at hclave

end MasterOfFiles.FrameTables
