import Mathlib.Data.List.Find
import Mathlib.Data.List.Nodup
import Mathlib.Data.List.Perm.Subperm
import Mathlib.Data.Nat.ModEq
import MasterOfFiles.ReplacementPolicies

/-!
The class of the frame CLOCK-M gives up. The first two searches take the classes
(0,0) and (0,1); the third takes the first occupied frame whatever its M bit, so
among frames that were all in use a modified one may go before an unmodified one.
-/
namespace MasterOfFiles.ClockClasses

open WorkerMemory FrameTables ReplacementPolicies

variable {m m' : Memoria} {i v : ℕ}

def ocupado (f : Marco) : Bool := !f.libre

/-- The place of (U,M) in the order (0,0), (0,1), (1,0), (1,1). -/
def clase (f : Marco) : ℕ := 2 * f.U.toNat + f.M.toNat

/-- The first occupied frame of a class, in circular order from PUNTERO_RELOJ. -/
def primeraDeClase (m : Memoria) (c : ℕ) : Option ℕ :=
  (vuelta m).find? (cumple m fun f => ocupado f && clase f == c)

/-- The frame to give up: the first one of the lowest class that is not empty. -/
def victimaDebida (m : Memoria) : Option ℕ := (List.range 4).findSome? (primeraDeClase m)

/-- The first occupied frame, in circular order from PUNTERO_RELOJ. -/
def primeraOcupada (m : Memoria) : Option ℕ := (vuelta m).find? (cumple m ocupado)

section Vuelta

theorem nodup_vuelta (m : Memoria) : (vuelta m).Nodup := by
  unfold vuelta
  refine List.Nodup.map_on (fun k hk k' hk' heq => ?_) List.nodup_range
  have hmod : k ≡ k' [MOD m.frames.length] := Nat.ModEq.add_left_cancel' m.punteroReloj heq
  exact hmod.eq_of_lt_of_lt (List.mem_range.mp hk) (List.mem_range.mp hk')

/-- A turn passes every frame. -/
theorem mem_vuelta_iff : i ∈ vuelta m ↔ i < m.frames.length := by
  have hsub : vuelta m ⊆ List.range m.frames.length :=
    fun j hj => List.mem_range.mpr (mem_vuelta_lt hj)
  have hlength : (List.range m.frames.length).length ≤ (vuelta m).length := by
    unfold vuelta
    rw [List.length_map]
  have hperm := (List.subperm_of_subset (nodup_vuelta m) hsub).perm_of_length_le hlength
  rw [hperm.mem_iff, List.mem_range]

theorem cumple_iff {p : Marco → Bool} :
    cumple m p i = true ↔ ∃ f, m.frames[i]? = some f ∧ p f = true := by
  unfold cumple
  rw [Option.any_eq_true]

theorem isSome_find?_vuelta_iff {p : Marco → Bool} :
    ((vuelta m).find? (cumple m p)).isSome ↔ ∃ f ∈ m.frames, p f = true := by
  rw [List.find?_isSome]
  constructor
  · rintro ⟨i, _, hi⟩
    obtain ⟨f, hf, hp⟩ := cumple_iff.mp hi
    exact ⟨f, List.mem_of_getElem? hf, hp⟩
  · rintro ⟨f, hf, hp⟩
    obtain ⟨i, hi⟩ := List.mem_iff_getElem?.mp hf
    exact ⟨i, mem_vuelta_iff.mpr (List.getElem?_eq_some_iff.mp hi).1, cumple_iff.mpr ⟨f, hi, hp⟩⟩

theorem find?_eq_none_iff {p : Marco → Bool} :
    (vuelta m).find? (cumple m p) = none ↔ ∀ f ∈ m.frames, p f = false := by
  rw [← Option.not_isSome_iff_eq_none, isSome_find?_vuelta_iff]
  simp

end Vuelta

section Segunda

@[simp] theorem vuelta_limpiarU (m : Memoria) (i : ℕ) : vuelta (limpiarU m i) = vuelta m := by
  unfold vuelta limpiarU modificarMarco
  simp only [List.length_modify]

theorem cumple_limpiarU_ne (p : Marco → Bool) {j : ℕ} (h : j ≠ i) :
    cumple (limpiarU m i) p j = cumple m p j := by
  unfold cumple limpiarU
  rw [frames_modificarMarco, if_neg h]

/-- Clearing use bits on the way does not change what the second search finds: it does
not come back to the frames it has cleared. -/
theorem segundaVuelta_eq_find? {is : List ℕ} (h : is.Nodup) (m : Memoria) :
    (segundaVuelta is m).2 = is.find? (cumple m fun f => !f.libre && !f.U && f.M) := by
  induction is generalizing m with
  | nil => rfl
  | cons i is ih =>
    obtain ⟨hnotMem, hnodup⟩ := List.nodup_cons.mp h
    have hresto : ∀ m', (∀ j ∈ is, cumple m' (fun f => !f.libre && !f.U && f.M) j =
        cumple m (fun f => !f.libre && !f.U && f.M) j) → (segundaVuelta is m').2 =
          is.find? (cumple m fun f => !f.libre && !f.U && f.M) := by
      intro m' hm'
      rw [ih hnodup m']
      exact List.find?_congr hm'
    unfold segundaVuelta
    by_cases hi : cumple m (fun f => !f.libre && !f.U && f.M) i = true
    · rw [if_pos hi, List.find?_cons_of_pos hi]
    · rw [if_neg hi, List.find?_cons_of_neg hi]
      split_ifs
      · refine hresto _ fun j hj => cumple_limpiarU_ne _ ?_
        rintro rfl
        exact hnotMem hj
      · exact hresto m fun _ _ => rfl

theorem vuelta_segundaVuelta (is : List ℕ) (m : Memoria) :
    vuelta (segundaVuelta is m).1 = vuelta m := by
  induction is generalizing m with
  | nil => rfl
  | cons i is ih =>
    unfold segundaVuelta
    split_ifs
    · rfl
    · rw [ih, vuelta_limpiarU]
    · rw [ih]

theorem cumple_of_soloUso (h : SoloUso m m') :
    cumple m' (fun f => !f.libre) i = cumple m ocupado i := by
  have hmarco := h.marcos i
  have hlibre : ∀ o : Option Marco, o.any (fun f => !f.libre) =
      (o.map sinUso).any (fun f => !f.libre) := by
    intro o
    cases o <;> rfl
  unfold cumple
  rw [hlibre, hmarco, ← hlibre]
  rfl

end Segunda

section Clases

theorem primeraDeClase_cero (m : Memoria) : primeraDeClase m 0 =
    (vuelta m).find? (cumple m fun f => !f.libre && !f.U && !f.M) := by
  have hclase : ∀ f : Marco, (ocupado f && clase f == 0) = (!f.libre && !f.U && !f.M) := by
    intro f
    unfold ocupado clase
    cases f.libre <;> cases f.U <;> cases f.M <;> rfl
  unfold primeraDeClase
  simp only [hclase]

theorem primeraDeClase_uno (m : Memoria) : primeraDeClase m 1 =
    (vuelta m).find? (cumple m fun f => !f.libre && !f.U && f.M) := by
  have hclase : ∀ f : Marco, (ocupado f && clase f == 1) = (!f.libre && !f.U && f.M) := by
    intro f
    unfold ocupado clase
    cases f.libre <;> cases f.U <;> cases f.M <;> rfl
  unfold primeraDeClase
  simp only [hclase]

theorem clase_of_enUso {f : Marco} (h : f.U = true) : clase f = if f.M then 3 else 2 := by
  unfold clase
  rw [h]
  cases f.M <;> rfl

/-- The frame due when the classes up to `c` are empty. -/
theorem victimaDebida_eq (m : Memoria) : victimaDebida m =
    (primeraDeClase m 0).or ((primeraDeClase m 1).or
      ((primeraDeClase m 2).or (primeraDeClase m 3))) := by
  unfold victimaDebida
  rw [show List.range 4 = [0, 1, 2, 3] from rfl]
  simp only [List.findSome?_cons, List.findSome?_nil]
  cases primeraDeClase m 0 with
  | some v => rfl
  | none =>
    cases primeraDeClase m 1 with
    | some v => rfl
    | none =>
      cases primeraDeClase m 2 with
      | some v => rfl
      | none => cases primeraDeClase m 3 <;> rfl

/-- The first occupied frame is the first one of its class. -/
theorem primeraDeClase_of_ocupada {f : Marco} (hv : primeraOcupada m = some v)
    (hf : m.frames[v]? = some f) : primeraDeClase m (clase f) = some v := by
  obtain ⟨f', hf', hocupado⟩ := cumple_iff.mp (List.find?_some hv)
  obtain rfl := Option.some.inj (hf.symm.trans hf')
  obtain ⟨_, antes, despues, hvuelta, hantes⟩ := List.find?_eq_some_iff_append.mp hv
  refine List.find?_eq_some_iff_append.mpr ⟨cumple_iff.mpr ⟨f, hf, ?_⟩, antes, despues, hvuelta,
    fun i hi => ?_⟩
  · rw [hocupado, beq_self_eq_true, Bool.and_true]
  · rw [Bool.not_eq_true', ← Bool.not_eq_true]
    intro hclase
    obtain ⟨g, hg, hocupada⟩ := cumple_iff.mp hclase
    have hlibre := hantes i hi
    rw [cumple_iff.mpr ⟨g, hg, (Bool.and_eq_true_iff.mp hocupada).1⟩] at hlibre
    simp at hlibre

/-- No occupied frame has its use bit at 0. -/
def TodosEnUso (m : Memoria) : Prop := ∀ f ∈ m.frames, ocupado f = true → f.U = true

theorem todosEnUso_iff :
    TodosEnUso m ↔ primeraDeClase m 0 = none ∧ primeraDeClase m 1 = none := by
  unfold primeraDeClase TodosEnUso
  rw [find?_eq_none_iff, find?_eq_none_iff, ← forall₂_and]
  refine forall₂_congr fun f _ => ?_
  unfold clase
  cases ocupado f <;> cases f.U <;> cases f.M <;> decide

/-- Among frames all in use, the first occupied one is due unless it is modified and
another one is not. -/
theorem victimaDebida_of_enUso (h : TodosEnUso m) (hv : primeraOcupada m = some v) :
    victimaDebida m = some v ↔
      (∀ f ∈ m.frames, ocupado f = true → f.M = true) ∨ cumple m (fun f => !f.M) v = true := by
  obtain ⟨hcero, huno⟩ := todosEnUso_iff.mp h
  rw [victimaDebida_eq, hcero, huno, Option.none_or, Option.none_or]
  obtain ⟨f, hf, hocupado⟩ := cumple_iff.mp (List.find?_some hv)
  have hclase := primeraDeClase_of_ocupada hv hf
  rw [clase_of_enUso (h f (List.mem_of_getElem? hf) hocupado)] at hclase
  have hM : cumple m (fun f => !f.M) v = !f.M := by
    unfold cumple
    rw [hf, Option.any_some]
  rw [hM]
  cases hmodificada : f.M with
  | false =>
    rw [hmodificada, if_neg (by decide)] at hclase
    rw [hclase, Option.some_or]
    exact iff_of_true rfl (Or.inr rfl)
  | true =>
    rw [hmodificada, if_pos rfl] at hclase
    rw [hclase]
    constructor
    · intro hdebida
      refine Or.inl fun g hg hocupada => ?_
      by_contra hlimpia
      have hdos : (primeraDeClase m 2).isSome := by
        refine isSome_find?_vuelta_iff.mpr ⟨g, hg, ?_⟩
        rw [hocupada, clase_of_enUso (h g hg hocupada), if_neg hlimpia]
        rfl
      obtain ⟨u, hu⟩ := Option.isSome_iff_exists.mp hdos
      rw [hu, Option.some_or] at hdebida
      obtain rfl := Option.some.inj hdebida
      obtain ⟨f', hf', hclase'⟩ := cumple_iff.mp (List.find?_some hu)
      obtain rfl := Option.some.inj (hf.symm.trans hf')
      rw [hocupado, clase_of_enUso (h f (List.mem_of_getElem? hf) hocupado), hmodificada] at hclase'
      simp at hclase'
    · rintro (htodas | hfalse)
      · have hdos : primeraDeClase m 2 = none := by
          refine find?_eq_none_iff.mpr fun g hg => ?_
          cases hocupada : ocupado g with
          | false => rfl
          | true =>
            rw [clase_of_enUso (h g hg hocupada), if_pos (htodas g hg hocupada)]
            rfl
        rw [hdos, Option.none_or]
      · simp at hfalse

end Clases

section Eleccion

/-- CLOCK-M gives up the frame that is due and leaves PUNTERO_RELOJ behind it, if a frame
is occupied, and returns -1 in no other case. -/
structure EleccionExacta (m : Memoria) : Prop where
  victima : (∃ f ∈ m.frames, ocupado f = true) → ∃ v, victimaDebida m = some v ∧
    (algoritmoCLOCKM m).2 = some v ∧
    (algoritmoCLOCKM m).1.punteroReloj = (v + 1) % m.frames.length
  ninguna : (algoritmoCLOCKM m).2 = none → ∀ f ∈ m.frames, ocupado f = false

/-- The third search takes a frame of the lowest class. -/
def TerceraAcierta (m : Memoria) : Prop :=
  (∀ f ∈ m.frames, ocupado f = true → f.M = true) ∨
    ∃ v, primeraOcupada m = some v ∧ cumple m (fun f => !f.M) v = true

/-- What CLOCK-M returns: the first frame of the classes (0,0) and (0,1), or else the
first occupied one. -/
theorem algoritmoCLOCKM_snd (m : Memoria) : (algoritmoCLOCKM m).2 =
    (primeraDeClase m 0).or ((primeraDeClase m 1).or (primeraOcupada m)) := by
  have hsegunda := segundaVuelta_eq_find? (nodup_vuelta m) m
  have hvuelta := vuelta_segundaVuelta (vuelta m) m
  have hsolo := segundaVuelta_soloUso (vuelta m) m
  rw [primeraDeClase_cero, primeraDeClase_uno, ← hsegunda]
  unfold algoritmoCLOCKM
  cases (vuelta m).find? (cumple m fun f => !f.libre && !f.U && !f.M) with
  | some v => rfl
  | none =>
    rw [Option.none_or]
    cases hres : segundaVuelta (vuelta m) m with
    | mk m₁ victima =>
      rw [hres] at hvuelta hsolo
      cases victima with
      | some v => rfl
      | none =>
        have htercera : (vuelta m₁).find? (cumple m₁ fun f => !f.libre) = primeraOcupada m := by
          rw [hvuelta]
          exact List.find?_congr fun i _ => cumple_of_soloUso hsolo
        simp only [htercera, Option.none_or]
        cases primeraOcupada m with
        | some v => rfl
        | none => rfl

theorem punteroReloj_algoritmoCLOCKM (hv : (algoritmoCLOCKM m).2 = some v) :
    (algoritmoCLOCKM m).1.punteroReloj = (v + 1) % m.frames.length := by
  have hsolo := segundaVuelta_soloUso (vuelta m) m
  unfold algoritmoCLOCKM at hv ⊢
  cases hprimera : (vuelta m).find? (cumple m fun f => !f.libre && !f.U && !f.M) with
  | some u =>
    simp only [hprimera] at hv ⊢
    obtain rfl := Option.some.inj hv
    rfl
  | none =>
    simp only [hprimera] at hv ⊢
    cases hres : segundaVuelta (vuelta m) m with
    | mk m₁ victima =>
      simp only [hres] at hv hsolo ⊢
      cases victima with
      | some u =>
        obtain rfl := Option.some.inj hv
        rw [← hsolo.cantidad]
        rfl
      | none =>
        cases htercera : (vuelta m₁).find? (cumple m₁ fun f => !f.libre) with
        | none => simp [htercera] at hv
        | some u =>
          simp only [htercera] at hv ⊢
          obtain rfl := Option.some.inj hv
          rw [← hsolo.cantidad]
          rfl

/-- Some frame is given up when one is occupied. -/
theorem isSome_algoritmoCLOCKM (h : ∃ f ∈ m.frames, ocupado f = true) :
    (algoritmoCLOCKM m).2.isSome := by
  have hocupada : (primeraOcupada m).isSome := isSome_find?_vuelta_iff.mpr h
  rw [algoritmoCLOCKM_snd, Option.isSome_or, Option.isSome_or, hocupada]
  simp

theorem eleccionExacta_iff_snd (h : ∃ f ∈ m.frames, ocupado f = true) :
    EleccionExacta m ↔ victimaDebida m = (algoritmoCLOCKM m).2 := by
  obtain ⟨v, hv⟩ := Option.isSome_iff_exists.mp (isSome_algoritmoCLOCKM h)
  constructor
  · intro hexacta
    obtain ⟨u, hu, hu', _⟩ := hexacta.victima h
    rw [hu, hu']
  · intro hdebida
    refine ⟨fun _ => ⟨v, hdebida.trans hv, hv, punteroReloj_algoritmoCLOCKM hv⟩, fun hnone => ?_⟩
    rw [hv] at hnone
    simp at hnone

/-- CLOCK-M picks the right class unless all the occupied frames are in use, the first of
them is modified and another one is not. -/
theorem eleccionExacta_iff (m : Memoria) :
    EleccionExacta m ↔ ¬ TodosEnUso m ∨ TerceraAcierta m := by
  by_cases hocupada : ∃ f ∈ m.frames, ocupado f = true
  · rw [eleccionExacta_iff_snd hocupada, algoritmoCLOCKM_snd]
    by_cases hUso : TodosEnUso m
    · obtain ⟨v, hv⟩ := Option.isSome_iff_exists.mp (isSome_find?_vuelta_iff.mpr hocupada)
      obtain ⟨hcero, huno⟩ := todosEnUso_iff.mp hUso
      have hprimera : primeraOcupada m = some v := hv
      rw [hcero, huno, Option.none_or, Option.none_or, hprimera,
        victimaDebida_of_enUso hUso hprimera]
      unfold TerceraAcierta
      rw [hprimera]
      simp [hUso]
    · refine iff_of_true ?_ (Or.inl hUso)
      rw [victimaDebida_eq]
      rw [todosEnUso_iff, not_and_or] at hUso
      cases hcero : primeraDeClase m 0 with
      | some v => rfl
      | none =>
        cases huno : primeraDeClase m 1 with
        | some v => rfl
        | none => exact absurd huno (hUso.resolve_left (not_not.mpr hcero))
  · have hlibres : ∀ f ∈ m.frames, ocupado f = false := by
      intro f hf
      rw [Bool.eq_false_iff]
      exact fun hsi => hocupada ⟨f, hf, hsi⟩
    refine iff_of_true ⟨fun hsi => absurd hsi hocupada, fun _ => hlibres⟩ (Or.inr (Or.inl ?_))
    intro f hf hsi
    rw [hlibres f hf] at hsi
    simp at hsi

end Eleccion

section Modificada

/-- Two frames in use, the first of them modified. -/
def tablaEnUso : Memoria where
  direccionBase := []
  frames := [⟨false, 0, some "f", some "t", 0, true, true, true, 0⟩,
    ⟨false, 0, some "f", some "t", 1, false, true, false, 0⟩]
  punteroReloj := 0
  lecturasReloj := 2

/-- The modified frame goes before the one that is not modified. -/
theorem not_eleccionExacta : ¬ ∀ m : Memoria, m.punteroReloj < m.frames.length →
    EleccionExacta m := by
  intro h
  have hocupada : ∃ f ∈ tablaEnUso.frames, ocupado f = true := by decide
  have hdebida := (eleccionExacta_iff_snd hocupada).mp (h tablaEnUso (by decide))
  exact absurd hdebida (by decide)

end Modificada

end MasterOfFiles.ClockClasses
