import MasterOfFiles.WorkerInstructions

/-!
Which texts the Worker takes for a base or a size. strtoul skips blanks, takes a sign and
stops at what is no digit, and the one test behind it is that it stopped at the end of the
text. So texts with blanks in front, a sign or too many digits pass, as does the empty
one, and mean another number than they say or none at all.
-/
namespace MasterOfFiles.NumericArguments

open ConfigText WorkerMemory WorkerInstructions

variable {txt : String}

section Cifras

/-- What strtoul has in front of it behind the blanks and the sign. -/
def cifras (txt : String) : List Char :=
  match txt.toList.dropWhile esEspacio with
  | '-' :: ds => ds
  | '+' :: ds => ds
  | ds => ds

def negativo (txt : String) : Bool :=
  match txt.toList.dropWhile esEspacio with
  | '-' :: _ => true
  | _ => false

/-- A sequence of decimal digits, not empty. -/
def Digitos (l : List Char) : Prop := l ≠ [] ∧ ∀ c ∈ l, c.isDigit

instance (l : List Char) : Decidable (Digitos l) := inferInstanceAs (Decidable (_ ∧ _))

def valor (l : List Char) : ℕ := Nat.ofDigitChars 10 l 0

/-- The text says the number. -/
def Dice (txt : String) (v : ℕ) : Prop := Digitos txt.toList ∧ valor txt.toList = v ∧ v < 2 ^ 64

theorem parseSizeTSafe_cifras (txt : String) :
    parseSizeTSafe txt = leerSizeT txt (negativo txt) (cifras txt) := by
  unfold parseSizeTSafe negativo cifras
  split <;> simp_all

theorem leerDigitos_digitos {ds : List Char} (h : ∀ c ∈ ds, c.isDigit) :
    leerDigitos ds = valor ds := by
  unfold leerDigitos valor
  rw [List.takeWhile_eq_self_iff.mpr h]

theorem takeWhile_isDigit_eq_nil {ds : List Char} (h : ¬ Digitos ds)
    (hall : ∀ c ∈ ds, c.isDigit) : ds = [] := by
  by_contra hne
  exact h ⟨hne, hall⟩

/-- What is accepted of a text that is not empty: digits behind the blanks and the sign. -/
theorem parseSizeTSafe_eq (hne : txt ≠ "") :
    parseSizeTSafe txt =
      if Digitos (cifras txt) then some (valorSizeT (negativo txt) (valor (cifras txt)))
      else none := by
  rw [parseSizeTSafe_cifras]
  unfold leerSizeT
  by_cases hdigitos : Digitos (cifras txt)
  · have hprimero : (cifras txt).takeWhile Char.isDigit ≠ [] := by
      rw [List.takeWhile_eq_self_iff.mpr hdigitos.2]
      exact hdigitos.1
    rw [if_pos hdigitos, if_neg hprimero, if_pos (List.all_eq_true.mpr hdigitos.2),
      leerDigitos_digitos hdigitos.2]
  · rw [if_neg hdigitos]
    split_ifs with hprimero hall
    · rfl
    · have hvacia := takeWhile_isDigit_eq_nil hdigitos (List.all_eq_true.mp hall)
      rw [hvacia] at hprimero
      exact absurd rfl hprimero
    · rfl

theorem not_esEspacio_of_isDigit {c : Char} (h : c.isDigit) : esEspacio c = false := by
  rw [Bool.eq_false_iff]
  intro hesp
  unfold esEspacio at hesp
  simp only [Bool.or_eq_true, decide_eq_true_eq] at hesp
  rcases hesp with ((((rfl | rfl) | rfl) | rfl) | rfl) | rfl <;> revert h <;> decide

/-- Nothing is skipped in front of digits. -/
theorem cifras_of_digitos (h : Digitos txt.toList) :
    cifras txt = txt.toList ∧ negativo txt = false := by
  obtain ⟨c, cs, hcs⟩ := List.exists_cons_of_ne_nil h.1
  have hc : c.isDigit := h.2 c (by rw [hcs]; exact List.mem_cons_self ..)
  have hdrop : txt.toList.dropWhile esEspacio = c :: cs := by
    rw [hcs, List.dropWhile_cons_of_neg (by rw [not_esEspacio_of_isDigit hc]; simp)]
  unfold cifras negativo
  rw [hdrop, hcs]
  constructor
  · split
    · next heq =>
      obtain ⟨rfl, _⟩ := List.cons.inj heq
      exact absurd hc (by decide)
    · next heq =>
      obtain ⟨rfl, _⟩ := List.cons.inj heq
      exact absurd hc (by decide)
    · rfl
  · split
    · next heq =>
      obtain ⟨rfl, _⟩ := List.cons.inj heq
      exact absurd hc (by decide)
    · rfl

end Cifras

section Exactitud

/-- What READ and WRITE may do with an argument. -/
structure LecturaExacta (txt : String) : Prop where
  acepta : ∀ v, parseSizeTSafe txt = some v ↔ Dice txt v
  write : (∀ v, ¬ Dice txt v) → ∀ (σ : Type) (ram : Ram) (reloj : Reloj) (srv : Servidor σ)
    (e : Proceso σ) (inst : Instruccion), inst.arg2 = txt →
    ejecutarWrite ram reloj srv e inst = (e, false)
  read : (∀ v, ¬ Dice txt v) → ∀ (σ : Type) (ram : Ram) (reloj : Reloj) (srv : Servidor σ)
    (e : Proceso σ) (inst : Instruccion), inst.arg2 = txt ∨ inst.arg3 = txt →
    ejecutarRead ram reloj srv e inst = (e, false)

/-- The text is not empty, and if it is digits behind blanks and a sign then it is all
digits and their value is a size_t. -/
def SoloDigitos (txt : String) : Prop :=
  txt ≠ "" ∧ (Digitos (cifras txt) → cifras txt = txt.toList ∧ valor txt.toList < 2 ^ 64)

theorem parseSizeTSafe_iff (h : SoloDigitos txt) (v : ℕ) :
    parseSizeTSafe txt = some v ↔ Dice txt v := by
  obtain ⟨hne, hcifras⟩ := h
  rw [parseSizeTSafe_eq hne]
  constructor
  · intro hv
    split_ifs at hv with hdigitos
    obtain ⟨heq, hlt⟩ := hcifras hdigitos
    rw [heq] at hdigitos
    have hnegativo := (cifras_of_digitos hdigitos).2
    rw [heq, hnegativo] at hv
    refine ⟨hdigitos, ?_, ?_⟩
    all_goals
      unfold valorSizeT at hv
      rw [if_neg (by omega), if_neg (by simp)] at hv
      have hvalor := Option.some.inj hv
      omega
  · intro hdice
    obtain ⟨hdigitos, rfl, hlt⟩ := hdice
    obtain ⟨heq, hnegativo⟩ := cifras_of_digitos hdigitos
    rw [heq, hnegativo, if_pos hdigitos]
    unfold valorSizeT
    rw [if_neg (by omega), if_neg (by simp)]

/-- A text is read exactly when it is none of those that pass by mistake. -/
theorem lecturaExacta_iff (txt : String) : LecturaExacta txt ↔ SoloDigitos txt := by
  constructor
  · intro h
    have hne : txt ≠ "" := by
      intro hvacio
      have hcero : parseSizeTSafe txt = some 0 := by
        rw [hvacio]
        rfl
      have hdigitos := ((h.acepta 0).mp hcero).1
      rw [hvacio] at hdigitos
      exact hdigitos.1 rfl
    refine ⟨hne, fun hdigitos => ?_⟩
    have hpasa := parseSizeTSafe_eq hne
    rw [if_pos hdigitos] at hpasa
    obtain ⟨htodo, hvalor, hlt⟩ := (h.acepta _).mp hpasa
    exact ⟨(cifras_of_digitos htodo).1, by omega⟩
  · intro h
    have hacepta := parseSizeTSafe_iff h
    have hnone : (∀ v, ¬ Dice txt v) → parseSizeTSafe txt = none := by
      intro hno
      exact Option.eq_none_iff_forall_ne_some.mpr fun v hv => hno v ((hacepta v).mp hv)
    refine ⟨hacepta, fun hno σ ram reloj srv e inst harg => ?_,
      fun hno σ ram reloj srv e inst harg => ?_⟩
    · refine ejecutarWrite_malFormado (Or.inr (Or.inl ?_))
      rw [harg, hnone hno]
    · refine ejecutarRead_malFormado (Or.inr (harg.imp (fun heq => ?_) fun heq => ?_))
      · rw [heq, hnone hno]
      · rw [heq, hnone hno]

/-- "-1" is taken for the largest size_t. -/
theorem not_lecturaExacta : ¬ ∀ txt, LecturaExacta txt := by
  intro h
  obtain ⟨hdigitos, _⟩ := ((h "-1").acepta (2 ^ 64 - 1)).mp rfl
  exact absurd (hdigitos.2 '-' (List.mem_cons_self ..)) (by decide)

end Exactitud

end MasterOfFiles.NumericArguments
