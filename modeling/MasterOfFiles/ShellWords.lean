import MasterOfFiles.ByteBuffers

/-!
The words that sh makes of a command it does nothing else with. A byte with a meaning of
its own for the shell, or a word that begins with '#' or '~', stands for something else
than itself, and then no words are given. A word is read back from its command just when
none of that occurs in it.
-/
namespace MasterOfFiles.ShellWords

open ByteBuffers

def esBlanco (c : UInt8) : Bool := c = 9 ∨ c = 32

/-- The newline, the quotes and what begins an operator, an expansion or a pattern. -/
def especiales : List UInt8 :=
  [10, 34, 36, 38, 39, 40, 41, 42, 59, 60, 62, 63, 91, 92, 96, 124]

/-- The first byte is not '#' or '~'. -/
def empiezaLiteral (w : Bytes) : Bool := w.head? ≠ some 35 ∧ w.head? ≠ some 126

def palabras (c : Bytes) : List Bytes := (c.splitOnP esBlanco).filter (· ≠ [])

def palabrasShell (c : Bytes) : Option (List Bytes) :=
  if c.all (· ∉ especiales) ∧ (palabras c).all empiezaLiteral then some (palabras c)
  else none

/-- A byte that stands for itself anywhere in a word. -/
def Comun (b : UInt8) : Prop := b ∉ especiales ∧ esBlanco b = false

instance (b : UInt8) : Decidable (Comun b) := inferInstanceAs (Decidable (_ ∧ _))

variable {c w : Bytes}

theorem flatten_splitOnP {α : Type} (p : α → Bool) (l : List α) :
    (l.splitOnP p).flatten = l.filter fun x => !p x := by
  induction l with
  | nil => rfl
  | cons x xs ih =>
    rw [List.splitOnP_cons_eq_if_modifyHead]
    obtain ⟨y, ys, hsplit⟩ := List.exists_cons_of_ne_nil (List.splitOnP_ne_nil p xs)
    rw [hsplit, List.flatten_cons] at ih
    cases hx : p x with
    | true => simp [hx, hsplit, ih]
    | false => simp [hx, hsplit, ih]

/-- The words have the bytes of the command that are not blank, in order. -/
theorem flatten_palabras (c : Bytes) : (palabras c).flatten = c.filter fun b => !esBlanco b := by
  rw [palabras, List.flatten_filter_ne_nil, flatten_splitOnP]

theorem palabras_append_cons (a b : Bytes) {x : UInt8} (hx : esBlanco x = true) :
    palabras (a ++ x :: b) = palabras a ++ palabras b := by
  rw [palabras, List.splitOnP_append_cons a b hx, List.filter_append]
  rfl

theorem palabras_of_sinBlancos (h : ∀ b ∈ w, esBlanco b = false) (hw : w ≠ []) :
    palabras w = [w] := by
  rw [palabras, List.splitOnP_eq_singleton h]
  simp [hw]

/-- What is left of a word that was cut off is the word only when nothing was. -/
theorem palabras_take_iff (w : Bytes) (n : ℕ) :
    palabras (w.take n) = [w] ↔ w ≠ [] ∧ w.length ≤ n ∧ ∀ b ∈ w, esBlanco b = false := by
  constructor
  · intro h
    have hflat := flatten_palabras (w.take n)
    rw [h, List.flatten_singleton] at hflat
    have hlen : w.length ≤ (w.take n).length :=
      (congrArg List.length hflat).trans_le (List.length_filter_le ..)
    have htake : w.take n = w := List.take_of_length_le (by
      rw [List.length_take] at hlen
      omega)
    rw [htake] at hflat
    refine ⟨?_, ?_, fun b hb => ?_⟩
    · intro hw
      rw [htake, hw] at h
      exact absurd h (by decide)
    · rw [List.length_take] at hlen
      omega
    · rw [hflat] at hb
      simpa using (List.mem_filter.mp hb).2
  · rintro ⟨hw, hn, hblancos⟩
    rw [List.take_of_length_le hn]
    exact palabras_of_sinBlancos hblancos hw

/-- A word put behind a command is read back whole just when it fits and every byte of it
stands for itself. -/
theorem palabrasShell_argumento_iff {a : Bytes} {x : UInt8} (ha : ∀ b ∈ a, b ∉ especiales)
    (ha' : ∀ v ∈ palabras a, empiezaLiteral v) (hx : esBlanco x = true) (hx' : x ∉ especiales)
    (w : Bytes) (n : ℕ) :
    palabrasShell (a ++ x :: w.take n) = some (palabras a ++ [w]) ↔
      w ≠ [] ∧ w.length ≤ n ∧ (∀ b ∈ w, Comun b) ∧ empiezaLiteral w = true := by
  rw [palabrasShell, palabras_append_cons a _ hx]
  constructor
  · intro h
    split_ifs at h with hlit
    simp only [List.all_eq_true, decide_eq_true_eq] at hlit
    obtain ⟨hbytes, hinicios⟩ := hlit
    have hpal := List.append_cancel_left (Option.some.inj h)
    obtain ⟨hw, hn, hblancos⟩ := (palabras_take_iff w n).mp hpal
    rw [List.take_of_length_le hn] at hbytes hpal
    refine ⟨hw, hn, fun b hb => ⟨hbytes b ?_, hblancos b hb⟩, hinicios w ?_⟩
    · exact List.mem_append_right _ (List.mem_cons_of_mem _ hb)
    · rw [List.take_of_length_le hn, hpal]
      exact List.mem_append_right _ (List.mem_singleton_self w)
  · rintro ⟨hw, hn, hcomun, hinicio⟩
    have hpal := (palabras_take_iff w n).mpr ⟨hw, hn, fun b hb => (hcomun b hb).2⟩
    rw [hpal, if_pos]
    simp only [List.all_eq_true, decide_eq_true_eq]
    constructor
    · intro b hb
      rcases List.mem_append.mp hb with hb | hb
      · exact ha b hb
      · rcases List.mem_cons.mp hb with rfl | hb
        · exact hx'
        · exact (hcomun b (List.mem_of_mem_take hb)).1
    · intro v hv
      rcases List.mem_append.mp hv with hv | hv
      · exact ha' v hv
      · obtain rfl := List.mem_singleton.mp hv
        exact hinicio

end MasterOfFiles.ShellWords
