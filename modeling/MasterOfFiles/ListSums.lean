import Mathlib.Algebra.BigOperators.Group.List.Basic
import Mathlib.Algebra.Ring.Nat
import Mathlib.Data.List.Nodup
import Mathlib.Logic.Function.Basic

/-!
Counting over a list whose entries change one at a time. The shares are natural
numbers, and every law is an equation of sums, so that a total is followed through
a step by adding up the laws of the places the step touches.
-/
namespace MasterOfFiles.ListSums

variable {α β : Type*}

/-- The total of the shares. -/
def total (f : α → ℕ) (l : List α) : ℕ := (l.map f).sum

@[simp] theorem total_nil (f : α → ℕ) : total f [] = 0 := rfl

@[simp] theorem total_cons (f : α → ℕ) (a : α) (l : List α) :
    total f (a :: l) = f a + total f l := List.sum_cons

@[simp] theorem total_append (f : α → ℕ) (l l' : List α) :
    total f (l ++ l') = total f l + total f l' := by
  simp [total]

/-- An entry after one has changed is that one, or an old one in another place. -/
theorem getElem?_set_cases {l : List α} {k i : ℕ} {a b c : α} (hk : l[k]? = some a)
    (hi : (l.set k b)[i]? = some c) : (i = k ∧ c = b) ∨ (i ≠ k ∧ l[i]? = some c) := by
  by_cases hik : k = i
  · subst hik
    rw [List.getElem?_set_self (List.getElem?_eq_some_iff.mp hk).1] at hi
    exact Or.inl ⟨rfl, (Option.some.inj hi).symm⟩
  · rw [List.getElem?_set_ne hik] at hi
    exact Or.inr ⟨Ne.symm hik, hi⟩

theorem total_set (f : α → ℕ) {l : List α} {k : ℕ} {a : α} (h : l[k]? = some a) (b : α) :
    total f (l.set k b) + f a = total f l + f b := by
  induction l generalizing k with
  | nil => simp at h
  | cons x xs ih =>
    cases k with
    | zero =>
      obtain rfl : x = a := by simpa using h
      simp only [List.set_cons_zero, total_cons]
      omega
    | succ k =>
      have htail := ih (by simpa using h)
      simp only [List.set_cons_succ, total_cons]
      omega

theorem total_erase [DecidableEq α] (f : α → ℕ) {l : List α} {a : α} (h : a ∈ l) :
    total f (l.erase a) + f a = total f l := by
  have hperm := ((List.perm_cons_erase h).map f).sum_eq
  simp only [List.map_cons, List.sum_cons] at hperm
  simp only [total]
  omega

theorem total_set_eq (f : α → ℕ) {l : List α} {k : ℕ} {a b : α} (h : l[k]? = some a)
    (hab : f b = f a) : total f (l.set k b) = total f l := by
  have hset := total_set f h b
  omega

theorem total_congr {f g : α → ℕ} {l : List α} (h : ∀ a ∈ l, f a = g a) :
    total f l = total g l := by
  simp only [total, List.map_congr_left h]

theorem total_const (n : ℕ) (l : List α) : total (fun _ => n) l = l.length * n := by
  rw [total, List.map_const', List.sum_replicate]
  rfl

theorem total_eq_zero {f : α → ℕ} {l : List α} (h : ∀ a ∈ l, f a = 0) : total f l = 0 := by
  induction l with
  | nil => rfl
  | cons x xs ih =>
    rw [total_cons, h x (List.mem_cons_self ..), ih fun a ha => h a (List.mem_cons_of_mem _ ha)]

theorem exists_of_total_pos {f : α → ℕ} {l : List α} (h : 0 < total f l) : ∃ a ∈ l, 0 < f a := by
  by_contra hno
  have hzero : total f l = 0 := total_eq_zero fun a ha => by
    by_contra hne
    exact hno ⟨a, ha, Nat.pos_of_ne_zero hne⟩
  omega

theorem le_total_of_mem {f : α → ℕ} {l : List α} {a : α} (h : a ∈ l) : f a ≤ total f l := by
  induction l with
  | nil => exact absurd h List.not_mem_nil
  | cons x xs ih =>
    rw [total_cons]
    rcases List.mem_cons.mp h with rfl | hmem
    · omega
    · have htail := ih hmem
      omega

/-- Two entries of a list have a share each. -/
theorem add_le_total {f : α → ℕ} {l : List α} {i j : ℕ} {a b : α} (hij : i < j)
    (hi : l[i]? = some a) (hj : l[j]? = some b) : f a + f b ≤ total f l := by
  induction l generalizing i j with
  | nil => simp at hi
  | cons x xs ih =>
    obtain ⟨j, rfl⟩ := Nat.exists_eq_succ_of_ne_zero (Nat.ne_zero_of_lt hij)
    rw [Nat.succ_eq_add_one, List.getElem?_cons_succ] at hj
    rw [total_cons]
    cases i with
    | zero =>
      obtain rfl : x = a := by simpa using hi
      exact Nat.add_le_add_left (le_total_of_mem (List.mem_of_getElem? hj)) _
    | succ i =>
      have htail := ih (Nat.lt_of_succ_lt_succ hij) (by simpa using hi) hj
      omega

theorem add_le_total_of_ne {f : α → ℕ} {l : List α} {i j : ℕ} {a b : α} (hij : i ≠ j)
    (hi : l[i]? = some a) (hj : l[j]? = some b) : f a + f b ≤ total f l := by
  rcases Nat.lt_or_gt_of_ne hij with h | h
  · exact add_le_total h hi hj
  · rw [Nat.add_comm]
    exact add_le_total h hj hi

/-- The shares of one entry of a list without repetitions change. -/
theorem total_of_ne {f g : α → ℕ} {l : List α} {a : α} (hl : l.Nodup) (h : a ∈ l)
    (hne : ∀ x ∈ l, x ≠ a → g x = f x) : total g l + f a = total f l + g a := by
  induction l with
  | nil => exact absurd h List.not_mem_nil
  | cons x xs ih =>
    obtain ⟨hx, hxs⟩ := List.nodup_cons.mp hl
    simp only [total_cons]
    rcases List.mem_cons.mp h with rfl | hmem
    · have hrest : total g xs = total f xs := total_congr fun y hy =>
        hne y (List.mem_cons_of_mem _ hy) (ne_of_mem_of_not_mem hy hx)
      omega
    · have hhead := hne x (List.mem_cons_self ..) fun heq => hx (heq ▸ hmem)
      have htail := ih hxs hmem fun y hy => hne y (List.mem_cons_of_mem _ hy)
      omega

/-- A change of record that keeps the share keeps the total. -/
theorem total_update_eq [DecidableEq α] (f : β → ℕ) (m : α → β) {b : β} {a : α}
    (h : f b = f (m a)) (l : List α) :
    total (fun x => f (Function.update m a b x)) l = total (fun x => f (m x)) l :=
  total_congr fun x _ => by
    by_cases hx : x = a
    · subst hx
      rw [Function.update_self, h]
    · rw [Function.update_of_ne hx]

theorem total_update_of_notMem [DecidableEq α] (f : β → ℕ) (m : α → β) (b : β) {l : List α}
    {a : α} (h : a ∉ l) :
    total (fun x => f (Function.update m a b x)) l = total (fun x => f (m x)) l :=
  total_congr fun x hx => by
    have hne : x ≠ a := ne_of_mem_of_not_mem hx h
    rw [Function.update_of_ne hne]

/-- Changing the record of one entry of a list without repetitions changes the total by
that record's share. -/
theorem total_update [DecidableEq α] (f : β → ℕ) (m : α → β) (b : β) {l : List α} {a : α}
    (hl : l.Nodup) (h : a ∈ l) :
    total (fun x => f (Function.update m a b x)) l + f (m a) =
      total (fun x => f (m x)) l + f b := by
  induction l with
  | nil => exact absurd h List.not_mem_nil
  | cons x xs ih =>
    obtain ⟨hx, hxs⟩ := List.nodup_cons.mp hl
    simp only [total_cons]
    rcases List.mem_cons.mp h with rfl | hmem
    · have hrest := total_update_of_notMem f m b hx
      rw [Function.update_self, hrest]
      omega
    · have hne : x ≠ a := fun heq => hx (heq ▸ hmem)
      have htail := ih hxs hmem
      rw [Function.update_of_ne hne]
      omega

end MasterOfFiles.ListSums
