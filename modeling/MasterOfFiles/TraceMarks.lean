import Mathlib.Data.List.Forall2

/-!
Traces in which a mark is put once and nothing of another kind comes after it. A
trace that is cut into blocks, one for each element of a list, has its mark that way
exactly when the list has it, provided that every block counts as late.
-/
namespace MasterOfFiles.TraceMarks

variable {α β : Type*}

/-- One element is a mark, and no later one is a mark or `late`. -/
def OnceAndLast (mark late : β → Prop) (tr : List β) : Prop :=
  ∃ a m b, tr = a ++ m :: b ∧ mark m ∧ (∀ x ∈ a, ¬mark x) ∧ ∀ x ∈ b, ¬mark x ∧ ¬late x

variable {mark late : β → Prop}

theorem not_onceAndLast_nil : ¬OnceAndLast mark late [] := by
  rintro ⟨a, m, b, htr, -⟩
  simp at htr

theorem onceAndLast_cons_of_mark {m : β} (hm : mark m) (tr : List β) :
    OnceAndLast mark late (m :: tr) ↔ ∀ x ∈ tr, ¬mark x ∧ ¬late x := by
  constructor
  · rintro ⟨a, m', b, htr, -, ha, hb⟩
    cases a with
    | nil =>
      obtain ⟨-, rfl⟩ := List.cons.inj htr
      exact hb
    | cons y a =>
      obtain ⟨rfl, -⟩ := List.cons.inj htr
      exact absurd hm (ha m (List.mem_cons_self ..))
  · intro h
    exact ⟨[], m, tr, rfl, hm, fun x hx => absurd hx List.not_mem_nil, h⟩

theorem onceAndLast_cons_of_not_mark {x : β} (hx : ¬mark x) (tr : List β) :
    OnceAndLast mark late (x :: tr) ↔ OnceAndLast mark late tr := by
  constructor
  · rintro ⟨a, m, b, htr, hm, ha, hb⟩
    cases a with
    | nil =>
      obtain ⟨rfl, -⟩ := List.cons.inj htr
      exact absurd hm hx
    | cons y a =>
      obtain ⟨-, rfl⟩ := List.cons.inj htr
      exact ⟨a, m, b, rfl, hm, fun z hz => ha z (List.mem_cons_of_mem _ hz), hb⟩
  · rintro ⟨a, m, b, rfl, hm, ha, hb⟩
    exact ⟨x :: a, m, b, rfl, hm, List.forall_mem_cons.mpr ⟨hx, ha⟩, hb⟩

theorem onceAndLast_append_of_not_mark {pre : List β} (h : ∀ x ∈ pre, ¬mark x) (tr : List β) :
    OnceAndLast mark late (pre ++ tr) ↔ OnceAndLast mark late tr := by
  induction pre with
  | nil => exact Iff.rfl
  | cons x pre ih =>
    obtain ⟨hx, hpre⟩ := List.forall_mem_cons.mp h
    exact (onceAndLast_cons_of_not_mark hx _).trans (ih hpre)

/-- What the block of an element may be: marked elements have a block with one mark,
at its end but for harmless elements, the other ones none, and each has something late. -/
structure IsBlock (P : α → Prop) (mark late : β → Prop) (x : α) (b : List β) : Prop where
  marked : P x → OnceAndLast mark late b
  unmarked : ¬P x → ∀ y ∈ b, ¬mark y
  late : ∃ y ∈ b, late y

variable {P : α → Prop} {xs : List α} {bs : List (List β)}

theorem flatten_eq_nil_of_late (h : List.Forall₂ (IsBlock P mark late) xs bs)
    (hno : ∀ y ∈ bs.flatten, ¬late y) : xs = [] := by
  cases h with
  | nil => rfl
  | cons hx _ =>
    obtain ⟨y, hy, hlate⟩ := hx.late
    exact absurd hlate (hno y (List.mem_append_left _ hy))

theorem onceAndLast_append {b tr : List β} (hb : OnceAndLast mark late b) :
    OnceAndLast mark late (b ++ tr) ↔ ∀ x ∈ tr, ¬mark x ∧ ¬late x := by
  obtain ⟨a, m, b', rfl, hm, ha, hb'⟩ := hb
  rw [List.append_assoc, onceAndLast_append_of_not_mark ha, List.cons_append,
    onceAndLast_cons_of_mark hm]
  constructor
  · intro h x hx
    exact h x (List.mem_append_right _ hx)
  · intro h x hx
    rcases List.mem_append.mp hx with hx | hx
    · exact hb' x hx
    · exact h x hx

/-- The blocks of a list have their mark once and last exactly when one element of the
list is marked and it is the last one. -/
theorem onceAndLast_flatten_iff (h : List.Forall₂ (IsBlock P mark late) xs bs) :
    OnceAndLast mark late bs.flatten ↔ OnceAndLast P (fun _ => True) xs := by
  induction h with
  | nil => exact iff_of_false not_onceAndLast_nil not_onceAndLast_nil
  | @cons x b xs bs hx hrest ih =>
    rw [List.flatten_cons]
    by_cases hP : P x
    · rw [onceAndLast_append (hx.marked hP), onceAndLast_cons_of_mark hP]
      constructor
      · intro hno
        have hnil : xs = [] := flatten_eq_nil_of_late hrest fun y hy => (hno y hy).2
        rw [hnil]
        exact fun y hy => absurd hy List.not_mem_nil
      · intro hno
        have hnil : xs = [] := List.eq_nil_iff_forall_not_mem.mpr fun y hy =>
          (hno y hy).2 trivial
        subst hnil
        cases hrest
        exact fun y hy => absurd hy List.not_mem_nil
    · rw [onceAndLast_append_of_not_mark (hx.unmarked hP), onceAndLast_cons_of_not_mark hP]
      exact ih

end MasterOfFiles.TraceMarks
