import Mathlib.Data.List.Sort

/-!
Lists sorted by a comparator that says when its first argument goes before its
second. The comparator need not tell all elements apart: it is a strict weak order,
and a list is sorted when no later element goes before an earlier one. A sort is
any function that permutes the list and sorts it for every such comparator.
-/
namespace MasterOfFiles.SortedLists

variable {α : Type*}

structure StrictWeak (lt : α → α → Bool) : Prop where
  asymm : ∀ a b, lt a b = true → lt b a = false
  cotrans : ∀ a b c, lt a c = true → lt a b = true ∨ lt b c = true

def Sorted (lt : α → α → Bool) (l : List α) : Prop := l.Pairwise fun a b => lt b a = false

structure ListSort (α : Type*) where
  sort : (α → α → Bool) → List α → List α
  perm : ∀ lt l, (sort lt l).Perm l
  sorted : ∀ lt, StrictWeak lt → ∀ l, Sorted lt (sort lt l)

theorem StrictWeak.not_lt_trans {lt : α → α → Bool} (h : StrictWeak lt) {a b c : α}
    (hab : lt b a = false) (hbc : lt c b = false) : lt c a = false := by
  rw [← Bool.not_eq_true]
  intro hca
  rcases h.cotrans c b a hca with hcb | hba
  · rw [hbc] at hcb
    exact Bool.false_ne_true hcb
  · rw [hab] at hba
    exact Bool.false_ne_true hba

/-- Comparing by a key keeps a strict weak order. -/
theorem StrictWeak.comap {β : Type*} {lt : β → β → Bool} (h : StrictWeak lt) (f : α → β) :
    StrictWeak fun a b => lt (f a) (f b) :=
  ⟨fun a b => h.asymm (f a) (f b), fun a b c => h.cotrans (f a) (f b) (f c)⟩

/-- Insertion sort, which is stable. -/
def insertionSort (α : Type*) : ListSort α where
  sort lt l := l.insertionSort fun a b => lt b a = false
  perm lt l := List.perm_insertionSort _ l
  sorted lt h l := by
    have htotal : Std.Total fun a b => lt b a = false := by
      refine ⟨fun a b => ?_⟩
      cases hba : lt b a with
      | false => exact Or.inl rfl
      | true => exact Or.inr (h.asymm b a hba)
    have htrans : IsTrans α fun a b => lt b a = false :=
      ⟨fun _ _ _ hab hbc => h.not_lt_trans hab hbc⟩
    exact List.pairwise_insertionSort _ l

end MasterOfFiles.SortedLists
