import Mathlib.Data.List.Basic
import Mathlib.Algebra.BigOperators.Group.List.Basic

/-!
Lists searched by key. Entries carry a key, lookups return the first entry
with a given key, and updates and removals act on that same entry, so a second
entry with the key stays invisible until the first one is removed.
Nothing here assumes that keys are distinct.
-/
namespace MasterOfFiles.KeyedLists

variable {α κ : Type*} [DecidableEq κ]

/-- The first entry whose key is `k`. -/
def first (key : α → κ) (k : κ) : List α → Option α
  | [] => none
  | x :: xs => if key x = k then some x else first key k xs

def modifyFirst (key : α → κ) (k : κ) (g : α → α) : List α → List α
  | [] => []
  | x :: xs => if key x = k then g x :: xs else x :: modifyFirst key k g xs

def eraseFirst (key : α → κ) (k : κ) : List α → List α
  | [] => []
  | x :: xs => if key x = k then xs else x :: eraseFirst key k xs

variable {key : α → κ} {k k' : κ} {l : List α} {g : α → α}

theorem key_of_first {x : α} (h : first key k l = some x) : key x = k := by
  induction l with
  | nil => simp [first] at h
  | cons y ys ih =>
    by_cases hy : key y = k
    · have hx : y = x := by simpa [first, hy] using h
      exact hx ▸ hy
    · exact ih (by simpa [first, hy] using h)

theorem mem_of_first {x : α} (h : first key k l = some x) : x ∈ l := by
  induction l with
  | nil => simp [first] at h
  | cons y ys ih =>
    by_cases hy : key y = k
    · have hx : y = x := by simpa [first, hy] using h
      exact hx ▸ List.mem_cons_self ..
    · exact List.mem_cons_of_mem _ (ih (by simpa [first, hy] using h))

theorem first_eq_none_iff : first key k l = none ↔ k ∉ l.map key := by
  induction l with
  | nil => simp [first]
  | cons y ys ih =>
    by_cases hy : key y = k
    · simp [first, hy]
    · simp only [first, if_neg hy, ih, List.map_cons, List.mem_cons, not_or]
      exact ⟨fun h => ⟨Ne.symm hy, h⟩, fun h => h.2⟩

theorem first_of_nodup {x : α} (h : (l.map key).Nodup) (hx : x ∈ l) :
    first key (key x) l = some x := by
  induction l with
  | nil => exact absurd hx List.not_mem_nil
  | cons y ys ih =>
    obtain ⟨hy, hys⟩ := List.nodup_cons.mp h
    rcases List.mem_cons.mp hx with rfl | hmem
    · simp [first]
    · have hne : key y ≠ key x := fun heq => hy (heq ▸ List.mem_map_of_mem hmem)
      rw [first, if_neg hne]
      exact ih hys hmem

theorem first_append (l' : List α) :
    first key k (l ++ l') = (first key k l).or (first key k l') := by
  induction l with
  | nil => simp [first]
  | cons y ys ih =>
    by_cases hy : key y = k
    · simp [first, hy]
    · simpa [first, hy] using ih

theorem first_modifyFirst_self (hg : ∀ x, key (g x) = key x) :
    first key k (modifyFirst key k g l) = (first key k l).map g := by
  induction l with
  | nil => rfl
  | cons y ys ih =>
    by_cases hy : key y = k
    · simp [first, modifyFirst, hy, hg]
    · simpa [first, modifyFirst, hy] using ih

theorem first_modifyFirst_ne (hg : ∀ x, key (g x) = key x) (hk : k' ≠ k) :
    first key k' (modifyFirst key k g l) = first key k' l := by
  induction l with
  | nil => rfl
  | cons y ys ih =>
    by_cases hy : key y = k
    · have hy' : key y ≠ k' := fun h => hk (h.symm.trans hy)
      simp [first, modifyFirst, hy, hg, Ne.symm hk]
    · by_cases hy' : key y = k'
      · simp [first, modifyFirst, hy', hk]
      · simpa [first, modifyFirst, hy, hy'] using ih

theorem map_modifyFirst {β : Type*} {φ : α → β} (hφ : ∀ x, φ (g x) = φ x) :
    (modifyFirst key k g l).map φ = l.map φ := by
  induction l with
  | nil => rfl
  | cons y ys ih =>
    by_cases hy : key y = k
    · simp [modifyFirst, hy, hφ]
    · simpa [modifyFirst, hy] using ih

/-- An update that fixes the entry found, if there is one, changes nothing. -/
theorem modifyFirst_eq_self (h : ∀ x, first key k l = some x → g x = x) :
    modifyFirst key k g l = l := by
  induction l with
  | nil => rfl
  | cons y ys ih =>
    by_cases hy : key y = k
    · simp only [modifyFirst, if_pos hy]
      rw [h y (by simp [first, hy])]
    · simp only [modifyFirst, if_neg hy]
      rw [ih fun x hx => h x (by simpa [first, hy] using hx)]

/-- Two updates of the same entry are one. -/
theorem modifyFirst_modifyFirst {g' : α → α} (hg : ∀ x, key (g x) = key x) :
    modifyFirst key k g' (modifyFirst key k g l) = modifyFirst key k (g' ∘ g) l := by
  induction l with
  | nil => rfl
  | cons y ys ih =>
    by_cases hy : key y = k
    · simp [modifyFirst, hy, hg]
    · simp only [modifyFirst, if_neg hy, ih]

/-- A property of every entry survives an update that keeps it on the entry found. -/
theorem forall_modifyFirst {P : α → Prop} (hl : ∀ x ∈ l, P x)
    (hg : ∀ x, first key k l = some x → P (g x)) : ∀ x ∈ modifyFirst key k g l, P x := by
  induction l with
  | nil => simp [modifyFirst]
  | cons y ys ih =>
    intro x hx
    by_cases hy : key y = k
    · simp only [modifyFirst, if_pos hy, List.mem_cons] at hx
      rcases hx with rfl | hx
      · exact hg y (by simp [first, hy])
      · exact hl x (List.mem_cons_of_mem _ hx)
    · simp only [modifyFirst, if_neg hy, List.mem_cons] at hx
      rcases hx with rfl | hx
      · exact hl x (List.mem_cons_self ..)
      · refine ih (fun z hz => hl z (List.mem_cons_of_mem _ hz)) (fun z hz => hg z ?_) x hx
        simpa [first, hy] using hz

/-- Updating the entry found changes a sum over the list by that entry's share. -/
theorem sum_modifyFirst {M : Type*} [AddCommMonoid M] (f : α → M) {x : α}
    (h : first key k l = some x) :
    ((modifyFirst key k g l).map f).sum + f x = (l.map f).sum + f (g x) := by
  induction l with
  | nil => simp [first] at h
  | cons y ys ih =>
    by_cases hy : key y = k
    · have hx : y = x := by simpa [first, hy] using h
      subst hx
      simp only [modifyFirst, if_pos hy, List.map_cons, List.sum_cons]
      rw [add_assoc, add_comm, add_comm (List.map f ys).sum]
    · have htail := ih (by simpa [first, hy] using h)
      simp only [modifyFirst, if_neg hy, List.map_cons, List.sum_cons]
      rw [add_assoc, htail, add_assoc]

theorem sublist_eraseFirst : (eraseFirst key k l).Sublist l := by
  induction l with
  | nil => exact List.Sublist.refl _
  | cons y ys ih =>
    by_cases hy : key y = k
    · simp [eraseFirst, hy]
    · simpa [eraseFirst, hy] using ih

theorem first_eraseFirst_ne (hk : k' ≠ k) :
    first key k' (eraseFirst key k l) = first key k' l := by
  induction l with
  | nil => rfl
  | cons y ys ih =>
    by_cases hy : key y = k
    · simp [first, eraseFirst, hy, Ne.symm hk]
    · by_cases hy' : key y = k'
      · simp [first, eraseFirst, hy', hk]
      · simpa [first, eraseFirst, hy, hy'] using ih

theorem sum_eraseFirst {M : Type*} [AddCommMonoid M] (f : α → M) {x : α}
    (h : first key k l = some x) :
    ((eraseFirst key k l).map f).sum + f x = (l.map f).sum := by
  induction l with
  | nil => simp [first] at h
  | cons y ys ih =>
    by_cases hy : key y = k
    · have hx : y = x := by simpa [first, hy] using h
      subst hx
      simp only [eraseFirst, if_pos hy, List.map_cons, List.sum_cons]
      exact add_comm _ _
    · have htail := ih (by simpa [first, hy] using h)
      simp only [eraseFirst, if_neg hy, List.map_cons, List.sum_cons]
      rw [add_assoc, htail]

section Filter

/-- The entries with a key, the one a lookup finds first. -/
def withKey (key : α → κ) (k : κ) (l : List α) : List α := l.filter fun x => key x = k

theorem first_eq_head? (l : List α) : first key k l = (withKey key k l).head? := by
  induction l with
  | nil => rfl
  | cons y ys ih =>
    by_cases hy : key y = k
    · simp [first, withKey, hy]
    · simpa [first, withKey, hy] using ih

theorem withKey_append (l l' : List α) :
    withKey key k (l ++ l') = withKey key k l ++ withKey key k l' := List.filter_append ..

theorem withKey_modifyFirst_self (hg : ∀ x, key (g x) = key x) :
    withKey key k (modifyFirst key k g l) = (withKey key k l).modifyHead g := by
  induction l with
  | nil => rfl
  | cons y ys ih =>
    by_cases hy : key y = k
    · simp [modifyFirst, withKey, hy, hg]
    · simpa [modifyFirst, withKey, hy] using ih

theorem withKey_modifyFirst_ne (hg : ∀ x, key (g x) = key x) (hk : k' ≠ k) :
    withKey key k' (modifyFirst key k g l) = withKey key k' l := by
  induction l with
  | nil => rfl
  | cons y ys ih =>
    by_cases hy : key y = k
    · simp [modifyFirst, withKey, hy, hg, hk.symm]
    · simp only [modifyFirst, if_neg hy, withKey, List.filter_cons]
      exact congrArg (fun zs => if decide (key y = k') = true then y :: zs else zs) ih

theorem withKey_eraseFirst_self :
    withKey key k (eraseFirst key k l) = (withKey key k l).tail := by
  induction l with
  | nil => rfl
  | cons y ys ih =>
    by_cases hy : key y = k
    · simp [eraseFirst, withKey, hy]
    · simpa [eraseFirst, withKey, hy] using ih

theorem withKey_eraseFirst_ne (hk : k' ≠ k) :
    withKey key k' (eraseFirst key k l) = withKey key k' l := by
  induction l with
  | nil => rfl
  | cons y ys ih =>
    by_cases hy : key y = k
    · simp [eraseFirst, withKey, hy, hk.symm]
    · simp only [eraseFirst, if_neg hy, withKey, List.filter_cons]
      exact congrArg (fun zs => if decide (key y = k') = true then y :: zs else zs) ih

end Filter

section Pairwise

variable {R : α → α → Prop}

/-- An update keeps a relation between earlier and later entries: the entry found
has no earlier entry with its key. -/
theorem pairwise_modifyFirst (hl : l.Pairwise R)
    (hbefore : ∀ x y, key x = k → key y ≠ k → R y (g x))
    (hafter : ∀ x y, R x y → R (g x) y) : (modifyFirst key k g l).Pairwise R := by
  induction l with
  | nil => exact hl
  | cons y ys ih =>
    obtain ⟨hy, hys⟩ := List.pairwise_cons.mp hl
    by_cases hkey : key y = k
    · simp only [modifyFirst, if_pos hkey]
      exact List.pairwise_cons.mpr ⟨fun z hz => hafter y z (hy z hz), hys⟩
    · simp only [modifyFirst, if_neg hkey]
      refine List.pairwise_cons.mpr ⟨?_, ih hys⟩
      exact forall_modifyFirst hy fun x hx => hbefore x y (key_of_first hx) hkey

/-- The entry a removal exposes comes after the entry removed. -/
theorem rel_of_first_eraseFirst (hl : l.Pairwise R) {x y : α} (hx : first key k l = some x)
    (hy : first key k (eraseFirst key k l) = some y) : R x y := by
  induction l with
  | nil => simp [first] at hx
  | cons z zs ih =>
    obtain ⟨hz, hzs⟩ := List.pairwise_cons.mp hl
    by_cases hkey : key z = k
    · obtain rfl : z = x := by simpa [first, hkey] using hx
      simp only [eraseFirst, if_pos hkey] at hy
      exact hz y (mem_of_first hy)
    · refine ih hzs (by simpa [first, hkey] using hx) ?_
      simpa [first, eraseFirst, hkey] using hy

end Pairwise

section LastValue

variable {β : Type*}

/-- What the last pair with key `k` puts there. -/
def lastValue (k : κ) : List (κ × β) → Option β
  | [] => none
  | x :: xs => (lastValue k xs).or (if x.1 = k then some x.2 else none)

theorem lastValue_append (xs ys : List (κ × β)) :
    lastValue k (xs ++ ys) = (lastValue k ys).or (lastValue k xs) := by
  induction xs with
  | nil => simp [lastValue]
  | cons x xs ih => rw [List.cons_append, lastValue, ih, Option.or_assoc, lastValue]

/-- Values put at consecutive places of one row. -/
theorem lastValue_zipIdx (row : κ) (src : List β) (off : ℕ) (q : κ) (o : ℕ) :
    lastValue (q, o) ((src.zipIdx off).map fun x => ((row, x.2), x.1)) =
      if row = q ∧ off ≤ o then src[o - off]? else none := by
  induction src generalizing off with
  | nil => simp [lastValue]
  | cons b src ih =>
    rw [List.zipIdx_cons, List.map_cons, lastValue, ih]
    by_cases hrow : row = q
    · rcases Nat.lt_trichotomy o off with hlt | rfl | hlt
      · rw [if_neg (by omega), if_neg (by simp; omega), if_neg (by omega)]
        rfl
      · rw [if_neg (by omega), if_pos (by rw [hrow]), if_pos ⟨hrow, Nat.le_refl _⟩, Nat.sub_self]
        rfl
      · rw [if_pos ⟨hrow, hlt⟩, if_neg (by simp; omega), if_pos ⟨hrow, by omega⟩, Option.or_none,
          show o - off = o - (off + 1) + 1 by omega, List.getElem?_cons_succ]
    · rw [if_neg (fun h => hrow h.1), if_neg (fun h => hrow (Prod.mk.inj h).1),
        if_neg (fun h => hrow h.1)]
      rfl

end LastValue

end MasterOfFiles.KeyedLists
