import Mathlib.Logic.Function.Basic

/-!
Write-back caches over an arbitrary backing store. A line in use holds the value
of one key and says whether the store has missed a write to it. `Represents` is
the relation between lines and store on one side and the flat memory they stand
for on the other; each thing a cache does is one rule about it.
-/
namespace MasterOfFiles.WriteBackCaches

variable {ι κ α : Type*}

structure Line (κ α : Type*) where
  key : κ
  value : α
  dirty : Bool

/-- Lines and store together hold the memory `flat` on the keys in `D`. -/
structure Represents (D : κ → Prop) (lines : ι → Option (Line κ α)) (store flat : κ → α) :
    Prop where
  inside : ∀ i a, lines i = some a → D a.key
  unique : ∀ i j a b, lines i = some a → lines j = some b → a.key = b.key → i = j
  agrees : ∀ i a, lines i = some a → a.value = flat a.key
  clean : ∀ k, D k → (∀ i a, lines i = some a → a.key = k → a.dirty = false) → store k = flat k

variable {D : κ → Prop} {lines : ι → Option (Line κ α)} {store store' flat : κ → α}

/-- Without lines the store is the memory. -/
theorem represents_empty (h : ∀ k, D k → store k = flat k) :
    Represents D (fun _ : ι => none) store flat where
  inside := fun _ _ h => absurd h (by simp)
  unique := fun _ _ _ _ h => absurd h (by simp)
  agrees := fun _ _ h => absurd h (by simp)
  clean := fun k hk _ => h k hk

/-- A key that no line holds is read from the store. -/
theorem Represents.store_of_uncached (h : Represents D lines store flat) {k : κ} (hk : D k)
    (hun : ∀ i a, lines i = some a → a.key ≠ k) : store k = flat k :=
  h.clean k hk fun i a ha heq => absurd heq (hun i a ha)

/-- With no dirty line left the store holds the flat memory. -/
theorem Represents.store_eq (h : Represents D lines store flat)
    (hclean : ∀ i a, lines i = some a → a.dirty = false) {k : κ} (hk : D k) :
    store k = flat k :=
  h.clean k hk fun i a ha _ => hclean i a ha

/-- Only the store's values on `D` matter. -/
theorem Represents.congr_store (h : Represents D lines store flat)
    (hstore : ∀ k, D k → store' k = store k) : Represents D lines store' flat where
  inside := h.inside
  unique := h.unique
  agrees := h.agrees
  clean := fun k hk hclean => (hstore k hk).trans (h.clean k hk hclean)

/-- What the store has for the key of a dirty line does not matter. -/
theorem Represents.store_dirty (h : Represents D lines store flat) {i : ι} {a : Line κ α}
    (hi : lines i = some a) (hdirty : a.dirty = true)
    (hstore : ∀ k, D k → k ≠ a.key → store' k = store k) : Represents D lines store' flat where
  inside := h.inside
  unique := h.unique
  agrees := h.agrees
  clean := by
    intro k hk hclean
    have hne : k ≠ a.key := by
      rintro rfl
      exact absurd ((hclean i a hi rfl).symm.trans hdirty) (by simp)
    exact (hstore k hk hne).trans (h.clean k hk hclean)

/-- Lines other than `i` hold other keys than the new line. -/
def Apart (lines : ι → Option (Line κ α)) (i : ι) (k : κ) : Prop :=
  ∀ j a, lines j = some a → j ≠ i → a.key ≠ k

theorem Represents.apart (h : Represents D lines store flat) {i : ι} {a : Line κ α}
    (hi : lines i = some a) : Apart lines i a.key :=
  fun j b hb hne heq => hne (h.unique j i b a hb hi heq)

section Update

variable [DecidableEq ι]

theorem update_eq_some {i j : ι} {a : Option (Line κ α)} {b : Line κ α}
    (h : Function.update lines i a j = some b) :
    j = i ∧ a = some b ∨ j ≠ i ∧ lines j = some b := by
  rcases eq_or_ne j i with rfl | hne
  · rw [Function.update_self] at h
    exact Or.inl ⟨rfl, h⟩
  · rw [Function.update_of_ne hne] at h
    exact Or.inr ⟨hne, h⟩

theorem update_none_eq_some {i j : ι} {b : Line κ α}
    (h : Function.update lines i none j = some b) : j ≠ i ∧ lines j = some b := by
  rcases update_eq_some h with ⟨-, hnone⟩ | hold
  · simp at hnone
  · exact hold

theorem Represents.unique_none (h : Represents D lines store flat) (i j j' : ι) (a b : Line κ α)
    (ha : Function.update lines i none j = some a) (hb : Function.update lines i none j' = some b)
    (heq : a.key = b.key) : j = j' :=
  h.unique j j' a b (update_none_eq_some ha).2 (update_none_eq_some hb).2 heq

/-- A line may be dropped when the store has not missed a write to it. -/
theorem Represents.drop (h : Represents D lines store flat) {i : ι}
    (hi : ∀ a, lines i = some a → a.dirty = false) :
    Represents D (Function.update lines i none) store flat where
  inside := fun j a ha => h.inside j a (update_none_eq_some ha).2
  unique := h.unique_none i
  agrees := fun j a ha => h.agrees j a (update_none_eq_some ha).2
  clean := by
    intro k hk hclean
    refine h.clean k hk fun j a ha hkey => ?_
    rcases eq_or_ne j i with rfl | hne
    · exact hi a ha
    · exact hclean j a ((Function.update_of_ne hne _ _).trans ha) hkey

/-- Any line may be discarded when the memory is then taken to be what the store has. -/
theorem Represents.discard [DecidableEq κ] (h : Represents D lines store flat) {i : ι}
    {a : Line κ α} (hi : lines i = some a) (store' : κ → α)
    (hstore : ∀ k, D k → k ≠ a.key → store' k = store k) :
    Represents D (Function.update lines i none) store'
      (Function.update flat a.key (store' a.key)) where
  inside := fun j b hb => h.inside j b (update_none_eq_some hb).2
  unique := h.unique_none i
  agrees := by
    intro j b hb
    obtain ⟨hne, hold⟩ := update_none_eq_some hb
    rw [Function.update_of_ne (h.apart hi j b hold hne)]
    exact h.agrees j b hold
  clean := by
    intro k hk hclean
    rcases eq_or_ne k a.key with rfl | hkey
    · rw [Function.update_self]
    · rw [Function.update_of_ne hkey, hstore k hk hkey]
      refine h.clean k hk fun j b hb hkey' => ?_
      have hne : j ≠ i := by
        rintro rfl
        obtain rfl := Option.some.inj (hi.symm.trans hb)
        exact hkey hkey'.symm
      exact hclean j b ((Function.update_of_ne hne _ _).trans hb) hkey'

theorem Represents.inside_update (h : Represents D lines store flat) {i : ι} {new : Line κ α}
    (hk : D new.key) (j : ι) (a : Line κ α) (ha : Function.update lines i (some new) j = some a) :
    D a.key := by
  rcases update_eq_some ha with ⟨-, hnew⟩ | ⟨-, hold⟩
  · obtain rfl := Option.some.inj hnew
    exact hk
  · exact h.inside j a hold

theorem Represents.unique_update (h : Represents D lines store flat) {i : ι} {new : Line κ α}
    (hapart : Apart lines i new.key) (j j' : ι) (a b : Line κ α)
    (ha : Function.update lines i (some new) j = some a)
    (hb : Function.update lines i (some new) j' = some b) (heq : a.key = b.key) : j = j' := by
  rcases update_eq_some ha with ⟨rfl, hnew⟩ | ⟨hne, hold⟩
  · obtain rfl := Option.some.inj hnew
    rcases update_eq_some hb with ⟨rfl, -⟩ | ⟨hne', hold'⟩
    · rfl
    · exact absurd heq.symm (hapart j' b hold' hne')
  · rcases update_eq_some hb with ⟨rfl, hnew⟩ | ⟨-, hold'⟩
    · obtain rfl := Option.some.inj hnew
      exact absurd heq (hapart j a hold hne)
    · exact h.unique j j' a b hold hold' heq

/-- Loading a key no line holds into a line not in use. -/
theorem Represents.load (h : Represents D lines store flat) {i : ι} (hi : lines i = none) {k : κ}
    (hk : D k) (hun : ∀ j a, lines j = some a → a.key ≠ k) :
    Represents D (Function.update lines i (some ⟨k, store k, false⟩)) store flat where
  inside := h.inside_update hk
  unique := h.unique_update fun j a ha _ => hun j a ha
  agrees := by
    intro j a ha
    rcases update_eq_some ha with ⟨-, hnew⟩ | ⟨-, hold⟩
    · obtain rfl := Option.some.inj hnew
      exact h.store_of_uncached hk hun
    · exact h.agrees j a hold
  clean := by
    intro k' hk' hclean
    refine h.clean k' hk' fun j a ha hkey => ?_
    have hne : j ≠ i := by
      rintro rfl
      simp [hi] at ha
    exact hclean j a ((Function.update_of_ne hne _ _).trans ha) hkey

/-- Away from the key of line `i`, an update of that line leaves `clean` as it was. -/
theorem Represents.clean_update (h : Represents D lines store flat) {i : ι} {a new : Line κ α}
    (hi : lines i = some a) {k : κ} (hk : D k) (hkey : k ≠ a.key)
    (hclean : ∀ j b, Function.update lines i (some new) j = some b → b.key = k →
      b.dirty = false) : store k = flat k := by
  refine h.clean k hk fun j b hb hkey' => ?_
  have hne : j ≠ i := by
    rintro rfl
    obtain rfl := Option.some.inj (hi.symm.trans hb)
    exact hkey hkey'.symm
  exact hclean j b ((Function.update_of_ne hne _ _).trans hb) hkey'

variable [DecidableEq κ]

/-- Writing to a line in use. -/
theorem Represents.put (h : Represents D lines store flat) {i : ι} {a : Line κ α}
    (hi : lines i = some a) (v : α) :
    Represents D (Function.update lines i (some ⟨a.key, v, true⟩)) store
      (Function.update flat a.key v) where
  inside := h.inside_update (h.inside i a hi)
  unique := h.unique_update fun j b hb hne => h.apart hi j b hb hne
  agrees := by
    intro j b hb
    rcases update_eq_some hb with ⟨-, hnew⟩ | ⟨hne, hold⟩
    · obtain rfl := Option.some.inj hnew
      exact (Function.update_self a.key v flat).symm
    · rw [Function.update_of_ne (h.apart hi j b hold hne)]
      exact h.agrees j b hold
  clean := by
    intro k hk hclean
    have hkey : k ≠ a.key := by
      rintro rfl
      have hdirty := hclean i ⟨a.key, v, true⟩ (Function.update_self ..) rfl
      simp at hdirty
    rw [Function.update_of_ne hkey]
    exact h.clean_update hi hk hkey hclean

/-- Writing a line back to the store. -/
theorem Represents.writeBack (h : Represents D lines store flat) {i : ι} {a : Line κ α}
    (hi : lines i = some a)
    (hstore : ∀ k, D k → store' k = Function.update store a.key a.value k) :
    Represents D (Function.update lines i (some { a with dirty := false })) store' flat where
  inside := h.inside_update (h.inside i a hi)
  unique := h.unique_update fun j b hb hne => h.apart hi j b hb hne
  agrees := by
    intro j b hb
    rcases update_eq_some hb with ⟨-, hnew⟩ | ⟨-, hold⟩
    · obtain rfl := Option.some.inj hnew
      exact h.agrees i a hi
    · exact h.agrees j b hold
  clean := by
    intro k hk hclean
    rw [hstore k hk]
    rcases eq_or_ne k a.key with rfl | hkey
    · rw [Function.update_self]
      exact h.agrees i a hi
    · rw [Function.update_of_ne hkey]
      exact h.clean_update hi hk hkey hclean

end Update

end MasterOfFiles.WriteBackCaches
