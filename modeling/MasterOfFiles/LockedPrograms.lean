import Mathlib.Data.Finset.Basic

/-!
Programs over non-recursive mutexes. A program's state is the set of mutexes it holds,
locking one of them again is an error it never comes back from, and a program computes a
result if it ends with it and holds what it held before.
-/
namespace MasterOfFiles.LockedPrograms

variable {M ε α β : Type} [DecidableEq M] {m : M} {held held' : Finset M} {e : ε}

abbrev Locked (M ε α : Type) := StateT (Finset M) (Except ε) α

/-- `e` stands for the wait that does not end. -/
def lock (e : ε) (m : M) : Locked M ε Unit := fun held =>
  if m ∈ held then .error e else .ok ((), insert m held)

def unlock (m : M) : Locked M ε Unit := fun held => .ok ((), held.erase m)

variable {p : Locked M ε α} {f : α → Locked M ε β} {a : α} {r : Except ε α}

section Run

omit [DecidableEq M] in
theorem bind_of_ok (h : p held = .ok (a, held')) : (p >>= f) held = f a held' := by
  change Except.bind (p held) _ = _
  rw [h]
  rfl

omit [DecidableEq M] in
theorem bind_of_error (h : p held = .error e) : (p >>= f) held = .error e := by
  change Except.bind (p held) _ = _
  rw [h]
  rfl

theorem lock_of_notMem (h : m ∉ held) : lock e m held = .ok ((), insert m held) := if_neg h

theorem lock_bind {f : Unit → Locked M ε β} (h : m ∉ held) :
    (lock e m >>= f) held = f () (insert m held) := bind_of_ok (lock_of_notMem h)

theorem relock_bind {f : Unit → Locked M ε β} (h : m ∈ held) :
    (lock e m >>= f) held = .error e := bind_of_error (if_pos h)

theorem unlock_bind {f : Unit → Locked M ε β} :
    (unlock m >>= f) held = f () (held.erase m) := rfl

end Run

section Computes

/-- From `held` on, `p` ends with `r` and holds `held` again. -/
def Computes (held : Finset M) (p : Locked M ε α) (r : Except ε α) : Prop :=
  p held = r.map fun a => (a, held)

omit [DecidableEq M] in
theorem computes_pure (held : Finset M) (a : α) : Computes held (pure a : Locked M ε α) (.ok a) :=
  rfl

omit [DecidableEq M] in
theorem computes_bind {g : α → Except ε β} (hp : Computes held p r)
    (hf : ∀ a, r = .ok a → Computes held (f a) (g a)) :
    Computes held (p >>= f) (r.bind g) := by
  cases r with
  | error e => exact bind_of_error hp
  | ok a => exact (bind_of_ok hp).trans (hf a rfl)

omit [DecidableEq M] in
theorem computes_bind_ok {r : Except ε β} (hp : Computes held p (.ok a))
    (hf : Computes held (f a) r) : Computes held (p >>= f) r :=
  computes_bind (g := fun _ => r) hp fun _ h => Except.ok.inj h ▸ hf

/-- What is done under a mutex. -/
theorem computes_lock {f : Unit → Locked M ε α} (h : m ∉ held)
    (hf : f () (insert m held) = r.map fun a => (a, held)) :
    Computes held (lock e m >>= f) r := (lock_bind h).trans hf

theorem unlock_insert {f : Unit → Locked M ε α} (h : m ∉ held)
    (hf : Computes held (f ()) r) :
    (unlock m >>= f) (insert m held) = r.map fun a => (a, held) := by
  rw [unlock_bind, Finset.erase_insert h]
  exact hf

end Computes

section Clean

/-- Started with no mutex held, `p` never locks one it holds, and it holds none when it
ends. -/
def Clean (e : ε) (p : Locked M ε α) : Prop :=
  match p ∅ with
  | .ok (_, held) => held = ∅
  | .error e' => e' ≠ e

omit [DecidableEq M] in
theorem clean_iff (h : Computes ∅ p r) : Clean e p ↔ r ≠ .error e := by
  unfold Clean
  rw [show p ∅ = _ from h]
  cases r with
  | ok a => exact iff_of_true rfl (by simp)
  | error e' => simp [Except.map]

end Clean

end MasterOfFiles.LockedPrograms
