import MasterOfFiles.RunTraces

/-!
Runs that cannot go on for ever. If every step of a class of inputs lowers a measure
of the states of an invariant, the measure bounds the length of a run of that class,
and every run of it can be brought to a state that takes no step of the class. What is
proved of such states is then where every run ends, whatever the order of its steps.
-/
namespace MasterOfFiles.BoundedRuns

open PartialRuns RunTraces

variable {σ ι ε : Type*} {step : σ → ι → Except ε σ} {A : ι → Prop} {I : σ → Prop} {μ : σ → ℕ}

/-- No input of the class is taken. -/
def Quiet (step : σ → ι → Except ε σ) (A : ι → Prop) (s : σ) : Prop :=
  ∀ x, A x → (step s x).isOk = false

/-- Every step of the class keeps the invariant and lowers the measure. -/
def Decreasing (step : σ → ι → Except ε σ) (A : ι → Prop) (I : σ → Prop) (μ : σ → ℕ) : Prop :=
  ∀ s x s', A x → I s → step s x = .ok s' → I s' ∧ μ s' < μ s

theorem length_add_le (h : Decreasing step A I μ) {s s' : σ} (hs : I s) {xs : List ι}
    (hxs : ∀ x ∈ xs, A x) (hrun : run step s xs = .ok s') : xs.length + μ s' ≤ μ s := by
  induction xs generalizing s with
  | nil =>
    cases hrun
    simp
  | cons x xs ih =>
    cases hx : step s x with
    | error e => simp [run, hx] at hrun
    | ok t =>
      rw [run_cons xs hx] at hrun
      obtain ⟨ht, hlt⟩ := h s x t (hxs x (List.mem_cons_self ..)) hs hx
      have htail := ih ht (fun y hy => hxs y (List.mem_cons_of_mem _ hy)) hrun
      rw [List.length_cons]
      omega

theorem exists_quiet (h : Decreasing step A I μ) {s : σ} (hs : I s) :
    ∃ xs s', (∀ x ∈ xs, A x) ∧ run step s xs = .ok s' ∧ Quiet step A s' := by
  induction hμ : μ s using Nat.strongRecOn generalizing s with
  | ind n ih =>
    by_cases hquiet : Quiet step A s
    · exact ⟨[], s, fun x hx => absurd hx List.not_mem_nil, rfl, hquiet⟩
    · obtain ⟨x, hx, hok⟩ : ∃ x, A x ∧ (step s x).isOk = true := by simpa [Quiet] using hquiet
      obtain ⟨t, hstep⟩ : ∃ t, step s x = .ok t := by
        cases hx : step s x with
        | ok t => exact ⟨t, rfl⟩
        | error e => simp [hx, Except.isOk, Except.toBool] at hok
      obtain ⟨ht, hlt⟩ := h s x t hx hs hstep
      obtain ⟨xs, s', hxs, hrun, hq⟩ := ih (μ t) (hμ ▸ hlt) ht rfl
      refine ⟨x :: xs, s', ?_, (run_cons xs hstep).trans hrun, hq⟩
      exact List.forall_mem_cons.mpr ⟨hx, hxs⟩

end MasterOfFiles.BoundedRuns
