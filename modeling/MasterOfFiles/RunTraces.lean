import MasterOfFiles.PartialRuns

/-!
What a run leaves behind: the state it ends in, and a trace on which every step may
put elements. A system that keeps what has come in and not yet gone out, in order,
emits a prefix of what it took in.
-/
namespace MasterOfFiles.RunTraces

open PartialRuns

variable {σ ι ε β : Type*} (step : σ → ι → Except ε σ) (out : σ → ι → List β)

/-- The elements that the steps taken put out, in order. -/
def outputs : σ → List ι → List β
  | _, [] => []
  | s, x :: xs => match step s x with
    | .ok s' => out s x ++ outputs s' xs
    | .error _ => []

/-- The state at the end of a run, where it gets there. -/
def after (s : σ) (xs : List ι) : σ :=
  match run step s xs with
  | .ok s' => s'
  | .error _ => s

variable {step out}

theorem run_eq_after {s : σ} {xs : List ι} (h : (run step s xs).isOk = true) :
    run step s xs = .ok (after step s xs) := by
  unfold after
  cases hrun : run step s xs with
  | ok s' => rfl
  | error e =>
    rw [hrun] at h
    exact absurd h Bool.false_ne_true

theorem error_of_run {s : σ} {xs : List ι} {f : ε} (h : run step s xs = .error f) :
    ∃ t x, step t x = .error f := by
  induction xs generalizing s with
  | nil => cases h
  | cons x xs ih =>
    cases hx : step s x with
    | error g =>
      obtain rfl : g = f := by simpa [run, hx] using h
      exact ⟨s, x, hx⟩
    | ok t =>
      rw [run_cons xs hx] at h
      exact ih h

theorem alongRun_last {P : σ → Prop} {s s' : σ} {xs : List ι} (h : AlongRun step P s xs)
    (hrun : run step s xs = .ok s') : P s' := by
  induction xs generalizing s with
  | nil =>
    cases hrun
    exact h
  | cons x xs ih =>
    cases hx : step s x with
    | error e => simp [run, hx] at hrun
    | ok t =>
      rw [run_cons xs hx] at hrun
      exact ih (h.2 t hx) hrun

theorem run_append {s s' : σ} {xs : List ι} (h : run step s xs = .ok s') (ys : List ι) :
    run step s (xs ++ ys) = run step s' ys := by
  induction xs generalizing s with
  | nil =>
    cases h
    rfl
  | cons x xs ih =>
    cases hx : step s x with
    | error e => simp [run, hx] at h
    | ok t =>
      rw [run_cons xs hx] at h
      rw [List.cons_append, run_cons _ hx]
      exact ih h

theorem reaches_head {s t u : σ} {x : ι} (hx : step s x = .ok t) (h : Reaches step t u) :
    Reaches step s u := by
  obtain ⟨xs, hxs⟩ := h
  exact ⟨x :: xs, (run_cons xs hx).trans hxs⟩

theorem reaches_trans {s t u : σ} (h : Reaches step s t) (h' : Reaches step t u) :
    Reaches step s u := by
  obtain ⟨xs, hxs⟩ := h
  obtain ⟨ys, hys⟩ := h'
  exact ⟨xs ++ ys, (run_append hxs ys).trans hys⟩

/-- An invariant of the steps that meet a condition holds wherever a run whose steps
meet it has come so far. -/
theorem invariant_of_eachStep {I : σ → Prop} {A : ι → Prop} {C : σ → ι → Prop}
    (hstep : ∀ s x s', A x → I s → C s x → step s x = .ok s' → I s') {s s' : σ} (hs : I s)
    {xs ys : List ι} (hxs : ∀ x ∈ xs, A x) (hC : EachStep step C s xs) (hpre : ys <+: xs)
    (hrun : run step s ys = .ok s') : I s' := by
  induction ys generalizing s xs with
  | nil =>
    cases hrun
    exact hs
  | cons y ys ih =>
    obtain ⟨zs, rfl⟩ := hpre
    cases hy : step s y with
    | error e => simp [run, hy] at hrun
    | ok t =>
      rw [run_cons ys hy] at hrun
      obtain ⟨hCy, hrest⟩ := hC t hy
      have ht := hstep s y t (hxs y (List.mem_cons_self ..)) hs hCy hy
      exact ih ht (fun x hx => hxs x (List.mem_cons_of_mem _ hx)) hrest
        (List.prefix_append ys zs) hrun

/-- A property that such an invariant gives holds in every state of the run. -/
theorem alongRun_of_eachStep {I P : σ → Prop} {A : ι → Prop} {C : σ → ι → Prop}
    (hstep : ∀ s x s', A x → I s → C s x → step s x = .ok s' → I s') (hP : ∀ s, I s → P s)
    {s : σ} (hs : I s) {xs : List ι} (hxs : ∀ x ∈ xs, A x) (hC : EachStep step C s xs) :
    AlongRun step P s xs := by
  induction xs generalizing s with
  | nil => exact hP s hs
  | cons x xs ih =>
    refine ⟨hP s hs, fun t hx => ?_⟩
    obtain ⟨hCx, hrest⟩ := hC t hx
    have ht := hstep s x t (hxs x (List.mem_cons_self ..)) hs hCx hx
    exact ih ht (fun y hy => hxs y (List.mem_cons_of_mem _ hy)) hrest

/-- A run none of whose steps can fail where the invariant holds comes to its end. -/
theorem exists_run_of_eachStep {I : σ → Prop} {C : σ → ι → Prop}
    (hstep : ∀ s x s', I s → C s x → step s x = .ok s' → I s')
    (hok : ∀ s x, I s → ∃ s', step s x = .ok s') {s : σ} (hs : I s) {xs : List ι}
    (hC : EachStep step C s xs) : ∃ s', run step s xs = .ok s' := by
  induction xs generalizing s with
  | nil => exact ⟨s, rfl⟩
  | cons x xs ih =>
    obtain ⟨t, hx⟩ := hok s x hs
    obtain ⟨hCx, hrest⟩ := hC t hx
    rw [run_cons xs hx]
    exact ih (hstep s x t hs hCx hx) hrest

/-- What an invariant and the condition of a step give holds at every step. -/
theorem eachStep_of_invariant {I : σ → Prop} {C P : σ → ι → Prop}
    (hstep : ∀ s x s', I s → C s x → step s x = .ok s' → I s')
    (hP : ∀ s x s', I s → C s x → step s x = .ok s' → P s x) {s : σ} (hs : I s) {xs : List ι}
    (hC : EachStep step C s xs) : EachStep step P s xs := by
  induction xs generalizing s with
  | nil => trivial
  | cons x xs ih =>
    intro t hx
    obtain ⟨hCx, hrest⟩ := hC t hx
    exact ⟨hP s x t hs hCx hx, ih (hstep s x t hs hCx hx) hrest⟩

theorem eachStep_append {C : σ → ι → Prop} {s : σ} {xs ys : List ι} (hxs : EachStep step C s xs)
    (hys : ∀ s', run step s xs = .ok s' → EachStep step C s' ys) :
    EachStep step C s (xs ++ ys) := by
  induction xs generalizing s with
  | nil => exact hys s rfl
  | cons x xs ih =>
    intro t hx
    obtain ⟨hCx, hrest⟩ := hxs t hx
    exact ⟨hCx, ih hrest fun s' hrun => hys s' ((run_cons xs hx).trans hrun)⟩

theorem eachStep_of_forall {C : σ → ι → Prop} {xs : List ι} (h : ∀ x ∈ xs, ∀ s, C s x) (s : σ) :
    EachStep step C s xs := by
  induction xs generalizing s with
  | nil => trivial
  | cons x xs ih =>
    intro t _
    have hhead := h x (List.mem_cons_self ..) s
    exact ⟨hhead, ih (fun y hy => h y (List.mem_cons_of_mem _ hy)) t⟩

theorem eachStep_last {C : σ → ι → Prop} {s s' : σ} {xs : List ι} {x : ι}
    (h : EachStep step C s (xs ++ [x])) (hrun : run step s xs = .ok s')
    (hx : (step s' x).isOk = true) : C s' x := by
  induction xs generalizing s with
  | nil =>
    cases hrun
    cases hstep : step s' x with
    | ok t => exact (h t hstep).1
    | error e =>
      rw [hstep] at hx
      exact absurd hx Bool.false_ne_true
  | cons y ys ih =>
    cases hy : step s y with
    | error e => simp [run, hy] at hrun
    | ok u =>
      rw [run_cons ys hy] at hrun
      exact ih (h u hy).2 hrun

/-- A run is followed state by state to decide a property of its states. -/
instance decidableAlongRun {P : σ → Prop} [DecidablePred P] :
    (s : σ) → (xs : List ι) → Decidable (AlongRun step P s xs)
  | s, [] => inferInstanceAs (Decidable (P s))
  | s, x :: xs => match hx : step s x with
    | .ok s' =>
      have := decidableAlongRun (P := P) s' xs
      decidable_of_iff (P s ∧ AlongRun step P s' xs)
        ⟨fun h => ⟨h.1, fun _ ht => Except.ok.inj (hx.symm.trans ht) ▸ h.2⟩,
          fun h => ⟨h.1, h.2 s' hx⟩⟩
    | .error _ => decidable_of_iff (P s)
        ⟨fun h => ⟨h, fun _ ht => nomatch hx.symm.trans ht⟩, fun h => h.1⟩

instance decidableEachStep {C : σ → ι → Prop} [∀ s x, Decidable (C s x)] :
    (s : σ) → (xs : List ι) → Decidable (EachStep step C s xs)
  | _, [] => inferInstanceAs (Decidable True)
  | s, x :: xs => match hx : step s x with
    | .ok s' =>
      have := decidableEachStep (C := C) s' xs
      decidable_of_iff (C s x ∧ EachStep step C s' xs)
        ⟨fun h _ ht => Except.ok.inj (hx.symm.trans ht) ▸ h, fun h => h s' hx⟩
    | .error _ => isTrue fun _ ht => nomatch hx.symm.trans ht

theorem outputs_cons {s s' : σ} {x : ι} (xs : List ι) (h : step s x = .ok s') :
    outputs step out s (x :: xs) = out s x ++ outputs step out s' xs := by
  simp only [outputs, h]

/-- What the steps that meet a condition keep and put out holds of all that a run of them
puts out. -/
theorem forall_mem_outputs_of_eachStep {I : σ → Prop} {C : σ → ι → Prop} {P : β → Prop}
    (hstep : ∀ s x s', I s → C s x → step s x = .ok s' → I s')
    (hout : ∀ s x s', I s → C s x → step s x = .ok s' → ∀ y ∈ out s x, P y) {s : σ} (hs : I s)
    {xs : List ι} (hC : EachStep step C s xs) : ∀ y ∈ outputs step out s xs, P y := by
  induction xs generalizing s with
  | nil => exact fun y hy => absurd hy List.not_mem_nil
  | cons x xs ih =>
    intro y hy
    cases hx : step s x with
    | error e => simp [outputs, hx] at hy
    | ok t =>
      obtain ⟨hCx, hrest⟩ := hC t hx
      rw [outputs_cons xs hx] at hy
      rcases List.mem_append.mp hy with hhead | htail
      · exact hout s x t hs hCx hx y hhead
      · exact ih (hstep s x t hs hCx hx) hrest y htail

/-- Elements that steps pay for with a potential are put out no more often than there is
potential for them. -/
theorem count_outputs_le [DecidableEq β] {I : σ → Prop} {C : σ → ι → Prop} {f : σ → ℕ} {a : β}
    (hstep : ∀ s x s', I s → C s x → step s x = .ok s' → I s')
    (hpay : ∀ s x s', I s → C s x → step s x = .ok s' → (out s x).count a + f s' ≤ f s) {s : σ}
    (hs : I s) {xs : List ι} (hC : EachStep step C s xs) :
    (outputs step out s xs).count a ≤ f s := by
  induction xs generalizing s with
  | nil => exact Nat.zero_le _
  | cons x xs ih =>
    cases hx : step s x with
    | error e => simp [outputs, hx]
    | ok t =>
      obtain ⟨hCx, hrest⟩ := hC t hx
      have hhead := hpay s x t hs hCx hx
      have htail := ih (hstep s x t hs hCx hx) hrest
      rw [outputs_cons xs hx, List.count_append]
      omega

/-- A view of the elements that respects concatenation may be taken step by step. -/
theorem outputs_view {γ : Type*} {view : List β → List γ} {out' : σ → ι → List γ}
    (hnil : view [] = []) (happend : ∀ ys zs, view (ys ++ zs) = view ys ++ view zs)
    (hout : ∀ s x, out' s x = view (out s x)) (s : σ) (xs : List ι) :
    outputs step out' s xs = view (outputs step out s xs) := by
  induction xs generalizing s with
  | nil => exact hnil.symm
  | cons x xs ih =>
    cases hx : step s x with
    | error e => simp [outputs, hx, hnil]
    | ok t => rw [outputs_cons xs hx, outputs_cons xs hx, happend, hout, ih]

theorem outputs_filterMap {γ : Type*} (f : β → Option γ) (s : σ) (xs : List ι) :
    outputs step (fun s x => (out s x).filterMap f) s xs = (outputs step out s xs).filterMap f :=
  outputs_view rfl (fun _ _ => List.filterMap_append) (fun _ _ => rfl) s xs

/-- What every step takes over from its outputs is folded up over a run. -/
theorem foldl_outputs {γ : Type*} {I : σ → Prop} {f : σ → γ} {g : γ → β → γ}
    (hstep : ∀ s x s', I s → step s x = .ok s' → I s' ∧ f s' = (out s x).foldl g (f s))
    {s s' : σ} (hs : I s) {xs : List ι} (hrun : run step s xs = .ok s') :
    f s' = (outputs step out s xs).foldl g (f s) := by
  induction xs generalizing s with
  | nil =>
    cases hrun
    rfl
  | cons x xs ih =>
    cases hx : step s x with
    | error e => simp [run, hx] at hrun
    | ok t =>
      rw [run_cons xs hx] at hrun
      obtain ⟨ht, hf⟩ := hstep s x t hs hx
      rw [ih ht hrun, hf, outputs_cons xs hx, List.foldl_append]

/-- The law of the steps that meet a condition is the law of a run of them: what was pending
and what came in are what went out and what is pending at the end. -/
theorem pending_append_outputs {C : σ → ι → Prop} {taken sent : σ → ι → List β}
    {pending : σ → List β}
    (hstep : ∀ s x s', C s x → step s x = .ok s' →
      pending s ++ taken s x = sent s x ++ pending s')
    {s : σ} {xs : List ι} (hC : EachStep step C s xs) :
    ∃ s', pending s ++ outputs step taken s xs = outputs step sent s xs ++ pending s' := by
  induction xs generalizing s with
  | nil => exact ⟨s, by simp [outputs]⟩
  | cons x xs ih =>
    cases hx : step s x with
    | error e => exact ⟨s, by simp [outputs, hx]⟩
    | ok t =>
      obtain ⟨hCx, hrest⟩ := hC t hx
      obtain ⟨s', hs'⟩ := ih hrest
      refine ⟨s', ?_⟩
      rw [outputs_cons xs hx, outputs_cons xs hx]
      calc
        pending s ++ (taken s x ++ outputs step taken t xs)
          = (pending s ++ taken s x) ++ outputs step taken t xs := (List.append_assoc ..).symm
        _ = sent s x ++ (pending t ++ outputs step taken t xs) := by
          rw [hstep s x t hCx hx, List.append_assoc]
        _ = (sent s x ++ outputs step sent t xs) ++ pending s' := by
          rw [hs', List.append_assoc]

theorem outputs_prefix {C : σ → ι → Prop} {taken sent : σ → ι → List β} {pending : σ → List β}
    (hstep : ∀ s x s', C s x → step s x = .ok s' →
      pending s ++ taken s x = sent s x ++ pending s')
    {s : σ} (hs : pending s = []) {xs : List ι} (hC : EachStep step C s xs) :
    outputs step sent s xs <+: outputs step taken s xs := by
  obtain ⟨s', h⟩ := pending_append_outputs hstep hC
  rw [hs, List.nil_append] at h
  exact ⟨pending s', h.symm⟩

end MasterOfFiles.RunTraces
