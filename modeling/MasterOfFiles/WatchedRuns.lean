import MasterOfFiles.RunTraces

/-!
Runs watched by a ghost: something the states leave out, kept beside them and brought up
to date by each step, that may condemn a step. After a condemned step nothing is known of
the state any more. What is proved of the runs of the bare states carries over to the
watched runs in which no step is condemned.
-/
namespace MasterOfFiles.WatchedRuns

open PartialRuns

/-- A state, the ghost beside it, and whether both are still known. -/
structure Watched (σ γ : Type*) where
  state : σ
  ghost : γ
  known : Bool

/-- How the ghost follows a step, and which steps it condemns. -/
structure Watch (σ ι γ : Type*) where
  track : γ → σ → ι → σ → γ
  harm : γ → σ → ι → σ → Bool

variable {σ ι ε γ : Type*} (step : σ → ι → Except ε σ) (w : Watch σ ι γ)

/-- A step that fails still fails: it ends the run before the ghost is looked at. -/
def watchedStep (c : Watched σ γ) (x : ι) : Except ε (Watched σ γ) :=
  if c.known then
    match step c.state x with
    | .error e => .error e
    | .ok s' =>
      if w.harm c.ghost c.state x s' then .ok { c with known := false }
      else .ok ⟨s', w.track c.ghost c.state x s', true⟩
  else .ok c

/-- The step, if it is taken, is not condemned. -/
def Harmless (c : Watched σ γ) (x : ι) : Prop :=
  ∀ s', step c.state x = .ok s' → w.harm c.ghost c.state x s' = false

instance (c : Watched σ γ) (x : ι) : Decidable (Harmless step w c x) :=
  match hx : step c.state x with
  | .ok s' => decidable_of_iff (w.harm c.ghost c.state x s' = false)
      ⟨fun h _ ht => Except.ok.inj (hx.symm.trans ht) ▸ h, fun h => h s' hx⟩
  | .error _ => isTrue fun _ ht => nomatch hx.symm.trans ht

variable {step w} {c c' : Watched σ γ} {x : ι} {s' : σ}

section Steps

theorem watchedStep_of_harmless (hc : c.known = true) (hx : step c.state x = .ok s')
    (h : w.harm c.ghost c.state x s' = false) :
    watchedStep step w c x = .ok ⟨s', w.track c.ghost c.state x s', true⟩ := by
  simp [watchedStep, hc, hx, h]

theorem watchedStep_of_harm (hc : c.known = true) (hx : step c.state x = .ok s')
    (h : w.harm c.ghost c.state x s' = true) :
    watchedStep step w c x = .ok { c with known := false } := by
  simp [watchedStep, hc, hx, h]

/-- A step after which the state is known is a step of the bare states. -/
theorem known_of_watchedStep (h : watchedStep step w c x = .ok c') (hc' : c'.known = true) :
    c.known = true ∧ step c.state x = .ok c'.state ∧
      w.harm c.ghost c.state x c'.state = false ∧
      c'.ghost = w.track c.ghost c.state x c'.state := by
  unfold watchedStep at h
  cases hc : c.known with
  | false =>
    obtain rfl : c = c' := by simpa [hc] using h
    rw [hc] at hc'
    exact absurd hc' Bool.false_ne_true
  | true =>
    cases hx : step c.state x with
    | error e => simp [hc, hx] at h
    | ok s' =>
      cases hharm : w.harm c.ghost c.state x s' with
      | true =>
        obtain rfl : { c with known := false } = c' := by simpa [hc, hx, hharm] using h
        exact absurd hc' Bool.false_ne_true
      | false =>
        obtain rfl : ⟨s', w.track c.ghost c.state x s', true⟩ = c' := by
          simpa [hc, hx, hharm] using h
        exact ⟨rfl, rfl, hharm, rfl⟩

/-- A step leaves the state it found, or the one that the bare step leaves. -/
theorem watchedStep_state (h : watchedStep step w c x = .ok c') :
    c'.state = c.state ∨ step c.state x = .ok c'.state := by
  unfold watchedStep at h
  split at h
  · split at h
    · simp at h
    · next s' hx =>
      split_ifs at h
      · rw [← Except.ok.inj h]
        exact Or.inl rfl
      · rw [← Except.ok.inj h]
        exact Or.inr hx
  · rw [← Except.ok.inj h]
    exact Or.inl rfl

theorem exists_watchedStep (hc : c.known = true) (hx : step c.state x = .ok s') :
    ∃ c', watchedStep step w c x = .ok c' := by
  cases hharm : w.harm c.ghost c.state x s' with
  | true => exact ⟨_, watchedStep_of_harm hc hx hharm⟩
  | false => exact ⟨_, watchedStep_of_harmless hc hx hharm⟩

end Steps

section Runs

variable {xs : List ι}

/-- Where the state is known at the end of a watched run, the bare states have run there. -/
theorem run_of_watched (h : run (watchedStep step w) c xs = .ok c') (hc' : c'.known = true) :
    c.known = true ∧ run step c.state xs = .ok c'.state := by
  induction xs generalizing c with
  | nil =>
    cases h
    exact ⟨hc', rfl⟩
  | cons x xs ih =>
    cases hx : watchedStep step w c x with
    | error e => simp [run, hx] at h
    | ok d =>
      rw [run_cons xs hx] at h
      obtain ⟨hd, hrun⟩ := ih h
      obtain ⟨hc, hstep, -, -⟩ := known_of_watchedStep hx hd
      exact ⟨hc, (run_cons xs hstep).trans hrun⟩

theorem reaches_of_watched (h : Reaches (watchedStep step w) c c') (hc' : c'.known = true) :
    Reaches step c.state c'.state := by
  obtain ⟨xs, hxs⟩ := h
  exact ⟨xs, (run_of_watched hxs hc').2⟩

/-- A run of the bare states is watched to its end if no step of it is condemned. -/
theorem exists_run_watched (hc : c.known = true)
    (hC : EachStep (watchedStep step w) (Harmless step w) c xs)
    (hrun : run step c.state xs = .ok s') :
    ∃ c', run (watchedStep step w) c xs = .ok c' ∧ c'.known = true ∧ c'.state = s' := by
  induction xs generalizing c with
  | nil =>
    cases hrun
    exact ⟨c, rfl, hc, rfl⟩
  | cons x xs ih =>
    cases hx : step c.state x with
    | error e => simp [run, hx] at hrun
    | ok t =>
      rw [run_cons xs hx] at hrun
      obtain ⟨d, hd⟩ := exists_watchedStep (w := w) hc hx
      obtain ⟨hharm, hrest⟩ := hC d hd
      have hd' := watchedStep_of_harmless hc hx (hharm t hx)
      obtain rfl := Except.ok.inj (hd.symm.trans hd')
      obtain ⟨c', hc', hknown, hstate⟩ := ih rfl hrest hrun
      exact ⟨c', (run_cons xs hd).trans hc', hknown, hstate⟩

/-- A condition on the steps of a watched run, apart from none being condemned, is one on
the steps of the bare states. -/
theorem eachStep_watched_iff (C : σ → ι → Prop) (hc : c.known = true) (xs : List ι) :
    EachStep (watchedStep step w) (fun c x => Harmless step w c x ∧ C c.state x) c xs ↔
      EachStep (watchedStep step w) (Harmless step w) c xs ∧ EachStep step C c.state xs := by
  induction xs generalizing c with
  | nil => exact ⟨fun _ => ⟨trivial, trivial⟩, fun _ => trivial⟩
  | cons x xs ih =>
    constructor
    · intro h
      constructor
      · intro d hd
        obtain ⟨⟨hharm, -⟩, hrest⟩ := h d hd
        refine ⟨hharm, ?_⟩
        cases hx : step c.state x with
        | error e => simp [watchedStep, hc, hx] at hd
        | ok t =>
          obtain rfl := Except.ok.inj (hd.symm.trans
            (watchedStep_of_harmless hc hx (hharm t hx)))
          exact ((ih rfl).mp hrest).1
      · intro t hx
        obtain ⟨d, hd⟩ := exists_watchedStep (w := w) hc hx
        obtain ⟨⟨hharm, hCx⟩, hrest⟩ := h d hd
        obtain rfl := Except.ok.inj (hd.symm.trans (watchedStep_of_harmless hc hx (hharm t hx)))
        exact ⟨hCx, ((ih rfl).mp hrest).2⟩
    · rintro ⟨hharmless, hC⟩ d hd
      obtain ⟨hharm, hrest⟩ := hharmless d hd
      cases hx : step c.state x with
      | error e => simp [watchedStep, hc, hx] at hd
      | ok t =>
        obtain ⟨hCx, hCrest⟩ := hC t hx
        obtain rfl := Except.ok.inj (hd.symm.trans (watchedStep_of_harmless hc hx (hharm t hx)))
        exact ⟨⟨hharm, hCx⟩, (ih rfl).mpr ⟨hrest, hCrest⟩⟩

/-- A property of the states holds all along a watched run, and the states are known there,
just when no step is condemned and it holds all along the run of the bare states. -/
theorem alongRun_watched_iff (P : σ → Prop) (hc : c.known = true) (xs : List ι) :
    AlongRun (watchedStep step w) (fun c => c.known = true ∧ P c.state) c xs ↔
      EachStep (watchedStep step w) (Harmless step w) c xs ∧ AlongRun step P c.state xs := by
  induction xs generalizing c with
  | nil => exact ⟨fun h => ⟨trivial, h.2⟩, fun h => ⟨hc, h.2⟩⟩
  | cons x xs ih =>
    constructor
    · rintro ⟨⟨-, hP⟩, hrest⟩
      have hgood : ∀ d, watchedStep step w c x = .ok d → d.known = true := by
        intro d hd
        have htail := hrest d hd
        cases xs with
        | nil => exact htail.1
        | cons y ys => exact htail.1.1
      constructor
      · intro d hd
        obtain ⟨-, hx, hharm, -⟩ := known_of_watchedStep hd (hgood d hd)
        refine ⟨fun t ht => ?_, ((ih (hgood d hd)).mp (hrest d hd)).1⟩
        rwa [Except.ok.inj (ht.symm.trans hx)]
      · refine ⟨hP, fun t hx => ?_⟩
        obtain ⟨d, hd⟩ := exists_watchedStep (w := w) hc hx
        obtain ⟨-, hx', -, -⟩ := known_of_watchedStep hd (hgood d hd)
        obtain rfl := Except.ok.inj (hx.symm.trans hx')
        exact ((ih (hgood d hd)).mp (hrest d hd)).2
    · rintro ⟨hharmless, hP, hrest⟩
      refine ⟨⟨hc, hP⟩, fun d hd => ?_⟩
      obtain ⟨hharm, htail⟩ := hharmless d hd
      cases hx : step c.state x with
      | error e => simp [watchedStep, hc, hx] at hd
      | ok t =>
        obtain rfl := Except.ok.inj (hd.symm.trans (watchedStep_of_harmless hc hx (hharm t hx)))
        exact (ih rfl).mpr ⟨htail, hrest t hx⟩

/-- An equivalence over the runs of the bare states, carried over to the watched runs. -/
theorem alongRun_watched_iff_eachStep {P : σ → Prop} {C : σ → ι → Prop} (hc : c.known = true)
    (h : AlongRun step P c.state xs ↔ EachStep step C c.state xs) :
    AlongRun (watchedStep step w) (fun c => c.known = true ∧ P c.state) c xs ↔
      EachStep (watchedStep step w) (fun c x => Harmless step w c x ∧ C c.state x) c xs := by
  rw [alongRun_watched_iff P hc xs, h, eachStep_watched_iff C hc xs]

end Runs

end MasterOfFiles.WatchedRuns
