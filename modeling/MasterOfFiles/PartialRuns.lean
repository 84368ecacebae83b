import Mathlib.Data.List.Basic

/-!
Runs of a step function that may fail. A failed step ends the run: nothing is
reached after it. `AlongRun` says that a property holds in every state a run
reaches, `EachStep` that every step taken meets a condition on the state before
it; the exchange between the two is proved once, by induction on the inputs.
A loop whose body may ask to stop is kept apart: it has a state also when it stops.
`collect` is the loop that fails like a run and gives a result for each element.
-/
namespace MasterOfFiles.PartialRuns

variable {σ ι ε : Type*} (step : σ → ι → Except ε σ)

def run : σ → List ι → Except ε σ
  | s, [] => .ok s
  | s, x :: xs => match step s x with
    | .ok s' => run s' xs
    | .error e => .error e

def Reaches (s s' : σ) : Prop := ∃ xs, run step s xs = .ok s'

def AlongRun (P : σ → Prop) : σ → List ι → Prop
  | s, [] => P s
  | s, x :: xs => P s ∧ ∀ s', step s x = .ok s' → AlongRun P s' xs

/-- Only steps that are really taken count; a failing step imposes nothing. -/
def EachStep (C : σ → ι → Prop) : σ → List ι → Prop
  | _, [] => True
  | s, x :: xs => ∀ s', step s x = .ok s' → C s x ∧ EachStep C s' xs

variable {step}

theorem run_cons {s s' : σ} {x : ι} (xs : List ι) (h : step s x = .ok s') :
    run step s (x :: xs) = run step s' xs := by
  simp only [run, h]

theorem Reaches.refl (s : σ) : Reaches step s s := ⟨[], rfl⟩

/-- A property preserved by every step holds wherever a run leads. -/
theorem run_invariant {I : σ → Prop} (hstep : ∀ s x s', I s → step s x = .ok s' → I s')
    {s s' : σ} (hs : I s) (h : Reaches step s s') : I s' := by
  obtain ⟨xs, hxs⟩ := h
  induction xs generalizing s with
  | nil =>
    cases hxs
    exact hs
  | cons x xs ih =>
    cases hx : step s x with
    | error e => simp [run, hx] at hxs
    | ok t =>
      rw [run_cons xs hx] at hxs
      exact ih (hstep s x t hs hx) hxs

/-- If a step from a good state keeps `P` exactly when it meets `C`, then `P`
holds in every state of a run exactly when every step of the run meets `C`.
The auxiliary invariant `I` may itself depend on `C` being met, and `A` says
which inputs the run may have. -/
theorem alongRun_iff_eachStep {P I : σ → Prop} {A : ι → Prop} {C : σ → ι → Prop}
    (hexact : ∀ s x s', A x → I s → P s → step s x = .ok s' → (P s' ↔ C s x))
    (hinv : ∀ s x s', A x → I s → P s → C s x → step s x = .ok s' → I s')
    {s : σ} (hI : I s) (hP : P s) (xs : List ι) (hxs : ∀ x ∈ xs, A x) :
    AlongRun step P s xs ↔ EachStep step C s xs := by
  induction xs generalizing s with
  | nil => exact ⟨fun _ => trivial, fun _ => hP⟩
  | cons x xs ih =>
    have hx' : A x := hxs x (List.mem_cons_self ..)
    have hxs' : ∀ y ∈ xs, A y := fun y hy => hxs y (List.mem_cons_of_mem _ hy)
    constructor
    · rintro ⟨_, hrest⟩ t hx
      have htail := hrest t hx
      have hPt : P t := by
        cases xs with
        | nil => exact htail
        | cons y ys => exact htail.1
      have hC : C s x := (hexact s x t hx' hI hP hx).mp hPt
      exact ⟨hC, (ih (hinv s x t hx' hI hP hC hx) hPt hxs').mp htail⟩
    · intro h
      refine ⟨hP, fun t hx => ?_⟩
      obtain ⟨hC, hrest⟩ := h t hx
      exact (ih (hinv s x t hx' hI hP hC hx) ((hexact s x t hx' hI hP hx).mpr hC) hxs').mpr hrest

/-- Two conditions that agree on the steps taken from states of an invariant. -/
theorem eachStep_congr {I : σ → Prop} {C C' : σ → ι → Prop}
    (hinv : ∀ s x s', I s → step s x = .ok s' → I s')
    (hiff : ∀ s x s', I s → step s x = .ok s' → (C s x ↔ C' s x)) {s : σ} (hI : I s)
    (xs : List ι) : EachStep step C s xs ↔ EachStep step C' s xs := by
  induction xs generalizing s with
  | nil => exact Iff.rfl
  | cons x xs ih =>
    refine forall_congr' fun s' => ?_
    constructor
    · intro h hx
      obtain ⟨hC, hrest⟩ := h hx
      exact ⟨(hiff s x s' hI hx).mp hC, (ih (hinv s x s' hI hx)).mp hrest⟩
    · intro h hx
      obtain ⟨hC, hrest⟩ := h hx
      exact ⟨(hiff s x s' hI hx).mpr hC, (ih (hinv s x s' hI hx)).mpr hrest⟩

section Loops

variable (body : σ → ι → σ × Bool)

/-- Runs the body on each element in turn until it returns `false`. -/
def untilFalse : σ → List ι → σ × Bool
  | s, [] => (s, true)
  | s, x :: xs => match body s x with
    | (s', true) => untilFalse s' xs
    | (s', false) => (s', false)

variable {body}

/-- A property kept by the body holds when the loop ends, early or not. -/
theorem untilFalse_invariant {I : σ → Prop} {xs : List ι}
    (hbody : ∀ s, ∀ x ∈ xs, I s → I (body s x).1) {s : σ} (hs : I s) :
    I (untilFalse body s xs).1 := by
  induction xs generalizing s with
  | nil => exact hs
  | cons x xs ih =>
    have hx := hbody s x (List.mem_cons_self ..) hs
    have htail : ∀ s, ∀ y ∈ xs, I s → I (body s y).1 := fun s y hy =>
      hbody s y (List.mem_cons_of_mem _ hy)
    cases hres : body s x with
    | mk s' seguir =>
      rw [hres] at hx
      simp only [untilFalse, hres]
      cases seguir with
      | true => exact ih htail hx
      | false => exact hx

/-- A loop whose body always goes on reaches the end, and has then established
`Q` for every element, if later rounds keep it. -/
theorem untilFalse_complete {I : σ → Prop} {Q : ι → σ → Prop} (xs : List ι)
    (hbody : ∀ s, ∀ x ∈ xs, I s → (body s x).2 = true ∧ I (body s x).1 ∧ Q x (body s x).1)
    (hkeep : ∀ s, ∀ x ∈ xs, ∀ y, I s → Q y s → Q y (body s x).1) {s : σ} (hs : I s) :
    (untilFalse body s xs).2 = true ∧ I (untilFalse body s xs).1 ∧
      (∀ y, Q y s → Q y (untilFalse body s xs).1) ∧
      ∀ x ∈ xs, Q x (untilFalse body s xs).1 := by
  induction xs generalizing s with
  | nil => exact ⟨rfl, hs, fun _ hy => hy, fun _ hx => absurd hx List.not_mem_nil⟩
  | cons x xs ih =>
    obtain ⟨hgo, hI, hQ⟩ := hbody s x (List.mem_cons_self ..) hs
    have hkeepx := fun y => hkeep s x (List.mem_cons_self ..) y hs
    cases hres : body s x with
    | mk s' seguir =>
      rw [hres] at hgo hI hQ hkeepx
      obtain rfl : seguir = true := hgo
      obtain ⟨hend, hI', hold, hnew⟩ := ih
        (fun s y hy => hbody s y (List.mem_cons_of_mem _ hy))
        (fun s y hy => hkeep s y (List.mem_cons_of_mem _ hy)) hI
      simp only [untilFalse, hres]
      refine ⟨hend, hI', fun y hy => hold y (hkeepx y hy), fun y hy => ?_⟩
      rcases List.mem_cons.mp hy with rfl | hy
      · exact hold y hQ
      · exact hnew y hy

/-- A loop that reached the end has established `Q` for every element, if a body that goes
on does and later rounds keep it. -/
theorem untilFalse_of_true {I : σ → Prop} {Q : ι → σ → Prop} {xs : List ι}
    (hbody : ∀ s, ∀ x ∈ xs, I s → I (body s x).1 ∧ ((body s x).2 = true → Q x (body s x).1))
    (hkeep : ∀ s, ∀ x ∈ xs, ∀ y, I s → Q y s → Q y (body s x).1) {s : σ} (hs : I s)
    (hend : (untilFalse body s xs).2 = true) :
    (∀ y, Q y s → Q y (untilFalse body s xs).1) ∧ ∀ x ∈ xs, Q x (untilFalse body s xs).1 := by
  induction xs generalizing s with
  | nil => exact ⟨fun _ hy => hy, fun _ hx => absurd hx List.not_mem_nil⟩
  | cons x xs ih =>
    obtain ⟨hI, hQ⟩ := hbody s x (List.mem_cons_self ..) hs
    have hkeepx := fun y => hkeep s x (List.mem_cons_self ..) y hs
    unfold untilFalse at hend ⊢
    cases hres : body s x with
    | mk s' seguir =>
      rw [hres] at hI hQ hkeepx
      simp only [hres] at hend ⊢
      cases seguir with
      | false => simp at hend
      | true =>
        obtain ⟨hold, hnew⟩ := ih (fun s y hy => hbody s y (List.mem_cons_of_mem _ hy))
          (fun s y hy => hkeep s y (List.mem_cons_of_mem _ hy)) hI hend
        refine ⟨fun y hy => hold y (hkeepx y hy), List.forall_mem_cons.mpr ⟨?_, hnew⟩⟩
        exact hold x (hQ rfl)

/-- A body seen through a projection of its state gives the loop seen through it. -/
theorem untilFalse_project {τ : Type*} {body' : τ → ι → τ × Bool} (π : σ → τ)
    (h : ∀ s x, body' (π s) x = (π (body s x).1, (body s x).2)) (s : σ) (xs : List ι) :
    untilFalse body' (π s) xs = (π (untilFalse body s xs).1, (untilFalse body s xs).2) := by
  induction xs generalizing s with
  | nil => rfl
  | cons x xs ih =>
    unfold untilFalse
    rw [h]
    cases hres : body s x with
    | mk s' seguir =>
      cases seguir with
      | false => rfl
      | true => exact ih s'

end Loops

section Collect

variable {β : Type*} (body : σ → ι → Except ε (σ × β))

def collect : σ → List ι → Except ε (σ × List β)
  | s, [] => .ok (s, [])
  | s, x :: xs => match body s x with
    | .error e => .error e
    | .ok (s', y) => match collect s' xs with
      | .error e => .error e
      | .ok (s'', ys) => .ok (s'', y :: ys)

variable {body}

/-- A body that does not fail from states of an invariant runs to the end. -/
theorem collect_eq_ok {I : σ → Prop} {next : σ → ι → σ} {g : ι → β} {xs : List ι}
    (hbody : ∀ s, ∀ x ∈ xs, I s → body s x = .ok (next s x, g x) ∧ I (next s x)) {s : σ}
    (hs : I s) : collect body s xs = .ok (xs.foldl next s, xs.map g) := by
  induction xs generalizing s with
  | nil => rfl
  | cons x xs ih =>
    obtain ⟨hx, hI⟩ := hbody s x (List.mem_cons_self ..) hs
    have htail := ih (fun s y hy => hbody s y (List.mem_cons_of_mem _ hy)) hI
    simp only [collect, hx, htail]
    rfl

theorem collect_cons_eq_ok {s t : σ} {x : ι} {xs : List ι} {ys : List β}
    (h : collect body s (x :: xs) = .ok (t, ys)) :
    ∃ s' y ys', body s x = .ok (s', y) ∧ collect body s' xs = .ok (t, ys') ∧ ys = y :: ys' := by
  unfold collect at h
  cases hx : body s x with
  | error e => simp [hx] at h
  | ok q => cases htail : collect body q.1 xs with
    | error e => simp [hx, htail] at h
    | ok r =>
      simp only [hx, htail] at h
      obtain ⟨rfl, rfl⟩ := Prod.mk.inj (Except.ok.inj h)
      exact ⟨q.1, q.2, r.2, rfl, htail, rfl⟩

/-- What holds of an element whenever the body does not fail on it holds of all
the elements of a loop that does not fail. -/
theorem forall_of_collect {I : σ → Prop} {P : ι → Prop}
    (hbody : ∀ s x q, I s → body s x = .ok q → P x ∧ I q.1) {s : σ} (hs : I s) {xs : List ι}
    {p : σ × List β} (h : collect body s xs = .ok p) : (∀ x ∈ xs, P x) ∧ I p.1 := by
  induction xs generalizing s p with
  | nil =>
    obtain rfl := Except.ok.inj h
    exact ⟨fun _ hx => absurd hx List.not_mem_nil, hs⟩
  | cons x xs ih =>
    obtain ⟨s', y, ys', hx, htail, -⟩ := collect_cons_eq_ok h
    obtain ⟨hP, hI⟩ := hbody s x (s', y) hs hx
    obtain ⟨hrest, hend⟩ := ih hI htail
    exact ⟨List.forall_mem_cons.mpr ⟨hP, hrest⟩, hend⟩

/-- What the body gives for an element, it gives for each element in its place. -/
theorem forall₂_of_collect {I : σ → Prop} {R : ι → β → Prop}
    (hbody : ∀ s x s' y, I s → body s x = .ok (s', y) → R x y ∧ I s') {s t : σ} (hs : I s)
    {xs : List ι} {ys : List β} (h : collect body s xs = .ok (t, ys)) :
    List.Forall₂ R xs ys ∧ I t := by
  induction xs generalizing s ys with
  | nil =>
    obtain ⟨rfl, rfl⟩ := Prod.mk.inj (Except.ok.inj h)
    exact ⟨List.Forall₂.nil, hs⟩
  | cons x xs ih =>
    obtain ⟨s', y, ys', hx, htail, rfl⟩ := collect_cons_eq_ok h
    obtain ⟨hR, hI⟩ := hbody s x s' y hs hx
    obtain ⟨hrest, hend⟩ := ih hI htail
    exact ⟨List.Forall₂.cons hR hrest, hend⟩

end Collect

end MasterOfFiles.PartialRuns
