import MasterOfFiles.QueryHolders

/-!
READY under PRIORIDADES. Arrivals, returns and aging leave the queue sorted by
(prioridad, qid), and the planner's dequeue takes the least query then. The one
place that does not sort is the planner putting a query back in front: the order is
kept exactly as long as nothing better has come in meanwhile.
-/
namespace MasterOfFiles.PriorityOrder

open PartialRuns RunTraces SortedLists SchedulerState SchedulerSteps SchedulerMoves ReadyQueue
open QueryHolders

variable {L : ListSort ℕ} {cfg : Config} {s s' : Master} {e : Evento}

section Orden

theorem compararPrioridad_iff (a b : Query) : compararPrioridad a b = true ↔
    a.prioridad < b.prioridad ∨ a.prioridad = b.prioridad ∧ a.qid < b.qid := by
  unfold compararPrioridad
  split_ifs with heq
  · simp [heq]
  · simp [heq]

theorem compararPrioridad_eq_false_iff (a b : Query) : compararPrioridad a b = false ↔
    b.prioridad < a.prioridad ∨ b.prioridad = a.prioridad ∧ b.qid ≤ a.qid := by
  rw [← Bool.not_eq_true, compararPrioridad_iff]
  omega

theorem strictWeak_compararPrioridad : StrictWeak compararPrioridad := by
  constructor
  · intro a b hab
    rw [compararPrioridad_iff] at hab
    rw [compararPrioridad_eq_false_iff]
    omega
  · intro a b c hac
    rw [compararPrioridad_iff] at hac
    rw [compararPrioridad_iff, compararPrioridad_iff]
    omega

/-- `b` does not go before `a`; only queries that exist are compared. -/
def NoAntes (m : ℕ → Option Query) (a b : ℕ) : Prop :=
  ∀ x y, m a = some x → m b = some y → compararPrioridad y x = false

theorem noAntes_of_clavesConservadas {m m' : ℕ → Option Query} (h : ClavesConservadas m m')
    {a b : ℕ} (hab : NoAntes m a b) : NoAntes m' a b := by
  intro x' y' hx' hy'
  obtain ⟨x, hx, hqx, hpx⟩ := h a x' hx'
  obtain ⟨y, hy, hqy, hpy⟩ := h b y' hy'
  have hxy := (compararPrioridad_eq_false_iff y x).mp (hab x y hx hy)
  rw [compararPrioridad_eq_false_iff, hqx, hpx, hqy, hpy]
  exact hxy

theorem noAntes_update {m : ℕ → Option Query} {k a b : ℕ} (ha : a ≠ k) (hb : b ≠ k)
    (o : Option Query) : NoAntes (Function.update m k o) a b ↔ NoAntes m a b := by
  unfold NoAntes
  rw [Function.update_of_ne ha, Function.update_of_ne hb]

theorem pairwise_ordenar {t : ℤ} {m : ℕ → Option Query} {l l' : List ℕ}
    (h : ordenar L ⟨.prioridades, t⟩ m l = .ok l') : l'.Pairwise (NoAntes m) := by
  rw [ordenar, if_pos rfl] at h
  split_ifs at h
  cases h
  have hweak : StrictWeak (comparar m) :=
    strictWeak_compararPrioridad.comap fun q => (m q).getD default
  refine (L.sorted (comparar m) hweak l).imp fun {a b} hab x y hx hy => ?_
  simpa [comparar, hx, hy] using hab

/-- colaReadyFIFO is sorted by (prioridad, qid). -/
def Ordenada (s : Master) : Prop := s.colaReadyFIFO.Pairwise (NoAntes s.memQueries)

/-- The query the planner is about to dequeue is the least of READY. -/
def SacaMinima (s : Master) : Prop :=
  s.planificador = .desencolar → ∀ q ∈ s.colaReadyFIFO.head?, ∀ b ∈ s.colaReadyFIFO,
    NoAntes s.memQueries q b

theorem noAntes_refl (m : ℕ → Option Query) (a : ℕ) : NoAntes m a a := by
  intro x y hx hy
  obtain rfl := Option.some.inj (hx.symm.trans hy)
  rw [compararPrioridad_eq_false_iff]
  exact Or.inr ⟨rfl, le_refl _⟩

theorem sacaMinima_of_ordenada (h : Ordenada s) : SacaMinima s := by
  intro _ q hq b hb
  unfold Ordenada at h
  cases hcola : s.colaReadyFIFO with
  | nil => simp [hcola] at hq
  | cons p l =>
    rw [hcola] at h hq hb
    obtain rfl : p = q := by simpa using hq
    rcases List.mem_cons.mp hb with rfl | hb
    · exact noAntes_refl s.memQueries b
    · exact (List.pairwise_cons.mp h).1 b hb

end Orden

section Corridas

/-- If the planner puts a query back in this step, no query of READY goes before it. -/
def ReponeEnOrden (s : Master) : Evento → Prop
  | .planificador _ => ∀ q, s.planificador = .reencolar q →
    ∀ b ∈ s.colaReadyFIFO, NoAntes s.memQueries q b
  | _ => True

theorem paso_reencolar {envio : Bool} {q : ℕ} (hp : s.planificador = .reencolar q)
    (h : paso L cfg s (.planificador envio) = .ok s') :
    s'.colaReadyFIFO = q :: s.colaReadyFIFO ∧ s'.memQueries = s.memQueries := by
  unfold paso at h
  split at h
  · simp only [planificadorFifo, hp] at h
    cases h
    exact ⟨rfl, rfl⟩
  · cases h

theorem ordenada_of_quieta {m m' : ℕ → Option Query} {l : List ℕ} (h : ClavesConservadas m m')
    (hl : l.Pairwise (NoAntes m)) : l.Pairwise (NoAntes m') :=
  hl.imp fun hab => noAntes_of_clavesConservadas h hab

theorem ordenada_of_registra {m : ℕ → Option Query} {l : List ℕ} {k : ℕ} (hk : k ∉ l)
    (o : Option Query) (hl : l.Pairwise (NoAntes m)) :
    l.Pairwise (NoAntes (Function.update m k o)) := by
  refine hl.imp_of_mem fun ha hb hab => ?_
  exact (noAntes_update (ne_of_mem_of_not_mem ha hk) (ne_of_mem_of_not_mem hb hk) o).mpr hab

theorem notMem_cola_of_registra (hr : Registradas s) {k : ℕ} {path : ByteBuffers.Bytes}
    {prioridad : ℤ} {qid : ℕ} (hk : s.hilos[k]? = some (.registrarQuery path prioridad qid)) :
    ¬ EnCurso s k := by
  intro hq
  obtain ⟨h, hh, hrec⟩ := hr k hq
  obtain rfl := Option.some.inj (hk.symm.trans hh)
  exact hrec trivial

/-- One step of the Master with an ordered queue leaves it ordered exactly when it
does not put a query back in front of a better one. -/
theorem ordenada_paso {t : ℤ} (hr : Registradas s) (hs : Ordenada s)
    (h : paso L ⟨.prioridades, t⟩ s e = .ok s') : Ordenada s' ↔ ReponeEnOrden s e := by
  unfold Ordenada at hs ⊢
  by_cases hrep : ∃ envio q, e = .planificador envio ∧ s.planificador = .reencolar q
  · obtain ⟨envio, q, rfl, hp⟩ := hrep
    obtain ⟨hcola, hmem⟩ := paso_reencolar hp h
    rw [hcola, hmem, List.pairwise_cons]
    constructor
    · rintro ⟨hq, _⟩ p hpp
      obtain rfl : q = p := by simpa [hp] using hpp
      exact hq
    · intro hq
      exact ⟨hq q hp, hs⟩
  · have hC : ReponeEnOrden s e := by
      cases e with
      | planificador envio => exact fun q hq => absurd ⟨envio, q, rfl, hq⟩ hrep
      | _ => trivial
    refine iff_of_true ?_ hC
    cases pasoCola_of_movimiento (movimiento_of_paso h).2 with
    | quieta hcola hret hclaves hagrega henvia =>
      rw [hcola]
      exact ordenada_of_quieta hclaves hs
    | registra k x path prioridad qid hk hx hcola hret hmem hagrega henvia =>
      rw [hcola, hmem]
      exact ordenada_of_registra (fun hmem => notMem_cola_of_registra hr hk (.cola hmem)) _ hs
    | agrega q hcola hret hmem hagrega henvia =>
      rw [hmem]
      exact pairwise_ordenar hcola
    | saca q hcola hret hret' hmem hagrega henvia =>
      rw [hcola] at hs
      rw [hmem]
      exact (List.pairwise_cons.mp hs).2
    | envia q hcola hret hret' hmem hagrega henvia => rwa [hcola, hmem]
    | repone q he hp hcola hret' hmem hagrega henvia =>
      obtain ⟨envio, rfl⟩ := he
      exact absurd ⟨envio, q, rfl, hp⟩ hrep
    | envejece hag hvivas hcola hret hmem hagrega henvia => exact pairwise_ordenar hcola

/-- Under PRIORIDADES, READY is sorted and the planner takes its least query in every
state of a run exactly when no step of it puts a query back in front of a better one. -/
theorem ordenada_run_iff (L : ListSort ℕ) (t : ℤ) (xs : List Evento) :
    AlongRun (paso L ⟨.prioridades, t⟩) (fun s => Ordenada s ∧ SacaMinima s) inicial xs ↔
      EachStep (paso L ⟨.prioridades, t⟩) ReponeEnOrden inicial xs := by
  refine alongRun_iff_eachStep (I := Registradas) (A := fun _ => True)
    (fun s x s' _ hr hP h => ?_) (fun s x s' _ hr _ _ h => ?_) registradas_inicial ?_ xs
    (fun _ _ => trivial)
  · rw [← ordenada_paso hr hP.1 h]
    exact ⟨And.left, fun hs' => ⟨hs', sacaMinima_of_ordenada hs'⟩⟩
  · exact registradas_paso hr (movimiento_of_paso h).2
  · have hs : Ordenada inicial := List.Pairwise.nil
    exact ⟨hs, sacaMinima_of_ordenada hs⟩

/-- A Worker comes and goes before a query of priority 5 arrives. The planner takes
the query, finds no Worker and puts it back in front of one of priority 1. -/
def corridaSinWorker : List Evento :=
  [.conectaWorker 7, .hilo 0 true, .hilo 0 true, .mensaje 0 .desconexion, .hilo 0 true,
    .hilo 0 true, .conectaQuery [] 5, .hilo 1 true, .hilo 1 true, .hilo 1 true, .hilo 1 true,
    .planificador true, .planificador true, .planificador true, .conectaQuery [] 1,
    .hilo 2 true, .hilo 2 true, .hilo 2 true, .planificador true, .planificador true]

theorem not_ordenada_corridaSinWorker :
    ¬ AlongRun (paso (insertionSort ℕ) ⟨.prioridades, 1000⟩) (fun s => Ordenada s ∧ SacaMinima s)
      inicial corridaSinWorker := by
  intro h
  have hs := (alongRun_last h (run_eq_after (by decide))).1
  have hcola : (after (paso (insertionSort ℕ) ⟨.prioridades, 1000⟩) inicial
    corridaSinWorker).colaReadyFIFO = [1, 2] := by decide
  rw [Ordenada, hcola] at hs
  have h12 := (List.pairwise_cons.mp hs).1 2 (by decide) (crearQuery [] 5 0 1)
    (crearQuery [] 1 1 2) (by decide) (by decide)
  exact absurd h12 (by decide)

end Corridas

end MasterOfFiles.PriorityOrder
