import MasterOfFiles.QueryHolders

/-!
A Query Control that closes. manejar_desconexion_qc looks for the query in three
lists that are never made, so it finds none and does nothing: a query that was in
course stays there. Only where the query was already out of course is it never sent
again.
-/
namespace MasterOfFiles.CancelledQueries

open PartialRuns RunTraces SortedLists SchedulerState SchedulerSteps SchedulerMoves ReadyQueue
open QueryHolders

variable {L : ListSort ℕ} {cfg : Config} {s s' : Master} {e : Evento}

/-- When manejar_desconexion_qc runs for a connection, its query is out of course. -/
def DesconectaFueraDeCurso (s : Master) : Evento → Prop
  | .mensaje k .desconexion => s.hilos[k]? = some .bucleQuery → ¬ EnCurso s k
  | _ => True

/-- A query whose Query Control has been seen off is not in READY, and it is not
about to be sent to a Worker, in one kind of packet or the other. -/
def NoSeEjecuta (s : Master) : Prop :=
  ∀ k, s.hilos[k]? = some .finQuery →
    k ∉ s.colaReadyFIFO ∧ ∀ w p, s.planificador ≠ .enviar k w p

/-- A query whose Query Control has been seen off is out of course. -/
def FueraDeCurso (s : Master) : Prop := ∀ k, s.hilos[k]? = some .finQuery → ¬ EnCurso s k

theorem noSeEjecuta_of_fueraDeCurso (h : FueraDeCurso s) : NoSeEjecuta s := by
  intro k hk
  refine ⟨fun hcola => h k hk (.cola hcola), fun w p hp => h k hk (.planificador ?_)⟩
  rw [hp]
  exact List.mem_singleton_self k

/-- A connection that is gone after a step was gone before, or closes in that step. -/
theorem finQuery_of_movimiento (h : Movimiento L cfg s e s') {k : ℕ}
    (hk : s'.hilos[k]? = some .finQuery) : s.hilos[k]? = some .finQuery ∨
      s.hilos[k]? = some .bucleQuery ∧ e = .mensaje k .desconexion := by
  cases pasoHilos_of_movimiento h with
  | igual heq => exact Or.inl (heq ▸ hk)
  | nuevo hn hr hp heq =>
    rcases hilo_of_append (heq ▸ hk) with rfl | hold
    · exact absurd hr id
    · exact Or.inl hold
  | mueve i hi hi' hii hs heq =>
    rcases hilo_of_set hii (heq ▸ hk) with ⟨rfl, rfl⟩ | hold
    · exact absurd rfl hs.sigue
    · exact Or.inl hold
  | registra i path prioridad qid hi hact heq =>
    rcases hilo_of_set hi (heq ▸ hk) with ⟨_, hne⟩ | hold
    · cases hne
    · exact Or.inl hold
  | desconecta i hi he heq =>
    rcases hilo_of_set hi (heq ▸ hk) with ⟨rfl, _⟩ | hold
    · exact Or.inr ⟨hi, he⟩
    · exact Or.inl hold

theorem fueraDeCurso_paso (hs : FueraDeCurso s) (hC : DesconectaFueraDeCurso s e)
    (h : paso L cfg s e = .ok s') : FueraDeCurso s' := by
  have hm := (movimiento_of_paso h).2
  intro k hk hcurso
  have hbefore : ¬ EnCurso s k := by
    rcases finQuery_of_movimiento hm hk with hold | ⟨hbucle, rfl⟩
    · exact hs k hold
    · exact hC hbucle
  rcases enCurso_of_movimiento hm hcurso with hold | ⟨_, hnew, _⟩
  · exact hbefore hold
  · rw [hk] at hnew
    cases hnew

/-- If every Query Control leaves when its query is out of course, no query is sent
after its Query Control has left. -/
theorem noSeEjecuta_run (L : ListSort ℕ) (cfg : Config) {xs : List Evento}
    (hC : EachStep (paso L cfg) DesconectaFueraDeCurso inicial xs) :
    AlongRun (paso L cfg) NoSeEjecuta inicial xs := by
  have hinicial : FueraDeCurso inicial := fun k hk => nomatch hk
  exact alongRun_of_eachStep (A := fun _ => True) (fun _ _ _ _ hs hC h => fueraDeCurso_paso hs hC h)
    (fun _ => noSeEjecuta_of_fueraDeCurso) hinicial (fun _ _ => trivial) hC

/-- The query has been run to its end. -/
def estadoAtendido : Master := after (paso (insertionSort ℕ) ⟨.fifo, 0⟩) inicial corridaTerminada

theorem not_enCurso_atendido : ¬ EnCurso estadoAtendido 0 := by
  intro h
  cases h with
  | cola h => exact absurd h (by decide)
  | planificador h => exact absurd h (by decide)
  | worker h =>
    obtain ⟨w, y, hw, hy⟩ := h
    have hfichas : ∃ a b c d e, estadoAtendido.memWorkers = Function.update (Function.update
        (Function.update (Function.update (Function.update (fun _ => none) 1 a) 1 b) 1 c) 1 d)
        1 e := ⟨_, _, _, _, _, rfl⟩
    by_cases hone : w = 1
    · subst hone
      have hlibre : (estadoAtendido.memWorkers 1).bind Worker.ejecutando = none := by decide
      rw [hw, Option.bind_some, hy] at hlibre
      cases hlibre
    · obtain ⟨a, b, c, d, e, heq⟩ := hfichas
      simp [heq, Function.update_of_ne hone] at hw
  | hilo k hl hk h =>
    have hmem : ∀ hl ∈ estadoAtendido.hilos, 0 ∉ porEncolar hl := by decide
    exact hmem hl (List.mem_of_getElem? hk) h

/-- The Query Control leaves after its query has ended. -/
theorem noSeEjecuta_run_atendida :
    AlongRun (paso (insertionSort ℕ) ⟨.fifo, 0⟩) NoSeEjecuta inicial
      (corridaTerminada ++ [.mensaje 0 .desconexion]) := by
  apply noSeEjecuta_run
  apply eachStep_append
  · apply eachStep_of_forall
    simp [corridaTerminada, DesconectaFueraDeCurso]
  · intro s hs t _
    obtain rfl : estadoAtendido = s := Except.ok.inj ((run_eq_after (by decide)).symm.trans hs)
    exact ⟨fun _ => not_enCurso_atendido, trivial⟩

/-- The Query Control closes while its query waits in READY. A Worker comes, and the
planner gets ready to send it the query. -/
def corridaCancelada : List Evento :=
  [.conectaQuery [] 0, .hilo 0 true, .hilo 0 true, .hilo 0 true, .hilo 0 true,
    .mensaje 0 .desconexion, .conectaWorker 7, .hilo 1 true, .hilo 1 true, .planificador true,
    .planificador true, .planificador true, .planificador true, .planificador true]

theorem not_noSeEjecuta_corridaCancelada :
    ¬ AlongRun (paso (insertionSort ℕ) ⟨.fifo, 0⟩) NoSeEjecuta inicial corridaCancelada := by
  intro h
  have hs := alongRun_last h (run_eq_after (by decide))
  exact (hs 0 (by decide)).2 1 (.enviarPath 0 0 []) (by decide)

end MasterOfFiles.CancelledQueries
