import MasterOfFiles.RunTraces
import MasterOfFiles.SchedulerMoves

/-!
What the steps of the Master do to READY. A query is appended by
agregar_query_ready_fifo, taken off the front by the planner, and then either sent or
put back in front; a tick of the aging thread changes priorities and nothing else
does. Under FIFO nothing is reordered: what a step appends goes behind the queries that
wait and what it sends comes from their front.
-/
namespace MasterOfFiles.ReadyQueue

open PartialRuns SortedLists SchedulerState SchedulerSteps SchedulerMoves

variable {L : ListSort ℕ} {cfg : Config} {s s' : Master} {e : Evento}

section Movimientos

/-- The query that the planner has taken and not sent yet. -/
def retenida : Planificador → List ℕ
  | .buscarWorker q => [q]
  | .asignar q _ => [q]
  | .enviar q _ _ => [q]
  | .reencolar q => [q]
  | _ => []

/-- The query that agregar_query_ready_fifo appends in a step. -/
def agregada (s : Master) : Evento → List ℕ
  | .hilo k _ => match s.hilos[k]? with
    | some (.encolar q _) => [q]
    | _ => []
  | _ => []

/-- The query that the planner sends to a Worker in a step, without an error. -/
def enviada (s : Master) : Evento → List ℕ
  | .planificador true => match s.planificador with
    | .enviar q _ _ => [q]
    | _ => []
  | _ => []

theorem enviada_eq_nil {envio : Bool} (h : ∀ q w p, s.planificador ≠ .enviar q w p) :
    enviada s (.planificador envio) = [] := by
  unfold enviada
  split
  · split
    · exact absurd ‹_› (h _ _ _)
    · rfl
  · rfl

/-- The queries left are old ones, with their qid and their priority. -/
def ClavesConservadas (m m' : ℕ → Option Query) : Prop :=
  ∀ q x', m' q = some x' → ∃ x, m q = some x ∧ x'.qid = x.qid ∧ x'.prioridad = x.prioridad

theorem clavesConservadas_refl (m : ℕ → Option Query) : ClavesConservadas m m :=
  fun _ x' h => ⟨x', h, rfl, rfl⟩

theorem clavesConservadas_update {m : ℕ → Option Query} {q : ℕ} {x y : Query}
    (hq : m q = some x) (hqid : y.qid = x.qid) (hprio : y.prioridad = x.prioridad) :
    ClavesConservadas m (Function.update m q (some y)) := by
  intro p x' hp
  by_cases hpq : p = q
  · subst hpq
    rw [Function.update_self] at hp
    obtain rfl := Option.some.inj hp
    exact ⟨x, hq, hqid, hprio⟩
  · rw [Function.update_of_ne hpq] at hp
    exact ⟨x', hp, rfl, rfl⟩

theorem clavesConservadas_libera (m : ℕ → Option Query) (q : ℕ) :
    ClavesConservadas m (Function.update m q none) := by
  intro p x' hp
  by_cases hpq : p = q
  · subst hpq
    rw [Function.update_self] at hp
    cases hp
  · rw [Function.update_of_ne hpq] at hp
    exact ⟨x', hp, rfl, rfl⟩

theorem clavesConservadas_destruir {m m' : ℕ → Option Query} {l : List ℕ}
    (h : run destruirQuery m l = .ok m') : ClavesConservadas m m' := by
  refine run_invariant (fun t q t' ht hstep => ?_) (clavesConservadas_refl m) ⟨l, h⟩
  unfold destruirQuery at hstep
  split at hstep
  · cases hstep
  · cases hstep
    intro p x' hp
    obtain ⟨x, hx, hqid, hprio⟩ := clavesConservadas_libera t q p x' hp
    obtain ⟨y, hy, hqid', hprio'⟩ := ht p x hx
    exact ⟨y, hy, hqid.trans hqid', hprio.trans hprio'⟩

/-- A step, as READY sees it. -/
inductive PasoCola (L : ListSort ℕ) (cfg : Config) (s : Master) (e : Evento) (s' : Master) : Prop
  | quieta (hcola : s'.colaReadyFIFO = s.colaReadyFIFO)
    (hret : retenida s'.planificador = retenida s.planificador)
    (hclaves : ClavesConservadas s.memQueries s'.memQueries)
    (hagrega : agregada s e = []) (henvia : enviada s e = [])
  | registra (k : ℕ) (x : Query) (path : ByteBuffers.Bytes) (prioridad : ℤ) (qid : ℕ)
    (hk : s.hilos[k]? = some (.registrarQuery path prioridad qid))
    (hx : x = crearQuery path prioridad qid k)
    (hcola : s'.colaReadyFIFO = s.colaReadyFIFO)
    (hret : retenida s'.planificador = retenida s.planificador)
    (hmem : s'.memQueries = Function.update s.memQueries k (some x))
    (hagrega : agregada s e = []) (henvia : enviada s e = [])
  | agrega (q : ℕ)
    (hcola : ordenar L cfg s.memQueries (s.colaReadyFIFO ++ [q]) = .ok s'.colaReadyFIFO)
    (hret : retenida s'.planificador = retenida s.planificador)
    (hmem : s'.memQueries = s.memQueries)
    (hagrega : agregada s e = [q]) (henvia : enviada s e = [])
  | saca (q : ℕ) (hcola : s.colaReadyFIFO = q :: s'.colaReadyFIFO)
    (hret : retenida s.planificador = []) (hret' : retenida s'.planificador = [q])
    (hmem : s'.memQueries = s.memQueries)
    (hagrega : agregada s e = []) (henvia : enviada s e = [])
  | envia (q : ℕ) (hcola : s'.colaReadyFIFO = s.colaReadyFIFO)
    (hret : retenida s.planificador = [q]) (hret' : retenida s'.planificador = [])
    (hmem : s'.memQueries = s.memQueries)
    (hagrega : agregada s e = []) (henvia : enviada s e = [q])
  | repone (q : ℕ) (he : ∃ envio, e = .planificador envio) (hp : s.planificador = .reencolar q)
    (hcola : s'.colaReadyFIFO = q :: s.colaReadyFIFO) (hret' : retenida s'.planificador = [])
    (hmem : s'.memQueries = s.memQueries)
    (hagrega : agregada s e = []) (henvia : enviada s e = [])
  | envejece (hag : HayAging cfg)
    (hvivas : ∀ q ∈ s.colaReadyFIFO, (s.memQueries q).isSome)
    (hcola : ordenar L cfg s'.memQueries s.colaReadyFIFO = .ok s'.colaReadyFIFO)
    (hret : retenida s'.planificador = retenida s.planificador)
    (hmem : s'.memQueries = envejecer s.memQueries s.colaReadyFIFO)
    (hagrega : agregada s e = []) (henvia : enviada s e = [])

theorem pasoCola_of_movimiento (h : Movimiento L cfg s e s') : PasoCola L cfg s e s' := by
  cases h with
  | esperaQuery envio hp hsem =>
    exact .quieta rfl (by rw [hp]; rfl) (clavesConservadas_refl _) rfl
      (enviada_eq_nil (by simp [hp]))
  | esperaWorker envio hp hsem =>
    exact .quieta rfl (by rw [hp]; rfl) (clavesConservadas_refl _) rfl
      (enviada_eq_nil (by simp [hp]))
  | colaVacia envio hp hcola =>
    exact .quieta rfl (by rw [hp]; rfl) (clavesConservadas_refl _) rfl
      (enviada_eq_nil (by simp [hp]))
  | desencola envio q l hp hcola =>
    exact .saca q hcola (by rw [hp]; rfl) rfl rfl rfl (enviada_eq_nil (by simp [hp]))
  | sinWorker envio q hp hlibre =>
    exact .quieta rfl (by rw [hp]; rfl) (clavesConservadas_refl _) rfl
      (enviada_eq_nil (by simp [hp]))
  | tomaWorker envio q w hp hmutex hlibre =>
    exact .quieta rfl (by rw [hp]; rfl) (clavesConservadas_refl _) rfl
      (enviada_eq_nil (by simp [hp]))
  | asigna envio q w x y hp hq hw =>
    exact .quieta rfl (by rw [hp]; rfl) (clavesConservadas_update hq rfl rfl) rfl
      (enviada_eq_nil (by simp [hp]))
  | envia q w p hp =>
    exact .envia q rfl (by rw [hp]; rfl) rfl rfl rfl (by simp [enviada, hp])
  | envioFallido q w p hp =>
    exact .quieta rfl (by rw [hp]; rfl) (clavesConservadas_refl _) rfl rfl
  | reencola envio q hp =>
    exact .repone q ⟨envio, rfl⟩ hp rfl rfl rfl rfl (enviada_eq_nil (by simp [hp]))
  | postQuery envio hp =>
    exact .quieta rfl (by rw [hp]; rfl) (clavesConservadas_refl _) rfl
      (enviada_eq_nil (by simp [hp]))
  | postWorker envio hp =>
    exact .quieta rfl (by rw [hp]; rfl) (clavesConservadas_refl _) rfl
      (enviada_eq_nil (by simp [hp]))
  | tick envio l hag ha hvivas hl =>
    exact .envejece hag hvivas hl rfl rfl rfl rfl
  | registraQuery envio k path prioridad qid hk =>
    exact .registra k _ path prioridad qid hk rfl rfl rfl rfl (by simp [agregada, hk]) rfl
  | desaloja envio k pc w q x y hk hw hy hq =>
    exact .quieta rfl rfl (clavesConservadas_update hq rfl rfl) (by simp [agregada, hk]) rfl
  | enviaFin envio k q x hk hq =>
    exact .quieta rfl rfl (clavesConservadas_update hq rfl rfl) (by simp [agregada, hk]) rfl
  | liberaQuery envio k q x hk hq =>
    exact .quieta rfl rfl (clavesConservadas_libera _ q) (by simp [agregada, hk]) rfl
  | desconectaOcupado envio k w q x y hk hmutex hw hy hq =>
    exact .quieta rfl rfl (clavesConservadas_update hq rfl rfl) (by simp [agregada, hk]) rfl
  | finDesconexion envio k w q x hk hq =>
    exact .quieta rfl rfl (clavesConservadas_libera _ q) (by simp [agregada, hk]) rfl
  | encola envio k q v l hk hl =>
    exact .agrega q hl rfl rfl (by simp [agregada, hk]) rfl
  | sigint m hm =>
    exact .quieta rfl rfl (clavesConservadas_destruir hm) rfl rfl
  | conectaQuery path prioridad =>
    exact .quieta rfl rfl (clavesConservadas_refl _) rfl rfl
  | conectaWorker id =>
    exact .quieta rfl rfl (clavesConservadas_refl _) rfl rfl
  | mensaje k m hk =>
    exact .quieta rfl rfl (clavesConservadas_refl _) rfl rfl
  | desconectaQc k hk =>
    exact .quieta rfl rfl (clavesConservadas_refl _) rfl rfl
  | verificaAging envio d d' ha hd =>
    exact .quieta rfl rfl (clavesConservadas_refl _) rfl rfl
  | _ =>
    exact .quieta rfl rfl (clavesConservadas_refl _) (by simp [agregada, *]) rfl

end Movimientos

section Fifo

def pendientes (s : Master) : List ℕ := retenida s.planificador ++ s.colaReadyFIFO

theorem ordenar_fifo {t : ℤ} {m : ℕ → Option Query} {l l' : List ℕ}
    (h : ordenar L ⟨.fifo, t⟩ m l = .ok l') : l' = l := by
  rw [ordenar, if_neg (by simp)] at h
  exact (Except.ok.inj h).symm

theorem pendientes_paso {t : ℤ} (h : paso L ⟨.fifo, t⟩ s e = .ok s') :
    pendientes s ++ agregada s e = enviada s e ++ pendientes s' := by
  unfold pendientes
  cases pasoCola_of_movimiento (movimiento_of_paso h).2 with
  | quieta hcola hret hclaves hagrega henvia => simp [hcola, hret, hagrega, henvia]
  | registra k x path prioridad qid hk hx hcola hret hmem hagrega henvia =>
    simp [hcola, hret, hagrega, henvia]
  | agrega q hcola hret hmem hagrega henvia =>
    simp [ordenar_fifo hcola, hret, hagrega, henvia]
  | saca q hcola hret hret' hmem hagrega henvia => simp [hcola, hret, hret', hagrega, henvia]
  | envia q hcola hret hret' hmem hagrega henvia => simp [hcola, hret, hret', hagrega, henvia]
  | repone q he hp hcola hret' hmem hagrega henvia =>
    have hret : retenida s.planificador = [q] := by rw [hp]; rfl
    simp [hret, hcola, hret', hagrega, henvia]
  | envejece hag hvivas hcola hret hmem hagrega henvia =>
    simp [ordenar_fifo hcola, hret, hagrega, henvia]

end Fifo

end MasterOfFiles.ReadyQueue
