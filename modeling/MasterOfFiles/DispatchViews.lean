import MasterOfFiles.DispatchNetwork
import MasterOfFiles.QueryOwnership
import MasterOfFiles.SemaphoreCounts

/-!
What the reports of a Query see of a step of the Master: which Query each Worker runs,
the number of each Query, the packet that the planner is about to send, and the part
each thread plays. Most steps change none of these, and the others change one place.
-/
namespace MasterOfFiles.DispatchViews

open ByteBuffers PartialRuns SortedLists SchedulerState SchedulerSteps SchedulerMoves
open QueryHolders WorkerRecords QueryOwnership SemaphoreCounts DispatchNetwork

variable {L : ListSort ℕ} {t : ℤ} {s s' : Master} {e : Evento}

section Vistas

/-- The part of a thread: it has no record yet, it serves a Query Control, it serves a
Worker, it has read the end of the run of the Query number `n`, or it has taken the
Query from its Worker and has told the Query Control, or not yet. -/
inductive Papel
  | fuera
  | consulta
  | oyente
  | fin (n : ℕ)
  | cierra (q : ℕ) (avisado : Bool)
  | otro
  deriving DecidableEq

def papel : Hilo → Papel
  | .crearQuery _ _ => .fuera
  | .registrarQuery _ _ _ => .fuera
  | .altaWorker _ => .fuera
  | .encolar _ .query => .consulta
  | .avisarQuery .query => .consulta
  | .bucleQuery => .consulta
  | .finQuery => .consulta
  | .avisarWorker => .oyente
  | .bucleWorker => .oyente
  | .buscar (.finQuery (some n)) => .fin n
  | .atender (.finQuery (some n)) (some _) => .fin n
  | .recibirFin (some n) _ _ => .fin n
  | .registrarLibre _ (.fin q) => .cierra q false
  | .avisarLibre (.fin q) => .cierra q false
  | .enviarFin q => .cierra q false
  | .liberarQuery q => .cierra q true
  | _ => .otro

/-- A connection that has not been accepted yet has no record either. -/
def papelDe (s : Master) (k : ℕ) : Papel := (s.hilos[k]?.map papel).getD .fuera

/-- The thread serves a Worker whose record is listed. -/
def Sirve : Papel → Prop
  | .oyente => True
  | .fin _ => True
  | .cierra _ _ => True
  | _ => False

def queryDe (s : Master) (w : ℕ) : Option ℕ := (s.memWorkers w).bind Worker.ejecutando

def numeroDe (s : Master) (q : ℕ) : Option ℕ := (s.memQueries q).map Query.qid

/-- The packet that the planner is about to send. -/
def saliente (s : Master) : Option (ℕ × Encargo) :=
  match s.planificador with
  | .enviar q w p => some (w, ⟨q, p⟩)
  | _ => none

theorem papelDe_of_hilo {k : ℕ} {hl : Hilo} (hk : s.hilos[k]? = some hl) :
    papelDe s k = papel hl := by
  simp [papelDe, hk]

theorem papelDe_set {k : ℕ} {hl hl' : Hilo} {p : Papel} (hk : s.hilos[k]? = some hl)
    (hh : s'.hilos = s.hilos.set k hl') (hp : papel hl' = p) :
    papelDe s' = Function.update (papelDe s) k p := by
  subst hp
  funext i
  unfold papelDe
  rw [hh]
  by_cases hik : i = k
  · subst hik
    rw [List.getElem?_set_self (List.getElem?_eq_some_iff.mp hk).1, Function.update_self]
    rfl
  · rw [List.getElem?_set_ne (Ne.symm hik), Function.update_of_ne hik]

/-- A thread that goes on in the same part. -/
theorem papelDe_set_eq (hl' : Hilo) {k : ℕ} {hl : Hilo} (hk : s.hilos[k]? = some hl)
    (hh : s'.hilos = s.hilos.set k hl') (hp : papel hl' = papel hl) :
    papelDe s' = papelDe s := by
  rw [papelDe_set hk hh hp, ← papelDe_of_hilo hk, Function.update_eq_self]

theorem papelDe_append (hl : Hilo) (hp : papel hl = .fuera) (hh : s'.hilos = s.hilos ++ [hl]) :
    papelDe s' = papelDe s := by
  funext i
  unfold papelDe
  rw [hh, List.getElem?_append]
  split_ifs with hi
  · rfl
  · rw [List.getElem?_eq_none (Nat.le_of_not_lt hi)]
    by_cases h0 : i - s.hilos.length = 0
    · simp [h0, hp]
    · rw [List.getElem?_eq_none (by simp; omega)]

theorem hilo_of_papelDe {k : ℕ} (h : papelDe s k ≠ .fuera) : ∃ hl, s.hilos[k]? = some hl := by
  cases hk : s.hilos[k]? with
  | none => exact absurd (by simp [papelDe, hk]) h
  | some hl => exact ⟨hl, rfl⟩

theorem queryDe_update {w : ℕ} {o : Option Worker} {a : Option ℕ}
    (hm : s'.memWorkers = Function.update s.memWorkers w o) (ha : o.bind Worker.ejecutando = a) :
    queryDe s' = Function.update (queryDe s) w a := by
  subst ha
  funext v
  unfold queryDe
  rw [hm]
  by_cases hv : v = w
  · subst hv
    rw [Function.update_self, Function.update_self]
  · rw [Function.update_of_ne hv, Function.update_of_ne hv]

theorem numeroDe_update {q : ℕ} {o : Option Query} {a : Option ℕ}
    (hm : s'.memQueries = Function.update s.memQueries q o) (ha : o.map Query.qid = a) :
    numeroDe s' = Function.update (numeroDe s) q a := by
  subst ha
  funext p
  unfold numeroDe
  rw [hm]
  by_cases hp : p = q
  · subst hp
    rw [Function.update_self, Function.update_self]
  · rw [Function.update_of_ne hp, Function.update_of_ne hp]

/-- A record that keeps its number. -/
theorem numeroDe_escribe {q : ℕ} {x y : Query} (hx : s.memQueries q = some x)
    (hm : s'.memQueries = Function.update s.memQueries q (some y)) (hy : y.qid = x.qid) :
    numeroDe s' = numeroDe s := by
  have hsame : (some y).map Query.qid = numeroDe s q := by simp [numeroDe, hx, hy]
  rw [numeroDe_update hm hsame, Function.update_eq_self]

theorem queryDe_escribe {w : ℕ} {y z : Worker} (hy : s.memWorkers w = some y)
    (hm : s'.memWorkers = Function.update s.memWorkers w (some z))
    (hz : z.ejecutando = y.ejecutando) : queryDe s' = queryDe s := by
  have hsame : (some z).bind Worker.ejecutando = queryDe s w := by simp [queryDe, hy, hz]
  rw [queryDe_update hm hsame, Function.update_eq_self]

end Vistas

section EnLinea

/-- The Master while no Worker leaves and no send fails. -/
structure EnLinea (s : Master) : Prop where
  custodia : Custodia s
  contado : Contado s
  correr : s.correr = true
  mutex : s.mutexWorkersConectados = false
  papeles : ∀ k, papelDe s k ≠ .otro
  listados : ∀ k, Sirve (papelDe s k) ↔ k ∈ s.listaWorkersConectados
  anotados : ∀ w, (s.memWorkers w).isSome → w ∈ s.listaWorkersConectados
  nuevas : ∀ q x, s.memQueries q = some x →
    x.pc = 0 ∧ x.socketQuery = q ∧ papelDe s q = .consulta
  ocupados : ∀ w y, s.memWorkers w = some y → y.libre = false → y.ejecutando = none →
    (∃ q, s.planificador = .asignar q w) ∨ ∃ t, s.hilos[w]? = some (.registrarLibre w t)
  planifica : s.planificador ≠ .postQuery ∧ s.planificador ≠ .postWorker ∧
    ∀ q, s.planificador ≠ .reencolar q

/-- A thread that has read the end of a run serves the Worker that ran it. -/
def FinesAtendidos (s : Master) : Prop :=
  ∀ k n, papelDe s k = .fin n → ∃ q, queryDe s k = some q ∧ numeroDe s q = some n

theorem enLinea_inicial : EnLinea inicial where
  custodia := custodia_inicial
  contado := contado_inicial
  correr := rfl
  mutex := rfl
  papeles k := by simp [papelDe, inicial]
  listados k := by simp [papelDe, inicial, Sirve]
  anotados w h := by simp [inicial] at h
  nuevas q x h := by simp [inicial] at h
  ocupados w y h := by simp [inicial] at h
  planifica := by simp [inicial]

variable (hs : EnLinea s)
include hs

theorem EnLinea.papel_ne_otro {k : ℕ} {hl : Hilo} (hk : s.hilos[k]? = some hl) :
    papel hl ≠ .otro := papelDe_of_hilo hk ▸ hs.papeles k

theorem EnLinea.listado {k : ℕ} {hl : Hilo} (hk : s.hilos[k]? = some hl) (h : Sirve (papel hl)) :
    k ∈ s.listaWorkersConectados :=
  (hs.listados k).mp (by rwa [papelDe_of_hilo hk])

/-- A listed Worker is found by its connection. -/
theorem EnLinea.buscarWorkerPorSocket_eq {k : ℕ} (hk : k ∈ s.listaWorkersConectados) :
    buscarWorkerPorSocket s k = some k := by
  have hf := hs.custodia.fichas
  cases hb : buscarWorkerPorSocket s k with
  | some w =>
    obtain ⟨hw, y, hy, hsocket⟩ := mem_of_buscarWorkerPorSocket hb
    rw [← (hf.viva hw hy).1, hsocket]
  | none =>
    obtain ⟨y, hy, hsocket, _⟩ := hf.vivas k hk
    have hno := List.find?_eq_none.mp hb k hk
    simp [hy, hsocket] at hno

/-- Nothing that the invariants of the Master exclude happens in the network. -/
theorem EnLinea.sinFallas (hd : deRed s e = true ∨ ∃ k n, e = .mensaje k (.finQuery (some n))) :
    SinDesliz s e ∧ SinDeriva s e := by
  have hno : ∀ (k : ℕ) w, s.hilos[k]? ≠ some (.atender .desconexion w) := fun k w hk =>
    hs.papel_ne_otro hk rfl
  cases e with
  | planificador envio =>
    obtain rfl : envio = true := by simpa [deRed] using hd
    exact ⟨trivial, rfl⟩
  | hilo k envio =>
    constructor
    · simp only [SinDesliz]
      split
      · exact hno k _
      · trivial
    · unfold SinDeriva
      simp only [deriva]
      split
      · rename_i w hk
        exact absurd hk (hno k (some w))
      · rfl
  | _ => exact ⟨trivial, rfl⟩

end EnLinea

section Movimientos

/-- The moves of the Master that are left in the network. -/
inductive MovimientoDeRed (s : Master) : Evento → Master → Prop
  | conectaQuery (path : Bytes) (prioridad : ℤ) :
    MovimientoDeRed s (.conectaQuery path prioridad)
      { s with hilos := s.hilos ++ [.crearQuery path prioridad] }
  | conectaWorker (id : ℕ) :
    MovimientoDeRed s (.conectaWorker id) { s with hilos := s.hilos ++ [.altaWorker id] }
  | recibe (k n : ℕ) (hk : s.hilos[k]? = some .bucleWorker) :
    MovimientoDeRed s (.mensaje k (.finQuery (some n)))
      { s with hilos := s.hilos.set k (.buscar (.finQuery (some n))) }
  | cierraControl (k : ℕ) (hk : s.hilos[k]? = some .bucleQuery) :
    MovimientoDeRed s (.mensaje k .desconexion) { s with hilos := s.hilos.set k .finQuery }
  | esperaQuery (hp : s.planificador = .esperaQuery) (hsem : s.semQueriesPendientes ≠ 0) :
    MovimientoDeRed s (.planificador true) { s with
      semQueriesPendientes := s.semQueriesPendientes - 1
      planificador := .esperaWorker }
  | esperaWorker (hp : s.planificador = .esperaWorker) (hsem : s.semWorkersDisponibles ≠ 0) :
    MovimientoDeRed s (.planificador true) { s with
      semWorkersDisponibles := s.semWorkersDisponibles - 1
      planificador := .desencolar }
  | desencola (q : ℕ) (l : List ℕ) (hp : s.planificador = .desencolar)
    (hcola : s.colaReadyFIFO = q :: l) :
    MovimientoDeRed s (.planificador true)
      { s with colaReadyFIFO := l, planificador := .buscarWorker q }
  | tomaWorker (q w : ℕ) (y : Worker) (hp : s.planificador = .buscarWorker q)
    (hlibre : obtenerWorkerLibre s = some w) (hy : s.memWorkers w = some y) :
    MovimientoDeRed s (.planificador true) { s with
      memWorkers := Function.update s.memWorkers w (some { y with libre := false })
      planificador := .asignar q w }
  | asigna (q w : ℕ) (x : Query) (y : Worker) (hp : s.planificador = .asignar q w)
    (hq : s.memQueries q = some x) (hw : s.memWorkers w = some y) (hy : y.ejecutando = none) :
    MovimientoDeRed s (.planificador true) { s with
      memQueries := Function.update s.memQueries q
        (some { x with estadoActual := .exec, workerAsignado := some w })
      memWorkers := Function.update s.memWorkers w (some { y with ejecutando := some q })
      planificador := .enviar q w (.enviarPath x.qid 0 x.path) }
  | envia (q w : ℕ) (p : Paquete) (hp : s.planificador = .enviar q w p) :
    MovimientoDeRed s (.planificador true) { s with planificador := .esperaQuery }
  | creaQuery (k : ℕ) (path : Bytes) (prioridad : ℤ)
    (hk : s.hilos[k]? = some (.crearQuery path prioridad)) :
    MovimientoDeRed s (.hilo k true) { s with
      nextQid := (s.nextQid + 1) % 2 ^ 32
      hilos := s.hilos.set k (.registrarQuery path prioridad s.nextQid) }
  | registraQuery (k : ℕ) (path : Bytes) (prioridad : ℤ) (qid : ℕ)
    (hk : s.hilos[k]? = some (.registrarQuery path prioridad qid)) :
    MovimientoDeRed s (.hilo k true) { s with
      memQueries := Function.update s.memQueries k (some (crearQuery path prioridad qid k))
      queriesActivas := s.queriesActivas ++ [k]
      hilos := s.hilos.set k (.encolar k .query) }
  | altaWorker (k id : ℕ) (hk : s.hilos[k]? = some (.altaWorker id)) :
    MovimientoDeRed s (.hilo k true) { s with
      memWorkers := Function.update s.memWorkers k (some ⟨k, id, true, none⟩)
      listaWorkersConectados := s.listaWorkersConectados ++ [k]
      hilos := s.hilos.set k .avisarWorker }
  | avisaWorker (k : ℕ) (hk : s.hilos[k]? = some .avisarWorker) :
    MovimientoDeRed s (.hilo k true) { s with
      semWorkersDisponibles := s.semWorkersDisponibles + 1
      hilos := s.hilos.set k .bucleWorker }
  | busca (k n : ℕ) (hk : s.hilos[k]? = some (.buscar (.finQuery (some n)))) :
    MovimientoDeRed s (.hilo k true)
      { s with hilos := s.hilos.set k (.atender (.finQuery (some n)) (some k)) }
  | esperaFin (k q n : ℕ) (hk : s.hilos[k]? = some (.atender (.finQuery (some n)) (some k))) :
    MovimientoDeRed s (.hilo k true)
      { s with hilos := s.hilos.set k (.recibirFin (some n) q k) }
  | termina (k q : ℕ) (x : Query) (y : Worker)
    (hk : s.hilos[k]? = some (.recibirFin (some x.qid) q k)) (hq : s.memQueries q = some x)
    (hw : s.memWorkers k = some y) (hy : y.ejecutando = some q) :
    MovimientoDeRed s (.hilo k true) { s with
      memWorkers := Function.update s.memWorkers k (some { y with ejecutando := none })
      hilos := s.hilos.set k (.registrarLibre k (.fin q)) }
  | registraLibre (k q : ℕ) (y : Worker) (hk : s.hilos[k]? = some (.registrarLibre k (.fin q)))
    (hw : s.memWorkers k = some y) (hy : y.ejecutando = none) :
    MovimientoDeRed s (.hilo k true) { s with
      memWorkers := Function.update s.memWorkers k
        (some { y with libre := true, ejecutando := none })
      hilos := s.hilos.set k (.avisarLibre (.fin q)) }
  | avisaLibre (k q : ℕ) (hk : s.hilos[k]? = some (.avisarLibre (.fin q))) :
    MovimientoDeRed s (.hilo k true) { s with
      semWorkersDisponibles := s.semWorkersDisponibles + 1
      hilos := s.hilos.set k (.enviarFin q) }
  | enviaFin (k q : ℕ) (x : Query) (hk : s.hilos[k]? = some (.enviarFin q))
    (hq : s.memQueries q = some x) :
    MovimientoDeRed s (.hilo k true) { s with
      memQueries := Function.update s.memQueries q (some { x with estadoActual := .exit })
      hilos := s.hilos.set k (.liberarQuery q) }
  | liberaQuery (k q : ℕ) (x : Query) (hk : s.hilos[k]? = some (.liberarQuery q))
    (hq : s.memQueries q = some x) :
    MovimientoDeRed s (.hilo k true) { s with
      memQueries := Function.update s.memQueries q none
      hilos := s.hilos.set k .bucleWorker }
  | encola (k q : ℕ) (hk : s.hilos[k]? = some (.encolar q .query)) :
    MovimientoDeRed s (.hilo k true) { s with
      colaReadyFIFO := s.colaReadyFIFO ++ [q]
      hilos := s.hilos.set k (.avisarQuery .query) }
  | avisaQuery (k : ℕ) (hk : s.hilos[k]? = some (.avisarQuery .query)) :
    MovimientoDeRed s (.hilo k true) { s with
      semQueriesPendientes := s.semQueriesPendientes + 1
      hilos := s.hilos.set k .bucleQuery }

/-- A step of the Master that the network takes. -/
def TomadoPorRed (s : Master) (e : Evento) : Prop :=
  deRed s e = true ∨ ∃ k n, e = .mensaje k (.finQuery (some n))

variable {k : ℕ} {envio : Bool}

theorem EnLinea.paso_hilo (hs : EnLinea s) (envio : Bool) (L : ListSort ℕ) (t : ℤ) {hl : Hilo}
    (hk : s.hilos[k]? = some hl) :
    paso L ⟨.fifo, t⟩ s (.hilo k envio) = atenderCliente L ⟨.fifo, t⟩ s k hl := by
  unfold paso
  rw [if_pos hs.correr]
  simp only [hk]

/-- The thread finds the Query that its Worker runs, and does not drop the message. -/
theorem recibirFin_of_atender (hs : EnLinea s) (hfines : FinesAtendidos s) {n : ℕ}
    (hk : s.hilos[k]? = some (.atender (.finQuery (some n)) (some k)))
    (h : paso L ⟨.fifo, t⟩ s (.hilo k envio) = .ok s') :
    ∃ q, s' = { s with hilos := s.hilos.set k (.recibirFin (some n) q k) } := by
  obtain ⟨q, hquery, _⟩ := hfines k n (papelDe_of_hilo hk)
  obtain ⟨y, hy, hejecuta⟩ := Option.bind_eq_some_iff.mp hquery
  refine ⟨q, ?_⟩
  rw [hs.paso_hilo envio L t hk] at h
  simp only [atenderCliente, finQuery, hy, hejecuta] at h
  exact (Except.ok.inj h).symm

/-- A thread in the network looks up its own Worker, for the end of a run. -/
theorem fin_of_atender (hs : EnLinea s) {m : Mensaje} {w : Option ℕ}
    (hk : s.hilos[k]? = some (.atender m w)) :
    ∃ n, s.hilos[k]? = some (.atender (.finQuery (some n)) (some k)) := by
  have hpapel := hs.papel_ne_otro hk
  cases w with
  | none =>
    cases m with
    | finQuery qid => cases qid <;> exact absurd rfl hpapel
    | queryDesalojada qid pc => exact absurd rfl hpapel
    | desconexion => exact absurd rfl hpapel
  | some w =>
    obtain ⟨rfl, _⟩ := hs.custodia.fichas.hilos k _ hk
    cases m with
    | finQuery qid =>
      cases qid with
      | none => exact absurd rfl hpapel
      | some n => exact ⟨n, hk⟩
    | queryDesalojada qid pc => exact absurd rfl hpapel
    | desconexion => exact absurd rfl hpapel

/-- The end of the run is the one the Query is waiting for. -/
theorem registrarLibre_of_recibirFin (hs : EnLinea s) (hfines : FinesAtendidos s) {n q w : ℕ}
    (hk : s.hilos[k]? = some (.recibirFin (some n) q w))
    (h : paso L ⟨.fifo, t⟩ s (.hilo k true) = .ok s') : MovimientoDeRed s (.hilo k true) s' := by
  obtain ⟨rfl, _, y, hy, _, _, hejecuta⟩ := hs.custodia.fichas.hilos k _ hk
  obtain ⟨q', hquery, hnum⟩ := hfines _ n (papelDe_of_hilo hk)
  obtain rfl : q = q' := by simpa [queryDe, hy, hejecuta] using hquery
  obtain ⟨x, hx, rfl⟩ := Option.map_eq_some_iff.mp hnum
  rw [hs.paso_hilo true L t hk] at h
  simp only [atenderCliente, recibirFin, hx, hy, if_true] at h
  obtain rfl := Except.ok.inj h
  exact .termina _ q x y hk hx hy hejecuta

theorem movimientoDeRed_of_paso (hs : EnLinea s) (hfines : FinesAtendidos s)
    (hd : TomadoPorRed s e) (h : paso L ⟨.fifo, t⟩ s e = .ok s') : MovimientoDeRed s e s' := by
  have hexactos := semaforosExactos_of_contado hs.contado
  have hplan := hs.planifica
  have hfichas := hs.custodia.fichas
  have hforma : ∀ envio : Bool, TomadoPorRed s (.planificador envio) → envio = true := by
    intro envio hd
    simpa [TomadoPorRed, deRed] using hd
  have hforma' : ∀ (k : ℕ) (envio : Bool), TomadoPorRed s (.hilo k envio) → envio = true := by
    intro k envio hd
    simpa [TomadoPorRed, deRed] using hd
  cases (movimiento_of_paso h).2 with
  | conectaQuery path prioridad => exact .conectaQuery path prioridad
  | conectaWorker id => exact .conectaWorker id
  | mensaje k m hk =>
    obtain ⟨n, rfl⟩ : ∃ n, m = .finQuery (some n) := by
      simpa [TomadoPorRed, deRed, hk] using hd
    exact .recibe k n hk
  | desconectaQc k hk => exact .cierraControl k hk
  | esperaQuery envio hp hsem =>
    obtain rfl := hforma envio hd
    exact .esperaQuery hp hsem
  | esperaWorker envio hp hsem =>
    obtain rfl := hforma envio hd
    exact .esperaWorker hp hsem
  | colaVacia envio hp hcola => exact absurd hcola (hexactos.hayQuery hp)
  | desencola envio q l hp hcola =>
    obtain rfl := hforma envio hd
    exact .desencola q l hp hcola
  | sinWorker envio q hp hlibre => exact absurd hlibre (hexactos.hayWorker q hp)
  | tomaWorker envio q w hp hmutex hlibre =>
    obtain rfl := hforma envio hd
    obtain ⟨_, y, hy, _⟩ := mem_of_obtenerWorkerLibre hlibre
    rw [hy, Option.map_some]
    exact .tomaWorker q w y hp hlibre hy
  | asigna envio q w x y hp hq hw =>
    obtain rfl := hforma envio hd
    have hin := hs.anotados w (by simp [hw])
    obtain ⟨⟨z, hz, _, hnone⟩, _⟩ := hfichas.asignado q w hp hin
    obtain rfl := Option.some.inj (hw.symm.trans hz)
    have hpaq : armarPaquete x = .enviarPath x.qid 0 x.path := by
      simp [armarPaquete, (hs.nuevas q x hq).1]
    rw [hpaq]
    exact .asigna q w x y hp hq hw hnone
  | envia q w p hp => exact .envia q w p hp
  | envioFallido q w p hp => exact absurd (hforma false hd) Bool.false_ne_true
  | reencola envio q hp => exact absurd hp (hplan.2.2 q)
  | postQuery envio hp => exact absurd hp hplan.1
  | postWorker envio hp => exact absurd hp hplan.2.1
  | tick envio l hag ha hvivas hl => simp [TomadoPorRed, deRed] at hd
  | verificaAging envio d d' ha hd' => simp [TomadoPorRed, deRed] at hd
  | sigint m hm => simp [TomadoPorRed, deRed] at hd
  | creaQuery envio k path prioridad hk =>
    obtain rfl := hforma' k envio hd
    exact .creaQuery k path prioridad hk
  | registraQuery envio k path prioridad qid hk =>
    obtain rfl := hforma' k envio hd
    exact .registraQuery k path prioridad qid hk
  | altaWorker envio k id hk hmutex =>
    obtain rfl := hforma' k envio hd
    exact .altaWorker k id hk
  | avisaWorker envio k hk =>
    obtain rfl := hforma' k envio hd
    exact .avisaWorker k hk
  | busca envio k m hk =>
    obtain rfl := hforma' k envio hd
    have hm := hs.papel_ne_otro hk
    obtain ⟨n, rfl⟩ : ∃ n, m = .finQuery (some n) := by
      cases m with
      | finQuery qid =>
        cases qid with
        | none => exact absurd rfl hm
        | some n => exact ⟨n, rfl⟩
      | queryDesalojada qid pc => exact absurd rfl hm
      | desconexion => exact absurd rfl hm
    rw [hs.buscarWorkerPorSocket_eq (hs.listado hk trivial)]
    exact .busca k n hk
  | sinFicha envio k hk => exact absurd rfl (hs.papel_ne_otro hk)
  | descarta envio k m w hk hm =>
    -- what the thread holds is the end of a run, so this step is the next one
    obtain rfl := hforma' k envio hd
    obtain ⟨n, hk⟩ := fin_of_atender hs hk
    obtain ⟨q, hq⟩ := recibirFin_of_atender hs hfines hk h
    rw [hq]
    exact .esperaFin k q n hk
  | esperaFin envio k w q qid y hk hw hy =>
    obtain rfl := hforma' k envio hd
    obtain ⟨rfl, _⟩ := hfichas.hilos k _ hk
    cases qid with
    | none => exact absurd rfl (hs.papel_ne_otro hk)
    | some n => exact .esperaFin w q n hk
  | desaloja envio k pc w q x y hk hw hy hq => exact absurd rfl (hs.papel_ne_otro hk)
  | descartaFin envio k w q qid hk =>
    obtain rfl := hforma' k envio hd
    cases qid with
    | none => exact absurd rfl (hs.papel_ne_otro hk)
    | some n => exact registrarLibre_of_recibirFin hs hfines hk h
  | termina envio k w q x y hk hq hw =>
    obtain rfl := hforma' k envio hd
    exact registrarLibre_of_recibirFin hs hfines hk h
  | registraLibre envio k w tr y hk hmutex hw =>
    obtain rfl := hforma' k envio hd
    obtain ⟨rfl, _, z, hz, _, _, hnone⟩ := hfichas.hilos k _ hk
    obtain rfl := Option.some.inj (hw.symm.trans hz)
    cases tr with
    | desalojada q => exact absurd rfl (hs.papel_ne_otro hk)
    | fin q => exact .registraLibre w q y hk hw hnone
  | avisaLibre envio k tr hk =>
    obtain rfl := hforma' k envio hd
    cases tr with
    | desalojada q => exact absurd rfl (hs.papel_ne_otro hk)
    | fin q => exact .avisaLibre k q hk
  | enviaFin envio k q x hk hq =>
    obtain rfl := hforma' k envio hd
    exact .enviaFin k q x hk hq
  | liberaQuery envio k q x hk hq =>
    obtain rfl := hforma' k envio hd
    exact .liberaQuery k q x hk hq
  | desconectaLibre envio k w y hk hmutex hw hy => exact absurd rfl (hs.papel_ne_otro hk)
  | desconectaOcupado envio k w q x y hk hmutex hw hy hq =>
    exact absurd rfl (hs.papel_ne_otro hk)
  | finDesconexion envio k w q x hk hq => exact absurd rfl (hs.papel_ne_otro hk)
  | liberaWorker envio k w hk => exact absurd rfl (hs.papel_ne_otro hk)
  | encola envio k q v l hk hl =>
    obtain rfl := hforma' k envio hd
    obtain rfl := ReadyQueue.ordenar_fifo hl
    cases v with
    | worker => exact absurd rfl (hs.papel_ne_otro hk)
    | query => exact .encola k q hk
  | avisaQuery envio k v hk =>
    obtain rfl := hforma' k envio hd
    cases v with
    | worker => exact absurd rfl (hs.papel_ne_otro hk)
    | query => exact .avisaQuery k hk
  | verifica envio k d d' v hk hd' => exact absurd rfl (hs.papel_ne_otro hk)
  | terminaVerificar envio k d v hk hd' => exact absurd rfl (hs.papel_ne_otro hk)

end Movimientos

section Pasos

/-- What a step of the network does to the views: nothing but perhaps a new Worker, or
one of the changes along the way of a Query. -/
inductive Vista (s : Master) (e : Evento) (s' : Master) : Prop
  | quieta (hq : queryDe s' = queryDe s) (hn : numeroDe s' = numeroDe s)
    (hs : saliente s' = saliente s)
    (hp : ∀ k, papelDe s' k = papelDe s k ∨
      papelDe s k = .fuera ∧ papelDe s' k = .oyente ∧ k ∈ s'.listaWorkersConectados)
    (hpaq : paqueteEnviado s e = none) (hfin : finEnviado s e = none)
  | registra (k n : ℕ) (hq : queryDe s' = queryDe s) (hnone : numeroDe s k = none)
    (hn : numeroDe s' = Function.update (numeroDe s) k (some n)) (hs : saliente s' = saliente s)
    (hfuera : papelDe s k = .fuera) (hp : papelDe s' = Function.update (papelDe s) k .consulta)
    (hpaq : paqueteEnviado s e = none) (hfin : finEnviado s e = none)
  | asigna (q w n : ℕ) (path : Bytes) (hnone : queryDe s w = none)
    (hq : queryDe s' = Function.update (queryDe s) w (some q)) (hnum : numeroDe s q = some n)
    (hn : numeroDe s' = numeroDe s) (hplan : s.planificador = .asignar q w)
    (hs : saliente s' = some (w, ⟨q, .enviarPath n 0 path⟩)) (hp : papelDe s' = papelDe s)
    (hpaq : paqueteEnviado s e = none) (hfin : finEnviado s e = none)
  | envia (w : ℕ) (p : Encargo) (hq : queryDe s' = queryDe s) (hn : numeroDe s' = numeroDe s)
    (hsale : saliente s = some (w, p)) (hs : saliente s' = none) (hp : papelDe s' = papelDe s)
    (hpaq : paqueteEnviado s e = some (w, p)) (hfin : finEnviado s e = none)
  | recibe (k n : ℕ) (hq : queryDe s' = queryDe s) (hn : numeroDe s' = numeroDe s)
    (hs : saliente s' = saliente s) (he : e = .mensaje k (.finQuery (some n)))
    (hoye : papelDe s k = .oyente) (hp : papelDe s' = Function.update (papelDe s) k (.fin n))
  | termina (k q n : ℕ) (hquery : queryDe s k = some q)
    (hq : queryDe s' = Function.update (queryDe s) k none) (hnum : numeroDe s q = some n)
    (hn : numeroDe s' = numeroDe s) (hs : saliente s' = saliente s) (hleyo : papelDe s k = .fin n)
    (hp : papelDe s' = Function.update (papelDe s) k (.cierra q false))
    (hpaq : paqueteEnviado s e = none) (hfin : finEnviado s e = none)
  | avisaFin (k q : ℕ) (hq : queryDe s' = queryDe s) (hn : numeroDe s' = numeroDe s)
    (hs : saliente s' = saliente s) (hcierra : papelDe s k = .cierra q false)
    (hp : papelDe s' = Function.update (papelDe s) k (.cierra q true))
    (hpaq : paqueteEnviado s e = none) (hfin : finEnviado s e = some q)
  | libera (k q : ℕ) (hq : queryDe s' = queryDe s)
    (hn : numeroDe s' = Function.update (numeroDe s) q none) (hs : saliente s' = saliente s)
    (hcierra : papelDe s k = .cierra q true)
    (hp : papelDe s' = Function.update (papelDe s) k .oyente)
    (hpaq : paqueteEnviado s e = none) (hfin : finEnviado s e = none)

/-- A thread goes on in its part, and the rest is as it was. -/
theorem vista_mueve {k : ℕ} {hl hl' : Hilo} {envio : Bool} (hk : s.hilos[k]? = some hl)
    (hh : s'.hilos = s.hilos.set k hl') (hp : papel hl' = papel hl)
    (hq : queryDe s' = queryDe s) (hn : numeroDe s' = numeroDe s)
    (hplan : s'.planificador = s.planificador) (hno : ∀ q, hl ≠ .enviarFin q) :
    Vista s (.hilo k envio) s' := by
  refine .quieta hq hn ?_ (fun i => Or.inl ?_) rfl ?_
  · unfold saliente
    rw [hplan]
  · rw [papelDe_set_eq hl' hk hh hp]
  · simp only [finEnviado, hk]
    split
    · rename_i q heq
      exact absurd (Option.some.inj heq) (hno q)
    · rfl

/-- The planner goes on, and neither was nor is about to send. -/
theorem vista_planificador {envio : Bool} (hh : s'.hilos = s.hilos)
    (hq : queryDe s' = queryDe s) (hn : numeroDe s' = numeroDe s)
    (hno : ∀ q w p, s.planificador ≠ .enviar q w p)
    (hno' : ∀ q w p, s'.planificador ≠ .enviar q w p) : Vista s (.planificador envio) s' := by
  have hsale : ∀ m : Master, (∀ q w p, m.planificador ≠ .enviar q w p) → saliente m = none := by
    intro m hm
    unfold saliente
    split
    · exact absurd ‹_› (hm _ _ _)
    · rfl
  refine .quieta hq hn ((hsale s' hno').trans (hsale s hno).symm) (fun i => Or.inl ?_) ?_ rfl
  · unfold papelDe
    rw [hh]
  · cases envio with
    | false => rfl
    | true => exact hsale s hno

theorem vista_of_movimiento (hs : EnLinea s) (hm : MovimientoDeRed s e s') : Vista s e s' := by
  cases hm with
  | conectaQuery path prioridad =>
    exact .quieta rfl rfl rfl (fun i => Or.inl (by rw [papelDe_append _ rfl rfl])) rfl rfl
  | conectaWorker id =>
    exact .quieta rfl rfl rfl (fun i => Or.inl (by rw [papelDe_append _ rfl rfl])) rfl rfl
  | recibe k n hk => 
    exact .recibe k n rfl rfl rfl rfl (papelDe_of_hilo hk)
      (papelDe_set hk rfl rfl)
  | cierraControl k hk =>
    refine .quieta rfl rfl rfl (fun i => Or.inl ?_) rfl rfl
    rw [papelDe_set_eq .finQuery hk rfl rfl]
  | esperaQuery hp hsem => exact vista_planificador rfl rfl rfl (by simp [hp]) (by simp)
  | esperaWorker hp hsem => exact vista_planificador rfl rfl rfl (by simp [hp]) (by simp)
  | desencola q l hp hcola => exact vista_planificador rfl rfl rfl (by simp [hp]) (by simp)
  | tomaWorker q w y hp hlibre hy =>
    exact vista_planificador rfl (queryDe_escribe hy rfl rfl) rfl (by simp [hp]) (by simp)
  | asigna q w x y hp hq hw hy =>
    refine .asigna q w x.qid x.path ?_ (queryDe_update rfl rfl) ?_ (numeroDe_escribe hq rfl rfl) hp
      rfl rfl ?_ rfl
    · simp [queryDe, hw, hy]
    · simp [numeroDe, hq]
    · simp [paqueteEnviado, hp]
  | envia q w p hp =>
    refine .envia w ⟨q, p⟩ rfl rfl ?_ rfl rfl ?_ rfl
    · simp [saliente, hp]
    · simp [paqueteEnviado, hp]
  | creaQuery k path prioridad hk => exact vista_mueve hk rfl rfl rfl rfl rfl (by simp)
  | registraQuery k path prioridad qid hk =>
    have hnone : s.memQueries k = none := by
      by_contra hne
      obtain ⟨x, hx⟩ := Option.ne_none_iff_exists'.mp hne
      have hpapel := (hs.nuevas k x hx).2.2
      rw [papelDe_of_hilo hk] at hpapel
      cases hpapel
    refine .registra k qid rfl ?_ (numeroDe_update rfl rfl) rfl (papelDe_of_hilo hk)
      (papelDe_set hk rfl rfl) rfl ?_
    · simp [numeroDe, hnone]
    · simp [finEnviado, hk]
  | altaWorker k id hk =>
    have hnone : s.memWorkers k = none := by
      by_contra hne
      exact hs.custodia.fichas.nueva hk (hs.anotados k (Option.isSome_iff_ne_none.mpr hne))
    refine .quieta ?_ rfl rfl (fun i => ?_) rfl (by simp [finEnviado, hk])
    · have hsame : (some (⟨k, id, true, none⟩ : Worker)).bind Worker.ejecutando = queryDe s k := by
        simp [queryDe, hnone]
      rw [queryDe_update rfl hsame, Function.update_eq_self]
    · rw [papelDe_set (p := .oyente) hk rfl rfl]
      by_cases hik : i = k
      · subst hik
        rw [Function.update_self]
        exact Or.inr ⟨papelDe_of_hilo hk, rfl, List.mem_append_right _ (List.mem_singleton_self i)⟩
      · rw [Function.update_of_ne hik]
        exact Or.inl rfl
  | avisaWorker k hk => exact vista_mueve hk rfl rfl rfl rfl rfl (by simp)
  | busca k n hk => exact vista_mueve hk rfl rfl rfl rfl rfl (by simp)
  | esperaFin k q n hk => exact vista_mueve hk rfl rfl rfl rfl rfl (by simp)
  | termina k q x y hk hq hw hy =>
    refine .termina k q x.qid ?_ (queryDe_update rfl rfl) ?_ rfl rfl (papelDe_of_hilo hk)
      (papelDe_set hk rfl rfl) rfl (by simp [finEnviado, hk])
    · simp [queryDe, hw, hy]
    · simp [numeroDe, hq]
  | registraLibre k q y hk hw hy =>
    exact vista_mueve hk rfl rfl (queryDe_escribe hw rfl hy.symm) rfl rfl (by simp)
  | avisaLibre k q hk => exact vista_mueve hk rfl rfl rfl rfl rfl (by simp)
  | enviaFin k q x hk hq =>
    refine .avisaFin k q rfl (numeroDe_escribe hq rfl rfl) rfl (papelDe_of_hilo hk)
      (papelDe_set hk rfl rfl) rfl ?_
    simp [finEnviado, hk, hq, (hs.nuevas q x hq).2.1]
  | liberaQuery k q x hk hq =>
    exact .libera k q rfl (numeroDe_update rfl rfl) rfl (papelDe_of_hilo hk)
      (papelDe_set hk rfl rfl) rfl (by simp [finEnviado, hk])
  | encola k q hk => exact vista_mueve hk rfl rfl rfl rfl rfl (by simp)
  | avisaQuery k hk => exact vista_mueve hk rfl rfl rfl rfl rfl (by simp)

end Pasos

section Conservacion

/-- A thread that changes its part did not serve a Query Control; it goes on serving its
Worker, or is the one of a Worker that was listed. -/
theorem papelDe_of_vista (hv : Vista s e s') (i : ℕ) :
    papelDe s' i = papelDe s i ∨ papelDe s i ≠ .consulta ∧ papelDe s' i ≠ .otro ∧
      ((Sirve (papelDe s' i) ↔ Sirve (papelDe s i)) ∨
        ¬Sirve (papelDe s i) ∧ Sirve (papelDe s' i) ∧ i ∈ s'.listaWorkersConectados) := by
  have hcambia : ∀ {k : ℕ} {p : Papel}, papelDe s' = Function.update (papelDe s) k p →
      papelDe s k ≠ .consulta → p ≠ .otro → (Sirve p ↔ Sirve (papelDe s k)) →
      papelDe s' i = papelDe s i ∨ papelDe s i ≠ .consulta ∧ papelDe s' i ≠ .otro ∧
        ((Sirve (papelDe s' i) ↔ Sirve (papelDe s i)) ∨
          ¬Sirve (papelDe s i) ∧ Sirve (papelDe s' i) ∧ i ∈ s'.listaWorkersConectados) := by
    intro k p hp hcons hotro hsirve
    rw [hp]
    by_cases hik : i = k
    · subst hik
      rw [Function.update_self]
      exact Or.inr ⟨hcons, hotro, Or.inl hsirve⟩
    · exact Or.inl (Function.update_of_ne hik _ _)
  cases hv with
  | quieta hq hn hs hp hpaq hfin =>
    rcases hp i with h | ⟨hfuera, hoye, hin⟩
    · exact Or.inl h
    · exact Or.inr ⟨by simp [hfuera], by simp [hoye], Or.inr ⟨hfuera ▸ id, hoye ▸ trivial, hin⟩⟩
  | registra k n hq hnone hn hs hfuera hp hpaq hfin =>
    exact hcambia hp (by simp [hfuera]) (by simp) (hfuera ▸ Iff.rfl)
  | asigna q w n path hnone hq hnum hn hplan hs hp hpaq hfin => exact Or.inl (by rw [hp])
  | envia w p hq hn hsale hs hp hpaq hfin => exact Or.inl (by rw [hp])
  | recibe k n hq hn hs he hoye hp =>
    exact hcambia hp (by simp [hoye]) (by simp) (hoye ▸ Iff.rfl)
  | termina k q n hquery hq hnum hn hs hleyo hp hpaq hfin =>
    exact hcambia hp (by simp [hleyo]) (by simp) (hleyo ▸ Iff.rfl)
  | avisaFin k q hq hn hs hcierra hp hpaq hfin =>
    exact hcambia hp (by simp [hcierra]) (by simp) (hcierra ▸ Iff.rfl)
  | libera k q hq hn hs hcierra hp hpaq hfin =>
    exact hcambia hp (by simp [hcierra]) (by simp) (hcierra ▸ Iff.rfl)

theorem consulta_of_vista (hv : Vista s e s') {q : ℕ} (h : papelDe s q = .consulta) :
    papelDe s' q = .consulta := by
  rcases papelDe_of_vista hv q with heq | ⟨hno, _⟩
  · rw [heq, h]
  · exact absurd h hno

theorem lista_subset (hm : MovimientoDeRed s e s') :
    s.listaWorkersConectados ⊆ s'.listaWorkersConectados := by
  cases hm with
  | altaWorker k id hk => exact List.subset_append_left _ _
  | _ => exact List.Subset.refl _

/-- A Worker is listed by the thread that begins to serve it. -/
theorem sirve_of_listado (hm : MovimientoDeRed s e s') {w : ℕ}
    (hw : w ∈ s'.listaWorkersConectados) :
    w ∈ s.listaWorkersConectados ∨ Sirve (papelDe s' w) := by
  cases hm with
  | altaWorker k id hk =>
    rcases List.mem_append.mp hw with h | h
    · exact Or.inl h
    · obtain rfl := List.mem_singleton.mp h
      refine Or.inr ?_
      rw [papelDe_set (p := .oyente) hk rfl rfl, Function.update_self]
      trivial
  | _ => exact Or.inl hw

theorem isSome_of_update_some {m : ℕ → Option Worker} {v w : ℕ} {y : Worker} {o : Option Worker}
    (hy : m v = some y) (h : (Function.update m v o w).isSome) : (m w).isSome := by
  by_cases hw : w = v
  · rw [hw, hy]
    rfl
  · rwa [Function.update_of_ne hw] at h

theorem anotados_paso (hs : EnLinea s) (hm : MovimientoDeRed s e s') {w : ℕ}
    (hw : (s'.memWorkers w).isSome) : w ∈ s'.listaWorkersConectados := by
  have hold := hs.anotados w
  cases hm with
  | tomaWorker q v y hp hlibre hy => exact hold (isSome_of_update_some hy hw)
  | asigna q v x y hp hq hy hnone => exact hold (isSome_of_update_some hy hw)
  | termina k q x y hk hq hy hejecuta => exact hold (isSome_of_update_some hy hw)
  | registraLibre k q y hk hy hnone => exact hold (isSome_of_update_some hy hw)
  | altaWorker k id hk =>
    by_cases hwk : w = k
    · rw [hwk]
      exact List.mem_append_right _ (List.mem_singleton_self k)
    · have hv : (Function.update s.memWorkers k (some ⟨k, id, true, none⟩) w).isSome := hw
      rw [Function.update_of_ne hwk] at hv
      exact List.mem_append_left _ (hold hv)
  | _ => exact hold hw

theorem nuevas_paso (hs : EnLinea s) (hm : MovimientoDeRed s e s') {q : ℕ} {x : Query}
    (hx : s'.memQueries q = some x) :
    x.pc = 0 ∧ x.socketQuery = q ∧ papelDe s' q = .consulta := by
  have hv := vista_of_movimiento hs hm
  have hold : ∀ y, s.memQueries q = some y → y.pc = 0 ∧ y.socketQuery = q ∧
      papelDe s' q = .consulta := fun y hy =>
    ⟨(hs.nuevas q y hy).1, (hs.nuevas q y hy).2.1, consulta_of_vista hv (hs.nuevas q y hy).2.2⟩
  have hescribe : ∀ {p : ℕ} {y z : Query}, s.memQueries p = some y →
      s'.memQueries = Function.update s.memQueries p (some z) → z.pc = y.pc →
      z.socketQuery = y.socketQuery →
      x.pc = 0 ∧ x.socketQuery = q ∧ papelDe s' q = .consulta := by
    intro p y z hy hmem hpc hsocket
    rw [hmem] at hx
    by_cases hqp : q = p
    · subst hqp
      rw [Function.update_self] at hx
      obtain rfl := Option.some.inj hx
      rw [hpc, hsocket]
      exact hold y hy
    · rw [Function.update_of_ne hqp] at hx
      exact hold x hx
  have hm' := hm
  cases hm' with
  | asigna p w y z hp hy hw hnone => exact hescribe hy rfl rfl rfl
  | enviaFin k p y hk hy => exact hescribe hy rfl rfl rfl
  | liberaQuery k p y hk hy =>
    change Function.update s.memQueries p none q = some x at hx
    by_cases hqp : q = p
    · rw [hqp, Function.update_self] at hx
      cases hx
    · rw [Function.update_of_ne hqp] at hx
      exact hold x hx
  | registraQuery k path prioridad qid hk =>
    change Function.update s.memQueries k (some (crearQuery path prioridad qid k)) q = some x at hx
    by_cases hqk : q = k
    · subst hqk
      rw [Function.update_self] at hx
      obtain rfl := Option.some.inj hx
      refine ⟨rfl, rfl, ?_⟩
      rw [papelDe_set (p := .consulta) hk rfl rfl, Function.update_self]
    · rw [Function.update_of_ne hqk] at hx
      exact hold x hx
  | _ => exact hold x hx

/-- A busy Worker without a Query is in the hands of the planner or of its own thread. -/
def EnTransito (s : Master) (w : ℕ) : Prop :=
  (∃ q, s.planificador = .asignar q w) ∨ ∃ t, s.hilos[w]? = some (.registrarLibre w t)

/-- Such a Worker stays so while the planner and its own thread stay where they are. -/
theorem enTransito_congr {w : ℕ} (h : EnTransito s w) (hp : s'.planificador = s.planificador)
    (hh : s'.hilos[w]? = s.hilos[w]?) : EnTransito s' w := by
  unfold EnTransito
  rw [hp, hh]
  exact h

/-- Another thread moves, or that of `w` from a place where it is not about to free it. -/
theorem enTransito_mueve {k w : ℕ} {hl hl' : Hilo} (hk : s.hilos[k]? = some hl)
    (hno : ∀ t, hl ≠ .registrarLibre k t) (hh : s'.hilos = s.hilos.set k hl')
    (hp : s'.planificador = s.planificador) (h : EnTransito s w) : EnTransito s' w := by
  rcases h with ⟨q, hq⟩ | ⟨tr, htr⟩
  · exact Or.inl ⟨q, hp ▸ hq⟩
  · refine Or.inr ⟨tr, ?_⟩
    rw [hh, List.getElem?_set_ne, htr]
    intro hkw
    subst hkw
    exact hno tr (Option.some.inj (hk.symm.trans htr))

/-- The planner moves, and `w` is not the one it holds. -/
theorem enTransito_planificador {w : ℕ} (h : EnTransito s w) (hh : s'.hilos = s.hilos)
    (hno : ∀ q, s.planificador ≠ .asignar q w) : EnTransito s' w := by
  rcases h with ⟨q, hq⟩ | ⟨tr, htr⟩
  · exact absurd hq (hno q)
  · exact Or.inr ⟨tr, hh ▸ htr⟩

theorem ocupados_paso (hs : EnLinea s) (hm : MovimientoDeRed s e s') {w : ℕ} {y : Worker}
    (hy : s'.memWorkers w = some y) (hlibre : y.libre = false) (hnone : y.ejecutando = none) :
    EnTransito s' w := by
  have hold : s.memWorkers w = some y → EnTransito s w := fun h => hs.ocupados w y h hlibre hnone
  -- the record of `w` is the old one, or the one that the step writes
  have hescribe : ∀ {v : ℕ} {z : Worker}, s'.memWorkers = Function.update s.memWorkers v (some z) →
      (w = v ∧ y = z) ∨ (w ≠ v ∧ s.memWorkers w = some y) := by
    intro v z hmem
    rw [hmem] at hy
    by_cases hwv : w = v
    · rw [hwv, Function.update_self] at hy
      exact Or.inl ⟨hwv, (Option.some.inj hy).symm⟩
    · rw [Function.update_of_ne hwv] at hy
      exact Or.inr ⟨hwv, hy⟩
  have hnuevo : ∀ hl : Hilo, s'.hilos = s.hilos ++ [hl] → s'.planificador = s.planificador →
      EnTransito s w → EnTransito s' w := by
    intro hl hh hp h
    rcases h with ⟨q, hq⟩ | ⟨tr, htr⟩
    · exact Or.inl ⟨q, hp ▸ hq⟩
    · refine Or.inr ⟨tr, ?_⟩
      rw [hh, List.getElem?_append_left (List.getElem?_eq_some_iff.mp htr).1, htr]
  cases hm with
  | conectaQuery path prioridad => exact hnuevo _ rfl rfl (hold hy)
  | conectaWorker id => exact hnuevo _ rfl rfl (hold hy)
  | esperaQuery hp hsem => exact enTransito_planificador (hold hy) rfl (by simp [hp])
  | esperaWorker hp hsem => exact enTransito_planificador (hold hy) rfl (by simp [hp])
  | desencola q l hp hcola => exact enTransito_planificador (hold hy) rfl (by simp [hp])
  | envia q v p hp => exact enTransito_planificador (hold hy) rfl (by simp [hp])
  | tomaWorker q v z hp hlib hz =>
    rcases hescribe rfl with ⟨rfl, _⟩ | ⟨_, hw⟩
    · exact Or.inl ⟨q, rfl⟩
    · exact enTransito_planificador (hold hw) rfl (by simp [hp])
  | asigna q v x z hp hq hz hnada =>
    rcases hescribe rfl with ⟨_, rfl⟩ | ⟨hwv, hw⟩
    · cases hnone
    · exact enTransito_planificador (hold hw) rfl (by simp [hp, Ne.symm hwv])
  | altaWorker k id hk =>
    rcases hescribe rfl with ⟨_, rfl⟩ | ⟨_, hw⟩
    · cases hlibre
    · exact enTransito_mueve hk (by simp) rfl rfl (hold hw)
  | termina k q x z hk hq hz hejecuta =>
    rcases hescribe rfl with ⟨rfl, _⟩ | ⟨_, hw⟩
    · exact Or.inr ⟨.fin q, List.getElem?_set_self (List.getElem?_eq_some_iff.mp hk).1⟩
    · exact enTransito_mueve hk (by simp) rfl rfl (hold hw)
  | registraLibre k q z hk hz hnada =>
    rcases hescribe rfl with ⟨_, rfl⟩ | ⟨hwk, hw⟩
    · cases hlibre
    · exact enTransito_congr (hold hw) rfl (List.getElem?_set_ne (Ne.symm hwk))
  | _ => exact enTransito_mueve (by assumption) (by simp) rfl rfl (hold hy)

theorem enLinea_paso (hs : EnLinea s) (hfines : FinesAtendidos s) (hd : TomadoPorRed s e)
    (h : paso L ⟨.fifo, t⟩ s e = .ok s') : EnLinea s' := by
  have hm := movimientoDeRed_of_paso hs hfines hd h
  have hv := vista_of_movimiento hs hm
  obtain ⟨hdesliz, hderiva⟩ := hs.sinFallas hd
  refine ⟨custodia_paso hs.custodia hdesliz h, contado_paso hs.contado hderiva h, ?_, ?_, ?_, ?_,
    fun w => anotados_paso hs hm, fun q x => nuevas_paso hs hm, fun w y => ocupados_paso hs hm, ?_⟩
  · cases hm <;> exact hs.correr
  · cases hm <;> exact hs.mutex
  · intro k
    rcases papelDe_of_vista hv k with heq | ⟨_, hno, _⟩
    · rw [heq]
      exact hs.papeles k
    · exact hno
  · intro k
    have hviejo : k ∈ s.listaWorkersConectados → Sirve (papelDe s' k) := fun h => by
      have hk := (hs.listados k).mpr h
      rcases papelDe_of_vista hv k with heq | ⟨_, _, hiff | ⟨hno, _⟩⟩
      · rwa [heq]
      · exact hiff.mpr hk
      · exact absurd hk hno
    constructor
    · intro hk
      rcases papelDe_of_vista hv k with heq | ⟨_, _, hiff | ⟨_, _, hin⟩⟩
      · exact lista_subset hm ((hs.listados k).mp (heq ▸ hk))
      · exact lista_subset hm ((hs.listados k).mp (hiff.mp hk))
      · exact hin
    · intro hk
      rcases sirve_of_listado hm hk with h | h
      · exact hviejo h
      · exact h
  · have hold := hs.planifica
    cases hm <;> first | exact hold | simp

end Conservacion

end MasterOfFiles.DispatchViews
