import Mathlib.Algebra.Ring.Nat
import MasterOfFiles.PartialRuns
import MasterOfFiles.SchedulerState

/-!
The steps of the Master's threads. A step is one section under a mutex, one
operation on a semaphore or one send, or the code between two of these.
mutexColaReady is never held across an operation, mutexWorkersConectados only while
a disconnection sends the end of a query. `paso` computes a step, and `Movimiento`
lists what a step that is taken can do; everything later is read off that list.
-/
namespace MasterOfFiles.SchedulerSteps

open ByteBuffers PartialRuns SortedLists SchedulerState

section Queries

def saltearPrefijos : Bytes → Bytes
  | 46 :: 47 :: p => saltearPrefijos p
  | p => p

def pathNombreArchivo (ruta : Bytes) : Bytes :=
  ((saltearPrefijos ruta).reverse.takeWhile (· ≠ 47)).reverse

def crearQuery (path : Bytes) (prioridad : ℤ) (qid sock : ℕ) : Query where
  qid := qid
  pc := 0
  path := pathNombreArchivo path
  prioridad := prioridad
  estadoActual := .ready
  socketQuery := sock
  workerAsignado := none

def compararPrioridad (a b : Query) : Bool :=
  if a.prioridad = b.prioridad then decide (a.qid < b.qid) else decide (a.prioridad < b.prioridad)

/-- The comparator on pointers. -/
def comparar (m : ℕ → Option Query) (a b : ℕ) : Bool :=
  compararPrioridad ((m a).getD default) ((m b).getD default)

/-- A sort reads every element of a list of two or more. -/
def Legible (m : ℕ → Option Query) (l : List ℕ) : Prop :=
  l.length ≤ 1 ∨ ∀ q ∈ l, (m q).isSome

instance (m : ℕ → Option Query) (l : List ℕ) : Decidable (Legible m l) :=
  inferInstanceAs (Decidable (_ ∨ _))

/-- list_sort of the ready queue, under PRIORIDADES only. -/
def ordenar (L : ListSort ℕ) (cfg : Config) (m : ℕ → Option Query) (l : List ℕ) :
    Except Fallo (List ℕ) :=
  if cfg.algoritmoPlanificacion = .prioridades then
    if Legible m l then .ok (L.sort (comparar m) l) else .error .caida
  else .ok l

def bajarPrioridad (x : Query) : Query :=
  if 0 < x.prioridad then { x with prioridad := x.prioridad - 1 } else x

/-- The loop of aging_ready, one element after the other. -/
def envejecer (m : ℕ → Option Query) (l : List ℕ) : ℕ → Option Query :=
  l.foldl (fun m q => Function.update m q ((m q).map bajarPrioridad)) m

def destruirQuery (m : ℕ → Option Query) (q : ℕ) : Except Fallo (ℕ → Option Query) :=
  match m q with
  | none => .error .dobleLiberacion
  | some _ => .ok (Function.update m q none)

end Queries

section Workers

def obtenerWorkerLibre (s : Master) : Option ℕ :=
  s.listaWorkersConectados.find? fun w => (s.memWorkers w).any Worker.libre

def buscarWorkerPorSocket (s : Master) (socket : ℕ) : Option ℕ :=
  s.listaWorkersConectados.find? fun w => (s.memWorkers w).any fun x => x.socket = socket

/-- The body of the loop of buscar_peor_query_en_ejecucion. -/
def peorDe (s : Master) (peor : Option (ℕ × ℕ)) (w : ℕ) : Except Fallo (Option (ℕ × ℕ)) :=
  match s.memWorkers w with
  | some ⟨_, _, false, some e⟩ => match peor with
    | none => .ok (some (e, w))
    | some (p, wp) => match s.memQueries e, s.memQueries p with
      | some x, some y => .ok (if y.prioridad < x.prioridad then some (e, w) else some (p, wp))
      | _, _ => .error .caida
  | _ => .ok peor

def buscarPeorQueryEnEjecucion (s : Master) : Except Fallo (Option (ℕ × ℕ)) :=
  run (peorDe s) none s.listaWorkersConectados

end Workers

section Desconexion

/-- estadoReady, estadoExecute and estadoExit are set to NULL where they are
declared, and nothing assigns them. -/
def estadoReady : Option (List ℕ) := none

def estadoExecute : Option (List ℕ) := none

def estadoExit : Option (List ℕ) := none

def buscarEnEstado (s : Master) (socketQuery : ℕ) (estado : Option (List ℕ)) : Option ℕ :=
  estado.bind fun l => l.find? fun q => (s.memQueries q).any fun x => x.socketQuery = socketQuery

def buscarQueryPorSocket (s : Master) (socketQuery : ℕ) : Option ℕ :=
  (buscarEnEstado s socketQuery estadoReady).or
    ((buscarEnEstado s socketQuery estadoExecute).or (buscarEnEstado s socketQuery estadoExit))

/-- A query in EXEC with a Worker is asked back, any other one is freed. -/
def manejarDesconexionQc (s : Master) (socketQuery : ℕ) : Except Fallo Master :=
  match buscarQueryPorSocket s socketQuery with
  | none => .ok s
  | some q => match s.memQueries q with
    | none => .error .caida
    | some x =>
      if x.estadoActual = .exec ∧ x.workerAsignado ≠ none then .ok s
      else .ok { s with memQueries := Function.update s.memQueries q none }

theorem manejarDesconexionQc_eq (s : Master) (socketQuery : ℕ) :
    manejarDesconexionQc s socketQuery = .ok s := rfl

end Desconexion

section Pasos

variable (L : ListSort ℕ) (cfg : Config)

/-- verificar_desalojo only reads; `none` is its return. -/
def verificarDesalojo (s : Master) : Desalojo → Except Fallo (Option Desalojo)
  | .leerReady =>
    if cfg.algoritmoPlanificacion = .prioridades then match s.colaReadyFIFO with
      | [] => .ok none
      | m :: _ => .ok (some (.leerPeor m))
    else .ok none
  | .leerPeor m =>
    if s.mutexWorkersConectados then .error .bloqueado
    else match buscarPeorQueryEnEjecucion s with
      | .ok peor => .ok (some (.comparar m peor))
      | .error e => .error e
  | .comparar _ none => .ok none
  | .comparar m (some (e, w)) => match s.memQueries m, s.memQueries e with
    | some x, some y =>
      if x.prioridad < y.prioridad then match s.memWorkers w with
        | some _ => .ok (some (.enviar e w y.qid))
        | none => .error .caida
      else .ok none
    | _, _ => .error .caida
  | .enviar _ _ _ => .ok none

def armarPaquete (x : Query) : Paquete :=
  if x.pc = 0 then .enviarPath x.qid x.pc x.path else .reanudarQuery x.qid x.pc x.path

def planificadorFifo (s : Master) (envio : Bool) : Except Fallo Master :=
  match s.planificador with
  | .esperaQuery =>
    if s.semQueriesPendientes = 0 then .error .bloqueado
    else .ok { s with
      semQueriesPendientes := s.semQueriesPendientes - 1
      planificador := .esperaWorker }
  | .esperaWorker =>
    if s.semWorkersDisponibles = 0 then .error .bloqueado
    else .ok { s with
      semWorkersDisponibles := s.semWorkersDisponibles - 1
      planificador := .desencolar }
  | .desencolar => match s.colaReadyFIFO with
    | [] => .ok { s with planificador := .postQuery }
    | q :: l => .ok { s with colaReadyFIFO := l, planificador := .buscarWorker q }
  | .buscarWorker q =>
    if s.mutexWorkersConectados then .error .bloqueado
    else match obtenerWorkerLibre s with
      | none => .ok { s with planificador := .reencolar q }
      | some w => .ok { s with
        memWorkers := Function.update s.memWorkers w
          ((s.memWorkers w).map fun y => { y with libre := false })
        planificador := .asignar q w }
  | .asignar q w => match s.memQueries q, s.memWorkers w with
    | some x, some y => .ok { s with
      memQueries := Function.update s.memQueries q
        (some { x with estadoActual := .exec, workerAsignado := some w })
      memWorkers := Function.update s.memWorkers w (some { y with ejecutando := some q })
      planificador := .enviar q w (armarPaquete x) }
    | _, _ => .error .caida
  | .enviar q _ _ =>
    .ok { s with planificador := if envio then .esperaQuery else .reencolar q }
  | .reencolar q => .ok { s with
    colaReadyFIFO := q :: s.colaReadyFIFO
    planificador := .postQuery }
  | .postQuery => .ok { s with
    semQueriesPendientes := s.semQueriesPendientes + 1
    planificador := .postWorker }
  | .postWorker => .ok { s with
    semWorkersDisponibles := s.semWorkersDisponibles + 1
    planificador := .esperaQuery }

/-- inicializar_planificacion starts the aging thread under this condition. -/
def HayAging : Prop := cfg.algoritmoPlanificacion = .prioridades ∧ 0 < cfg.tiempoAgingMs

instance : Decidable (HayAging cfg) := inferInstanceAs (Decidable (_ ∧ _))

def agingReady (s : Master) : Except Fallo Master :=
  match s.aging with
  | none =>
    if ∀ q ∈ s.colaReadyFIFO, (s.memQueries q).isSome then
      match ordenar L cfg (envejecer s.memQueries s.colaReadyFIFO) s.colaReadyFIFO with
      | .ok l => .ok { s with
        memQueries := envejecer s.memQueries s.colaReadyFIFO
        colaReadyFIFO := l
        aging := some .leerReady }
      | .error e => .error e
    else .error .caida
  | some d => match verificarDesalojo cfg s d with
    | .ok d' => .ok { s with aging := d' }
    | .error e => .error e

def bucle : Rol → Hilo
  | .query => .bucleQuery
  | .worker => .bucleWorker

def continuar : Tramite → Hilo
  | .desalojada q => .encolar q .worker
  | .fin q => .enviarFin q

/-- OP_QUERY_DESALOJADA, once the Worker has been looked up. -/
def queryDesalojada (s : Master) (k qid pc w : ℕ) : Except Fallo Master :=
  match s.memWorkers w with
  | none => .error .caida
  | some y => match y.ejecutando with
    | none => .ok { s with hilos := s.hilos.set k .bucleWorker }
    | some q => match s.memQueries q with
      | none => .error .caida
      | some x =>
        if x.qid = qid then .ok { s with
          memQueries := Function.update s.memQueries q
            (some { x with pc := pc, estadoActual := .ready, workerAsignado := none })
          memWorkers := Function.update s.memWorkers w (some { y with ejecutando := none })
          hilos := s.hilos.set k (.registrarLibre w (.desalojada q)) }
        else .ok { s with hilos := s.hilos.set k .bucleWorker }

/-- OP_FIN_QUERY, up to the packet it is followed by. -/
def finQuery (s : Master) (k : ℕ) (qid : Option ℕ) (w : ℕ) : Except Fallo Master :=
  match s.memWorkers w with
  | none => .error .caida
  | some y => match y.ejecutando with
    | none => .ok { s with hilos := s.hilos.set k .bucleWorker }
    | some q => .ok { s with hilos := s.hilos.set k (.recibirFin qid q w) }

def recibirFin (s : Master) (k : ℕ) (qid : Option ℕ) (q w : ℕ) : Except Fallo Master :=
  match qid with
  | none => .ok { s with hilos := s.hilos.set k .bucleWorker }
  | some n => match s.memQueries q, s.memWorkers w with
    | some x, some y =>
      if x.qid = n then .ok { s with
        memWorkers := Function.update s.memWorkers w (some { y with ejecutando := none })
        hilos := s.hilos.set k (.registrarLibre w (.fin q)) }
      else .ok { s with hilos := s.hilos.set k .bucleWorker }
    | _, _ => .error .caida

/-- The section of manejar_desconexion_worker; with a query running it sends before
it unlocks. -/
def manejarDesconexionWorker (s : Master) (k w : ℕ) : Except Fallo Master :=
  if s.mutexWorkersConectados then .error .bloqueado
  else match s.memWorkers w with
    | none => .error .caida
    | some y => match y.ejecutando with
      | none => .ok { s with
        listaWorkersConectados := s.listaWorkersConectados.erase w
        hilos := s.hilos.set k (.liberarWorker w) }
      | some q => match s.memQueries q with
        | none => .error .caida
        | some x => .ok { s with
          memQueries := Function.update s.memQueries q
            (some { x with estadoActual := .exit, workerAsignado := none })
          mutexWorkersConectados := true
          hilos := s.hilos.set k (.finDesconexion w q) }

def atenderCliente (s : Master) (k : ℕ) : Hilo → Except Fallo Master
  | .crearQuery path prioridad => .ok { s with
    nextQid := (s.nextQid + 1) % 2 ^ 32
    hilos := s.hilos.set k (.registrarQuery path prioridad s.nextQid) }
  | .registrarQuery path prioridad qid => .ok { s with
    memQueries := Function.update s.memQueries k (some (crearQuery path prioridad qid k))
    queriesActivas := s.queriesActivas ++ [k]
    hilos := s.hilos.set k (.encolar k .query) }
  | .altaWorker id =>
    if s.mutexWorkersConectados then .error .bloqueado
    else .ok { s with
      memWorkers := Function.update s.memWorkers k (some ⟨k, id, true, none⟩)
      listaWorkersConectados := s.listaWorkersConectados ++ [k]
      hilos := s.hilos.set k .avisarWorker }
  | .avisarWorker => .ok { s with
    semWorkersDisponibles := s.semWorkersDisponibles + 1
    hilos := s.hilos.set k .bucleWorker }
  | .buscar m =>
    if s.mutexWorkersConectados then .error .bloqueado
    else .ok { s with hilos := s.hilos.set k (.atender m (buscarWorkerPorSocket s k)) }
  | .atender m none => .ok { s with
    hilos := s.hilos.set k (if m = .desconexion then .finWorker else .bucleWorker) }
  | .atender (.queryDesalojada qid pc) (some w) => queryDesalojada s k qid pc w
  | .atender (.finQuery qid) (some w) => finQuery s k qid w
  | .atender .desconexion (some w) => manejarDesconexionWorker s k w
  | .recibirFin qid q w => recibirFin s k qid q w
  | .registrarLibre w t =>
    if s.mutexWorkersConectados then .error .bloqueado
    else match s.memWorkers w with
      | none => .error .caida
      | some y => .ok { s with
        memWorkers := Function.update s.memWorkers w
          (some { y with libre := true, ejecutando := none })
        hilos := s.hilos.set k (.avisarLibre t) }
  | .avisarLibre t => .ok { s with
    semWorkersDisponibles := s.semWorkersDisponibles + 1
    hilos := s.hilos.set k (continuar t) }
  | .enviarFin q => match s.memQueries q with
    | none => .error .caida
    | some x => .ok { s with
      memQueries := Function.update s.memQueries q (some { x with estadoActual := .exit })
      hilos := s.hilos.set k (.liberarQuery q) }
  | .liberarQuery q => match s.memQueries q with
    | none => .error .dobleLiberacion
    | some _ => .ok { s with
      memQueries := Function.update s.memQueries q none
      hilos := s.hilos.set k .bucleWorker }
  | .finDesconexion w q => match s.memQueries q with
    | none => .error .dobleLiberacion
    | some _ => .ok { s with
      memQueries := Function.update s.memQueries q none
      listaWorkersConectados := s.listaWorkersConectados.erase w
      mutexWorkersConectados := false
      hilos := s.hilos.set k (.liberarWorker w) }
  | .liberarWorker w => .ok { s with
    memWorkers := Function.update s.memWorkers w none
    hilos := s.hilos.set k .finWorker }
  | .encolar q v => match ordenar L cfg s.memQueries (s.colaReadyFIFO ++ [q]) with
    | .ok l => .ok { s with colaReadyFIFO := l, hilos := s.hilos.set k (.avisarQuery v) }
    | .error e => .error e
  | .avisarQuery v => .ok { s with
    semQueriesPendientes := s.semQueriesPendientes + 1
    hilos := s.hilos.set k
      (if cfg.algoritmoPlanificacion = .prioridades then .verificar .leerReady v else bucle v) }
  | .verificar d v => match verificarDesalojo cfg s d with
    | .ok (some d') => .ok { s with hilos := s.hilos.set k (.verificar d' v) }
    | .ok none => .ok { s with hilos := s.hilos.set k (bucle v) }
    | .error e => .error e
  | .bucleQuery | .finQuery | .bucleWorker | .finWorker => .error .bloqueado

/-- A thread in its loop reads a message; a Query Control only ever closes. -/
def recibirOperacion (s : Master) (k : ℕ) (m : Mensaje) : Hilo → Except Fallo Master
  | .bucleWorker => .ok { s with hilos := s.hilos.set k (.buscar m) }
  | .bucleQuery =>
    if m = .desconexion then match manejarDesconexionQc s k with
      | .ok s' => .ok { s' with hilos := s'.hilos.set k .finQuery }
      | .error e => .error e
    else .error .bloqueado
  | _ => .error .bloqueado

def sigint (s : Master) : Except Fallo Master :=
  match run destruirQuery s.memQueries s.queriesActivas with
  | .ok m => .ok { s with memQueries := m, queriesActivas := [], correr := false }
  | .error e => .error e

def paso (s : Master) (e : Evento) : Except Fallo Master :=
  if s.correr then match e with
    | .conectaQuery path prioridad =>
      .ok { s with hilos := s.hilos ++ [.crearQuery path prioridad] }
    | .conectaWorker id => .ok { s with hilos := s.hilos ++ [.altaWorker id] }
    | .mensaje k m => match s.hilos[k]? with
      | some h => recibirOperacion s k m h
      | none => .error .bloqueado
    | .planificador envio => planificadorFifo s envio
    | .aging _ => if HayAging cfg then agingReady L cfg s else .error .bloqueado
    | .hilo k _ => match s.hilos[k]? with
      | some h => atenderCliente L cfg s k h
      | none => .error .bloqueado
    | .sigint => sigint s
  else .error .bloqueado

end Pasos

end MasterOfFiles.SchedulerSteps
