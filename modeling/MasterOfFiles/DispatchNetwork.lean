import MasterOfFiles.ReadReports
import MasterOfFiles.SchedulerMoves

/-!
The Master, its Workers and the connections between them, under FIFO. A Worker takes
a packet off its connection when its loop comes to it, runs the Query and writes what
the run reports; the thread that serves the Worker reads one message at a time, and for
a READ goes through the branch of OP_RESP_READ_OK. What a run reports is given for each
Query and nothing is assumed of it. No send fails, no Worker leaves and there is no
SIGINT; a Query Control may close its connection at any time. Connections are numbered in
the order they are opened, and accept may hand out the number of a closed one again, so
the network is followed only as long as it opens none after it has closed one.
-/
namespace MasterOfFiles.DispatchNetwork

open ByteBuffers PartialRuns SortedLists SchedulerState SchedulerSteps WorkerMessages
open ReadReports (mensajeLectura)

section Red

/-- What the run of a Query reports: its READs in order, and whether an END closes it. -/
structure Guion where
  lecturas : List Lectura
  termina : Bool

/-- A packet on its way to a Worker, and the record it was made from. -/
structure Encargo where
  query : ℕ
  paquete : Paquete

/-- A run inside procesar_query, with the READs it has not reported yet. -/
structure Corrida where
  query : ℕ
  qid : ℕ
  faltan : List Lectura

inductive Aviso
  | lectura (l : Lectura)
  | fin (qid : ℕ)

/-- What the Master writes on the socket of a Query Control. -/
inductive Entrega
  | mensaje (texto : Bytes)
  | fin
  deriving DecidableEq

/-- A thread inside the branch of OP_RESP_READ_OK. -/
inductive Lector
  | buscar (l : Lectura)
  | atender (l : Lectura) (w : Option ℕ)
  | enviar (l : Lectura) (q : ℕ)

def Lector.lectura : Lector → Lectura
  | .buscar l => l
  | .atender l _ => l
  | .enviar l _ => l

/-- Workers and Query Controls are numbered by their connections. -/
structure Red where
  master : Master
  alWorker : ℕ → List Encargo
  corrida : ℕ → Option Corrida
  alMaster : ℕ → List Aviso
  lector : ℕ → Option Lector
  alControl : ℕ → List Entrega

def redInicial : Red where
  master := inicial
  alWorker _ := []
  corrida _ := none
  alMaster _ := []
  lector _ := none
  alControl _ := []

/-- A step of the Master, a Worker that takes a packet or writes its next message, the
thread of a Worker that reads one, or its next step in the branch of a READ. -/
inductive Accion
  | master (e : Evento)
  | toma (w : ℕ)
  | informa (w : ℕ)
  | recibe (k : ℕ)
  | lee (k : ℕ)

end Red

section Pasos

/-- The text of a READ; one without bytes has no third field and is dropped. -/
def mensajeDe (l : Lectura) : List Entrega :=
  if 0 < l.contenido.length then
    [.mensaje (mensajeLectura l.filetag l.contenido.length l.contenido)]
  else []

/-- The packet that a step of the Master puts on the connection to a Worker. -/
def paqueteEnviado (s : Master) : Evento → Option (ℕ × Encargo)
  | .planificador true => match s.planificador with
    | .enviar q w p => some (w, ⟨q, p⟩)
    | _ => none
  | _ => none

/-- The Query Control that a step of the Master tells of the end of its Query. -/
def finEnviado (s : Master) : Evento → Option ℕ
  | .hilo k _ => match s.hilos[k]? with
    | some (.enviarFin q) => (s.memQueries q).map Query.socketQuery
    | _ => none
  | _ => none

def agregar {α : Type*} (f : ℕ → List α) (k : ℕ) (a : α) : ℕ → List α :=
  Function.update f k (f k ++ [a])

def conPaquete (f : ℕ → List Encargo) : Option (ℕ × Encargo) → ℕ → List Encargo
  | none => f
  | some (w, p) => agregar f w p

def conFin (f : ℕ → List Entrega) : Option ℕ → ℕ → List Entrega
  | none => f
  | some k => agregar f k .fin

/-- The Master's own steps: none is a SIGINT or a failed send, and the only message that
comes from outside is a Query Control that closes. -/
def deRed (s : Master) : Evento → Bool
  | .conectaQuery _ _ => true
  | .conectaWorker _ => true
  | .planificador envio => envio
  | .hilo _ envio => envio
  | .mensaje k m => decide (m = .desconexion ∧ s.hilos[k]? = some .bucleQuery)
  | .aging _ => false
  | .sigint => false

variable (L : ListSort ℕ) (t : ℤ)

def pasoMaster (r : Red) (e : Evento) : Except Fallo Red :=
  if deRed r.master e then match paso L ⟨.fifo, t⟩ r.master e with
    | .error f => .error f
    | .ok m => .ok { r with
      master := m
      alWorker := conPaquete r.alWorker (paqueteEnviado r.master e)
      alControl := conFin r.alControl (finEnviado r.master e) }
  else .error .bloqueado

variable (guion : ℕ → Guion)

/-- OP_ENVIAR_PATH in the loop of the Worker, which runs one Query at a time. -/
def tomar (r : Red) (w : ℕ) : Except Fallo Red :=
  match r.corrida w, r.alWorker w with
  | none, ⟨q, .enviarPath qid _ _⟩ :: resto => .ok { r with
    alWorker := Function.update r.alWorker w resto
    corrida := Function.update r.corrida w (some ⟨q, qid, (guion q).lecturas⟩) }
  | _, _ => .error .bloqueado

/-- The next READ of the run, or its END, and then the Worker is back in its loop. -/
def informar (r : Red) (w : ℕ) : Except Fallo Red :=
  match r.corrida w with
  | none => .error .bloqueado
  | some ⟨q, qid, l :: ls⟩ => .ok { r with
    corrida := Function.update r.corrida w (some ⟨q, qid, ls⟩)
    alMaster := agregar r.alMaster w (.lectura l) }
  | some ⟨q, qid, []⟩ => .ok { r with
    corrida := Function.update r.corrida w none
    alMaster := if (guion q).termina then agregar r.alMaster w (.fin qid) else r.alMaster }

/-- The thread is in its loop and reads the next message of its Worker. -/
def recibir (r : Red) (k : ℕ) : Except Fallo Red :=
  match r.lector k, r.alMaster k with
  | none, .lectura l :: resto =>
    if r.master.hilos[k]? = some .bucleWorker then .ok { r with
      alMaster := Function.update r.alMaster k resto
      lector := Function.update r.lector k (some (.buscar l)) }
    else .error .bloqueado
  | none, .fin n :: resto => match paso L ⟨.fifo, t⟩ r.master (.mensaje k (.finQuery (some n))) with
    | .error f => .error f
    | .ok m => .ok { r with
      master := m
      alMaster := Function.update r.alMaster k resto }
  | _, _ => .error .bloqueado

/-- OP_RESP_READ_OK, between two operations. -/
def leer (r : Red) (k : ℕ) : Except Fallo Red :=
  match r.lector k with
  | none => .error .bloqueado
  | some (.buscar l) =>
    if r.master.mutexWorkersConectados then .error .bloqueado
    else .ok { r with
      lector :=
        Function.update r.lector k (some (.atender l (buscarWorkerPorSocket r.master k))) }
  | some (.atender _ none) => .ok { r with lector := Function.update r.lector k none }
  | some (.atender l (some w)) => match r.master.memWorkers w with
    | none => .error .caida
    | some y => .ok { r with
      lector := Function.update r.lector k
        (if 0 < l.contenido.length then y.ejecutando.map (.enviar l) else none) }
  | some (.enviar l q) => match r.master.memQueries q with
    | none => .error .caida
    | some x => .ok { r with
      lector := Function.update r.lector k none
      alControl := Function.update r.alControl x.socketQuery
        (r.alControl x.socketQuery ++ mensajeDe l) }

def pasoRed (r : Red) : Accion → Except Fallo Red
  | .master e => pasoMaster L t r e
  | .toma w => tomar guion r w
  | .informa w => informar guion r w
  | .recibe k => recibir L t r k
  | .lee k => leer r k

/-- A connection has been closed: its Query Control has left, or has been told the end. -/
def HaCerrado (r : Red) : Prop :=
  ∃ k < r.master.hilos.length,
    r.master.hilos[k]? = some .finQuery ∨ Entrega.fin ∈ r.alControl k

instance (r : Red) : Decidable (HaCerrado r) :=
  inferInstanceAs (Decidable (∃ k < r.master.hilos.length, _))

def abre : Accion → Bool
  | .master (.conectaQuery _ _) => true
  | .master (.conectaWorker _) => true
  | _ => false

/-- The network as long as no number of a connection is handed out twice. -/
def pasoSinReuso (r : Red) (a : Accion) : Except Fallo Red :=
  if abre a = true ∧ HaCerrado r then .error .bloqueado else pasoRed L t guion r a

end Pasos

section Avances

variable {L : ListSort ℕ} {t : ℤ} {guion : ℕ → Guion}

/-- What a step of the network can do, one constructor for each way it is taken. -/
inductive Avance (L : ListSort ℕ) (t : ℤ) (guion : ℕ → Guion) (r : Red) : Accion → Red → Prop
  | master (e : Evento) (m : Master) (hd : deRed r.master e = true)
    (hm : paso L ⟨.fifo, t⟩ r.master e = .ok m) :
    Avance L t guion r (.master e) { r with
      master := m
      alWorker := conPaquete r.alWorker (paqueteEnviado r.master e)
      alControl := conFin r.alControl (finEnviado r.master e) }
  | toma (w q qid pc : ℕ) (path : Bytes) (resto : List Encargo) (hc : r.corrida w = none)
    (hw : r.alWorker w = ⟨q, .enviarPath qid pc path⟩ :: resto) :
    Avance L t guion r (.toma w) { r with
      alWorker := Function.update r.alWorker w resto
      corrida := Function.update r.corrida w (some ⟨q, qid, (guion q).lecturas⟩) }
  | informa (w q qid : ℕ) (l : Lectura) (ls : List Lectura)
    (hc : r.corrida w = some ⟨q, qid, l :: ls⟩) :
    Avance L t guion r (.informa w) { r with
      corrida := Function.update r.corrida w (some ⟨q, qid, ls⟩)
      alMaster := agregar r.alMaster w (.lectura l) }
  | vuelve (w q qid : ℕ) (hc : r.corrida w = some ⟨q, qid, []⟩) :
    Avance L t guion r (.informa w) { r with
      corrida := Function.update r.corrida w none
      alMaster := if (guion q).termina then agregar r.alMaster w (.fin qid) else r.alMaster }
  | recibeLectura (k : ℕ) (l : Lectura) (resto : List Aviso) (hl : r.lector k = none)
    (ha : r.alMaster k = .lectura l :: resto) (hk : r.master.hilos[k]? = some .bucleWorker) :
    Avance L t guion r (.recibe k) { r with
      alMaster := Function.update r.alMaster k resto
      lector := Function.update r.lector k (some (.buscar l)) }
  | recibeFin (k n : ℕ) (resto : List Aviso) (m : Master) (hl : r.lector k = none)
    (ha : r.alMaster k = .fin n :: resto)
    (hm : paso L ⟨.fifo, t⟩ r.master (.mensaje k (.finQuery (some n))) = .ok m) :
    Avance L t guion r (.recibe k) { r with
      master := m
      alMaster := Function.update r.alMaster k resto }
  | busca (k : ℕ) (l : Lectura) (hl : r.lector k = some (.buscar l)) :
    Avance L t guion r (.lee k) { r with
      lector :=
        Function.update r.lector k (some (.atender l (buscarWorkerPorSocket r.master k))) }
  | sinWorker (k : ℕ) (l : Lectura) (hl : r.lector k = some (.atender l none)) :
    Avance L t guion r (.lee k) { r with lector := Function.update r.lector k none }
  | atiende (k w : ℕ) (l : Lectura) (y : Worker) (hl : r.lector k = some (.atender l (some w)))
    (hy : r.master.memWorkers w = some y) :
    Avance L t guion r (.lee k) { r with
      lector := Function.update r.lector k
        (if 0 < l.contenido.length then y.ejecutando.map (.enviar l) else none) }
  | envia (k q : ℕ) (l : Lectura) (x : Query) (hl : r.lector k = some (.enviar l q))
    (hx : r.master.memQueries q = some x) :
    Avance L t guion r (.lee k) { r with
      lector := Function.update r.lector k none
      alControl := Function.update r.alControl x.socketQuery
        (r.alControl x.socketQuery ++ mensajeDe l) }

theorem pasoRed_of_sinReuso {r r' : Red} {a : Accion}
    (h : pasoSinReuso L t guion r a = .ok r') : pasoRed L t guion r a = .ok r' := by
  unfold pasoSinReuso at h
  split_ifs at h
  exact h

theorem run_of_sinReuso {r r' : Red} {acciones : List Accion}
    (h : run (pasoSinReuso L t guion) r acciones = .ok r') :
    run (pasoRed L t guion) r acciones = .ok r' := by
  induction acciones generalizing r with
  | nil => exact h
  | cons a acciones ih =>
    cases ha : pasoSinReuso L t guion r a with
    | error f => simp [run, ha] at h
    | ok r₁ =>
      rw [run_cons acciones ha] at h
      rw [run_cons acciones (pasoRed_of_sinReuso ha)]
      exact ih h

theorem avance_of_pasoRed {r r' : Red} {a : Accion} (h : pasoRed L t guion r a = .ok r') :
    Avance L t guion r a r' := by
  cases a with
  | master e =>
    simp only [pasoRed, pasoMaster] at h
    split at h
    · rename_i hd
      split at h
      · cases h
      · rename_i m hm
        cases h
        exact .master e m hd hm
    · cases h
  | toma w =>
    simp only [pasoRed, tomar] at h
    split at h
    · rename_i q qid pc path resto hc hw
      cases h
      exact .toma w q qid pc path resto hc hw
    · cases h
  | informa w =>
    simp only [pasoRed, informar] at h
    split at h
    · cases h
    · rename_i q qid l ls hc
      cases h
      exact .informa w q qid l ls hc
    · rename_i q qid hc
      cases h
      exact .vuelve w q qid hc
  | recibe k =>
    simp only [pasoRed, recibir] at h
    split at h
    · rename_i l resto hl ha
      split at h
      · rename_i hk
        cases h
        exact .recibeLectura k l resto hl ha hk
      · cases h
    · rename_i n resto hl ha
      split at h
      · cases h
      · rename_i m hm
        cases h
        exact .recibeFin k n resto m hl ha hm
    · cases h
  | lee k =>
    simp only [pasoRed, leer] at h
    split at h
    · cases h
    · rename_i l hl
      split at h
      · cases h
      · cases h
        exact .busca k l hl
    · rename_i l hl
      cases h
      exact .sinWorker k l hl
    · rename_i l w hl
      split at h
      · cases h
      · rename_i y hy
        cases h
        exact .atiende k w l y hl hy
    · rename_i l q hl
      split at h
      · cases h
      · rename_i x hx
        cases h
        exact .envia k q l x hl hx

end Avances

end MasterOfFiles.DispatchNetwork
