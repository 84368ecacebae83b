import Mathlib.Logic.Function.Basic
import MasterOfFiles.ByteBuffers
import MasterOfFiles.SortedLists

/-!
The data of the Master's scheduler. Queries and Workers live in two memories: a
pointer is a number, and a freed record is not there any more. A record is named by
the connection that allocates it, and that number is its socket too. So neither an
address nor a descriptor is handed out twice here: ReusedRecords lets malloc hand out
addresses again, and what is proved of sockets is proved of runs in which no connection
is opened after one has been closed. What a thread keeps between two lock,
semaphore or socket operations is its place in the code and the locals it still
needs. Logs change nothing and are left out.
-/
namespace MasterOfFiles.SchedulerState

open ByteBuffers SortedLists

section Estructuras

/-- ALGORITMO_PLANIFICACION; what is not PRIORIDADES is served as FIFO. -/
inductive Algoritmo
  | fifo
  | prioridades
  deriving DecidableEq

structure Config where
  algoritmoPlanificacion : Algoritmo
  tiempoAgingMs : ℤ

inductive NombreEstado
  | ready
  | exec
  | exit
  deriving DecidableEq

structure Query where
  qid : ℕ
  pc : ℕ
  path : Bytes
  prioridad : ℤ
  estadoActual : NombreEstado
  socketQuery : ℕ
  workerAsignado : Option ℕ
  deriving DecidableEq

instance : Inhabited Query := ⟨⟨0, 0, [], 0, .ready, 0, none⟩⟩

structure Worker where
  socket : ℕ
  id : ℕ
  libre : Bool
  ejecutando : Option ℕ
  deriving DecidableEq

/-- The packet that hands a Query to a Worker. -/
inductive Paquete
  | enviarPath (qid pc : ℕ) (path : Bytes)
  | reanudarQuery (qid pc : ℕ) (path : Bytes)
  deriving DecidableEq

/-- What a Worker sends; a packet behind OP_FIN_QUERY may be malformed. -/
inductive Mensaje
  | queryDesalojada (qid pc : ℕ)
  | finQuery (qid : Option ℕ)
  | desconexion
  deriving DecidableEq

end Estructuras

section Hilos

/-- A thread inside verificar_desalojo: `m` is mejor_ready, `peor` what
buscar_peor_query_en_ejecucion found, `qid` the number in the packet. -/
inductive Desalojo
  | leerReady
  | leerPeor (m : ℕ)
  | comparar (m : ℕ) (peor : Option (ℕ × ℕ))
  | enviar (e w qid : ℕ)
  deriving DecidableEq

/-- The planner, between two operations of planificador_fifo. -/
inductive Planificador
  | esperaQuery
  | esperaWorker
  | desencolar
  | buscarWorker (q : ℕ)
  | asignar (q w : ℕ)
  | enviar (q w : ℕ) (p : Paquete)
  | reencolar (q : ℕ)
  | postQuery
  | postWorker
  deriving DecidableEq

/-- Which of its two loops atender_cliente goes back to. -/
inductive Rol
  | query
  | worker
  deriving DecidableEq

/-- What is left to do once the Worker is free again. -/
inductive Tramite
  | desalojada (q : ℕ)
  | fin (q : ℕ)
  deriving DecidableEq

/-- A thread of atender_cliente. -/
inductive Hilo
  | crearQuery (path : Bytes) (prioridad : ℤ)
  | registrarQuery (path : Bytes) (prioridad : ℤ) (qid : ℕ)
  | bucleQuery
  | finQuery
  | altaWorker (id : ℕ)
  | avisarWorker
  | bucleWorker
  | buscar (m : Mensaje)
  | atender (m : Mensaje) (w : Option ℕ)
  | recibirFin (qid : Option ℕ) (q w : ℕ)
  | registrarLibre (w : ℕ) (t : Tramite)
  | avisarLibre (t : Tramite)
  | enviarFin (q : ℕ)
  | liberarQuery (q : ℕ)
  | finDesconexion (w q : ℕ)
  | liberarWorker (w : ℕ)
  | finWorker
  | encolar (q : ℕ) (v : Rol)
  | avisarQuery (v : Rol)
  | verificar (d : Desalojo) (v : Rol)
  deriving DecidableEq

/-- The Master. `aging` is empty while aging_ready sleeps, and `hilos` lists one
thread for each connection accepted, in order. -/
structure Master where
  nextQid : ℕ
  queriesActivas : List ℕ
  memQueries : ℕ → Option Query
  colaReadyFIFO : List ℕ
  memWorkers : ℕ → Option Worker
  listaWorkersConectados : List ℕ
  mutexWorkersConectados : Bool
  semQueriesPendientes : ℕ
  semWorkersDisponibles : ℕ
  planificador : Planificador
  aging : Option Desalojo
  hilos : List Hilo
  correr : Bool

/-- The Master after inicializar_planificacion, before any connection. -/
def inicial : Master where
  nextQid := 0
  queriesActivas := []
  memQueries _ := none
  colaReadyFIFO := []
  memWorkers _ := none
  listaWorkersConectados := []
  mutexWorkersConectados := false
  semQueriesPendientes := 0
  semWorkersDisponibles := 0
  planificador := .esperaQuery
  aging := none
  hilos := []
  correr := true

/-- A connection, a message read, a thread's next step, or SIGINT. A step that sends
says whether the send succeeded. -/
inductive Evento
  | conectaQuery (path : Bytes) (prioridad : ℤ)
  | conectaWorker (id : ℕ)
  | mensaje (k : ℕ) (m : Mensaje)
  | planificador (envio : Bool)
  | aging (envio : Bool)
  | hilo (k : ℕ) (envio : Bool)
  | sigint
  deriving DecidableEq

/-- Why a step is not taken: the thread has to wait, a freed record is read or
written, or a query is freed again. -/
inductive Fallo
  | bloqueado
  | caida
  | dobleLiberacion
  deriving DecidableEq

end Hilos

end MasterOfFiles.SchedulerState
