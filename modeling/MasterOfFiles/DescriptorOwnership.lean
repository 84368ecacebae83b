import Mathlib.Data.Int.Notation
import MasterOfFiles.DescriptorTables
import MasterOfFiles.ListSums
import MasterOfFiles.RunTraces
import MasterOfFiles.SchedulerState

/-!
Who closes the descriptors of the Master. A connection has a thread of atender_cliente,
and its number is also kept in the record of its query or of its Worker, through which
other threads send to it and enviar_fin_query closes it. A step is one call on a
descriptor or the code between two calls; a recv is two steps, since the thread waits in
it. Which query the planner takes, whom verificar_desalojo asks and how the mutexes and
semaphores order the threads is left open, so there are more runs than the code's. A
record is named by the connection it was made for.
-/
namespace MasterOfFiles.DescriptorOwnership

open DescriptorTables PartialRuns RunTraces
open SchedulerState (Rol Fallo)

section Hilos

/-- Which of its calls of recibir_operacion a thread is in. -/
inductive Recepcion
  | saludo
  | path
  | workerId
  | bucle (rol : Rol)
  deriving DecidableEq

/-- What recibir_operacion returns; `nula` is an opcode below one. A Worker's message
tells whether its packet is well formed and its qid the one expected. -/
inductive Codigo
  | helloQuery
  | enviarPath
  | helloWorker
  | workerId
  | queryDesalojada (coincide : Bool)
  | respReadOk (bienFormado : Bool)
  | finQuery (coincide : Bool)
  | otra
  | nula
  deriving DecidableEq

/-- What is done with the fields behind an opcode. -/
inductive Tarea
  | crearQuery
  | altaWorker
  | queryDesalojada (coincide : Bool)
  | reenviar (q : ℕ) (bienFormado : Bool)
  | finQuery (w q : ℕ) (coincide : Bool)
  | descartar
  deriving DecidableEq

/-- Where a thread of atender_cliente is. The Worker of `enviarFin` is the one that
manejar_desconexion_worker takes out behind it. -/
inductive Lugar
  | recibirOperacion (r : Recepcion)
  | esperar (r : Recepcion)
  | cerrarFallido (r : Recepcion)
  | buscarWorker (op : Codigo)
  | recv (quedan : ℕ) (t : Tarea)
  | desconexion (rol : Rol)
  | enviarFin (q : ℕ) (w : Option ℕ)
  | shutdownFin (q : ℕ) (w : Option ℕ)
  | closeFin (q : ℕ) (w : Option ℕ)
  | anularFin (q : ℕ) (w : Option ℕ)
  | liberarQuery (q : ℕ) (w : Option ℕ)
  | liberarWorker (w : ℕ)
  | shutdown
  | close
  | fin
  deriving DecidableEq

structure Hilo where
  fd : ℤ
  lugar : Lugar

structure Query where
  socketQuery : ℤ

structure Worker where
  socket : ℤ
  ejecutando : Option ℕ

structure Maestro where
  tabla : Tabla ℤ ℕ
  hilos : List Hilo
  memQueries : ℕ → Option Query
  memWorkers : ℕ → Option Worker
  listaWorkersConectados : List ℕ

def inicial : Maestro := ⟨vacia, [], fun _ => none, fun _ => none, []⟩

/-- What accept returns, what a recv of recibir_operacion brings or that it fails, the
next step of a thread, a query handed to a Worker, and a send to a Worker by
planificador_fifo or by verificar_desalojo. -/
inductive Evento
  | conecta (fd : ℤ)
  | recibe (k : ℕ) (op : Option Codigo)
  | hilo (k : ℕ)
  | asigna (q w : ℕ)
  | enviaWorker (w : ℕ)
  deriving DecidableEq

end Hilos

section Pasos

def mover (s : Maestro) (k : ℕ) (h : Hilo) (lugar : Lugar) : Maestro :=
  { s with hilos := s.hilos.set k { h with lugar := lugar } }

def hacer (s : Maestro) (op : Operacion) (fd : ℤ) (c : ℕ) : Maestro :=
  { s with tabla := llamar s.tabla op fd c }

/-- The accept loop; a number that denotes a connection is not handed out again. -/
def esperarCliente (s : Maestro) (fd : ℤ) : Except Fallo Maestro :=
  if fd < 0 then .ok s
  else match s.tabla.abiertos fd with
    | none => .ok { s with
      tabla := aceptar s.tabla fd s.hilos.length
      hilos := s.hilos ++ [⟨fd, .recibirOperacion .saludo⟩] }
    | some _ => .error .bloqueado

/-- What atender_cliente does with what recibir_operacion returns. -/
def despachar : Recepcion → Codigo → Lugar
  | .saludo, .helloQuery => .recibirOperacion .path
  | .saludo, .helloWorker => .recibirOperacion .workerId
  | .saludo, _ => .shutdown
  | .path, .enviarPath => .recv 2 .crearQuery
  | .path, _ => .shutdown
  | .workerId, .workerId => .recv 1 .altaWorker
  | .workerId, _ => .shutdown
  | .bucle rol, .nula => .desconexion rol
  | .bucle .worker, .queryDesalojada coincide => .recv 2 (.queryDesalojada coincide)
  | .bucle .worker, .respReadOk bienFormado => .buscarWorker (.respReadOk bienFormado)
  | .bucle .worker, .finQuery coincide => .buscarWorker (.finQuery coincide)
  | .bucle rol, _ => .recibirOperacion (.bucle rol)

def recibirOperacion (s : Maestro) (k : ℕ) (h : Hilo) (op : Option Codigo) :
    Except Fallo Maestro :=
  match h.lugar, op with
  | .esperar r, some op => .ok (mover s k h (despachar r op))
  | .esperar r, none => .ok (mover s k h (.cerrarFallido r))
  | _, _ => .error .bloqueado

def buscarWorkerPorSocket (s : Maestro) (socket : ℤ) : Option ℕ :=
  s.listaWorkersConectados.find? fun w => (s.memWorkers w).any fun y => y.socket = socket

/-- The query that the Worker of a socket is executing. -/
def ejecutandoPorSocket (s : Maestro) (socket : ℤ) : Option (ℕ × ℕ) :=
  (buscarWorkerPorSocket s socket).bind fun w =>
    (s.memWorkers w).bind fun y => y.ejecutando.map fun q => (w, q)

def bucleWorker : Lugar := .recibirOperacion (.bucle .worker)

/-- A packet is received whether there is a query for it or not. -/
def tareaDe (s : Maestro) (h : Hilo) (op : Codigo) : Tarea :=
  match ejecutandoPorSocket s h.fd, op with
  | some (_, q), .respReadOk bienFormado => .reenviar q bienFormado
  | some (w, q), .finQuery coincide => .finQuery w q coincide
  | _, _ => .descartar

def dejarEjecutando (s : Maestro) (w : ℕ) : Maestro :=
  { s with
    memWorkers := Function.update s.memWorkers w
      ((s.memWorkers w).map fun y => { y with ejecutando := none }) }

def realizar (s : Maestro) (k : ℕ) (h : Hilo) : Tarea → Except Fallo Maestro
  | .crearQuery =>
    .ok { mover s k h (.recibirOperacion (.bucle .query)) with
      memQueries := Function.update s.memQueries k (some ⟨h.fd⟩) }
  | .altaWorker =>
    .ok { mover s k h bucleWorker with
      memWorkers := Function.update s.memWorkers k (some ⟨h.fd, none⟩)
      listaWorkersConectados := s.listaWorkersConectados ++ [k] }
  | .queryDesalojada coincide => match ejecutandoPorSocket s h.fd with
    | none => .ok (mover s k h bucleWorker)
    | some (w, q) =>
      if coincide then match s.memQueries q with
        | none => .error .caida
        | some _ => .ok (mover (dejarEjecutando s w) k h bucleWorker)
      else .ok (mover s k h bucleWorker)
  | .reenviar q bienFormado =>
    if bienFormado then match s.memQueries q with
      | none => .error .caida
      | some x => .ok (mover (hacer s .send x.socketQuery q) k h bucleWorker)
    else .ok (mover s k h bucleWorker)
  | .finQuery w q coincide =>
    if coincide then match s.memQueries q, s.memWorkers w with
      | some _, some _ => .ok (mover (dejarEjecutando s w) k h (.enviarFin q none))
      | _, _ => .error .caida
    else .ok (mover s k h bucleWorker)
  | .descartar => .ok (mover s k h bucleWorker)

/-- manejar_desconexion_qc finds no query, since the lists it looks in are never made. -/
def manejarDesconexion (s : Maestro) (k : ℕ) (h : Hilo) : Rol → Except Fallo Maestro
  | .query => .ok (mover s k h .shutdown)
  | .worker => match buscarWorkerPorSocket s h.fd with
    | none => .ok (mover s k h .shutdown)
    | some w => match (s.memWorkers w).bind Worker.ejecutando with
      | none => .ok (mover s k h (.liberarWorker w))
      | some q => match s.memQueries q with
        | none => .error .caida
        | some _ => .ok (mover s k h (.enviarFin q (some w)))

/-- The socket is read from the query again at each of the calls on it. -/
def enviarFinQuery (s : Maestro) (k : ℕ) (h : Hilo) (q : ℕ) (w : Option ℕ) (op : Operacion)
    (lugar : Lugar) : Except Fallo Maestro :=
  match s.memQueries q with
  | none => .error .caida
  | some x =>
    if op = .send ∧ x.socketQuery ≤ 0 then .ok (mover s k h (.liberarQuery q w))
    else .ok (mover (hacer s op x.socketQuery q) k h lugar)

def anularSocket (s : Maestro) (k : ℕ) (h : Hilo) (q : ℕ) (w : Option ℕ) :
    Except Fallo Maestro :=
  match s.memQueries q with
  | none => .error .caida
  | some _ => .ok { mover s k h (.liberarQuery q w) with
      memQueries := Function.update s.memQueries q (some ⟨-1⟩) }

def liberarQuery (s : Maestro) (k : ℕ) (h : Hilo) (q : ℕ) (w : Option ℕ) :
    Except Fallo Maestro :=
  match s.memQueries q with
  | none => .error .dobleLiberacion
  | some _ => .ok { mover s k h (w.elim bucleWorker .liberarWorker) with
      memQueries := Function.update s.memQueries q none }

def atenderCliente (s : Maestro) (k : ℕ) (h : Hilo) : Except Fallo Maestro :=
  match h.lugar with
  | .recibirOperacion r => .ok (mover (hacer s .recv h.fd k) k h (.esperar r))
  | .esperar _ => .error .bloqueado
  | .cerrarFallido r => .ok (mover (hacer s .close h.fd k) k h (despachar r .nula))
  | .buscarWorker op => .ok (mover s k h (.recv 2 (tareaDe s h op)))
  | .recv (n + 1) t => .ok (mover (hacer s .recv h.fd k) k h (.recv n t))
  | .recv 0 t => realizar s k h t
  | .desconexion rol => manejarDesconexion s k h rol
  | .enviarFin q w => enviarFinQuery s k h q w .send (.shutdownFin q w)
  | .shutdownFin q w => enviarFinQuery s k h q w .shutdown (.closeFin q w)
  | .closeFin q w => enviarFinQuery s k h q w .close (.anularFin q w)
  | .anularFin q w => anularSocket s k h q w
  | .liberarQuery q w => liberarQuery s k h q w
  | .liberarWorker w => .ok { mover s k h .shutdown with
      memWorkers := Function.update s.memWorkers w none
      listaWorkersConectados := s.listaWorkersConectados.erase w }
  | .shutdown => .ok (mover (hacer s .shutdown h.fd k) k h .close)
  | .close => .ok (mover (hacer s .close h.fd k) k h .fin)
  | .fin => .error .bloqueado

def asignar (s : Maestro) (q w : ℕ) : Except Fallo Maestro :=
  match s.memQueries q, s.memWorkers w with
  | some _, some y => .ok { s with
      memWorkers := Function.update s.memWorkers w (some { y with ejecutando := some q }) }
  | _, _ => .error .caida

def enviarAWorker (s : Maestro) (w : ℕ) : Except Fallo Maestro :=
  match s.memWorkers w with
  | none => .error .caida
  | some y => .ok (hacer s .send y.socket w)

def paso (s : Maestro) : Evento → Except Fallo Maestro
  | .conecta fd => esperarCliente s fd
  | .recibe k op => match s.hilos[k]? with
    | some h => recibirOperacion s k h op
    | none => .error .bloqueado
  | .hilo k => match s.hilos[k]? with
    | some h => atenderCliente s k h
    | none => .error .bloqueado
  | .asigna q w => asignar s q w
  | .enviaWorker w => enviarAWorker s w

end Pasos

section Propiedad

/-- The thread of the connection has not ended. -/
def viva (s : Maestro) (c : ℕ) : Bool := (s.hilos[c]?).all fun h => h.lugar ≠ .fin

/-- No connection is closed twice, one that is done with is closed, and every call so far
has met its own connection or none. -/
structure DescriptoresPropios (s : Maestro) : Prop where
  una_vez : ∀ c, cierres s.tabla c ≤ 1
  cerrada : ∀ c, viva s c = false → cierres s.tabla c = 1
  sin_ajenas : SinAjenas s.tabla

/-- No recv of recibir_operacion fails, enviar_fin_query has no socket to close, and a
send goes to a connection whose thread has not ended. -/
def unSoloDuenio (s : Maestro) : Evento → Bool
  | .recibe _ op => op.isSome
  | .hilo k => (s.hilos[k]?).all fun h => match h.lugar with
    | .enviarFin q _ => (s.memQueries q).all fun x => x.socketQuery ≤ 0
    | .recv 0 (.reenviar q true) => viva s q
    | _ => true
  | .enviaWorker w => viva s w
  | _ => true

end Propiedad

section Invariante

def enCurso : Lugar → Bool
  | .cerrarFallido _ | .shutdownFin _ _ | .closeFin _ _ | .anularFin _ _ | .fin => false
  | _ => true

/-- A thread that goes on holds its connection, and it is the only one to close it. -/
inductive HiloSano (t : Tabla ℤ ℕ) (c : ℕ) (h : Hilo) : Prop
  | sigue (hlugar : enCurso h.lugar = true) (habierta : Abierta t h.fd c)
  | termino (hlugar : h.lugar = .fin) (hcierres : cierres t c = 1)

structure Ordenado (s : Maestro) : Prop where
  hilos : ∀ c h, s.hilos[c]? = some h → HiloSano s.tabla c h
  nuevas : ∀ c, s.hilos.length ≤ c → cierres s.tabla c = 0
  queries : ∀ q x, s.memQueries q = some x → (s.hilos[q]?).map Hilo.fd = some x.socketQuery
  workers : ∀ w y, s.memWorkers w = some y → (s.hilos[w]?).map Hilo.fd = some y.socket
  ajenas : SinAjenas s.tabla

variable {s s' : Maestro} {k c : ℕ} {h : Hilo} {lugar : Lugar} {op : Operacion} {fd : ℤ}

theorem ordenado_inicial : Ordenado inicial := by
  constructor
  · intro c h hc
    simp [inicial] at hc
  · intro c _
    rfl
  · intro q x hx
    cases hx
  · intro w y hy
    cases hy
  · intro l hl
    exact absurd hl List.not_mem_nil

theorem descriptoresPropios_of_ordenado (hs : Ordenado s) : DescriptoresPropios s := by
  have hcierres : ∀ c, cierres s.tabla c = if viva s c then 0 else 1 := by
    intro c
    cases hc : s.hilos[c]? with
    | none => simp [viva, hc, hs.nuevas c (List.getElem?_eq_none_iff.mp hc)]
    | some h =>
      rcases hs.hilos c h hc with ⟨hlugar, habierta⟩ | ⟨hlugar, hcierres⟩
      · have hne : h.lugar ≠ .fin := by
          intro hfin
          rw [hfin] at hlugar
          exact absurd hlugar Bool.false_ne_true
        simp [viva, hc, hne, habierta.sinCierres]
      · simp [viva, hc, hlugar, hcierres]
  refine ⟨fun c => ?_, fun c hc => ?_, hs.ajenas⟩
  · rw [hcierres]
    split_ifs <;> decide
  · rw [hcierres, hc]
    rfl

theorem HiloSano.abierta (hsano : HiloSano s.tabla k h) (hlugar : h.lugar ≠ .fin) :
    Abierta s.tabla h.fd k := by
  cases hsano with
  | sigue _ habierta => exact habierta
  | termino hfin _ => exact absurd hfin hlugar

/-- A record keeps the number of its connection, which is open until its thread ends. -/
theorem Ordenado.abierta (hs : Ordenado s) (hfd : (s.hilos[c]?).map Hilo.fd = some fd)
    (hviva : viva s c = true) : Abierta s.tabla fd c := by
  obtain ⟨h, hc, rfl⟩ := Option.map_eq_some_iff.mp hfd
  apply (hs.hilos c h hc).abierta
  simpa [viva, hc] using hviva

theorem fd_mover (s : Maestro) (hk : s.hilos[k]? = some h) (lugar : Lugar) (j : ℕ) :
    ((mover s k h lugar).hilos[j]?).map Hilo.fd = (s.hilos[j]?).map Hilo.fd := by
  by_cases hjk : k = j
  · subst hjk
    rw [mover, List.getElem?_set_self (List.getElem?_eq_some_iff.mp hk).1, hk]
    rfl
  · rw [mover, List.getElem?_set_ne hjk]

/-- A thread moves on, and what the step does with the table keeps the other threads. -/
theorem ordenado_mover (hs : Ordenado s) (hk : s.hilos[k]? = some h) {t : Tabla ℤ ℕ}
    (hsano : HiloSano t k { h with lugar := lugar })
    (hotros : ∀ c h', c ≠ k → HiloSano s.tabla c h' → HiloSano t c h')
    (hnuevas : ∀ c, c ≠ k → cierres t c = cierres s.tabla c) (hajenas : SinAjenas t) :
    Ordenado { mover s k h lugar with tabla := t } := by
  constructor
  · intro c h' hc
    rcases ListSums.getElem?_set_cases hk hc with ⟨rfl, rfl⟩ | ⟨hne, hc⟩
    · exact hsano
    · exact hotros c h' hne (hs.hilos c h' hc)
  · intro c hc
    have hlen : s.hilos.length ≤ c := by simpa [mover] using hc
    have hne : c ≠ k := by
      rintro rfl
      exact absurd (List.getElem?_eq_some_iff.mp hk).1 (Nat.not_lt.mpr hlen)
    exact (hnuevas c hne).trans (hs.nuevas c hlen)
  · intro q x hx
    exact (fd_mover s hk lugar q).trans (hs.queries q x hx)
  · intro w y hy
    exact (fd_mover s hk lugar w).trans (hs.workers w y hy)
  · exact hajenas

theorem ordenado_avanzar (hs : Ordenado s) (hk : s.hilos[k]? = some h) (hno : h.lugar ≠ .fin)
    (hlugar : enCurso lugar = true) : Ordenado (mover s k h lugar) :=
  ordenado_mover hs hk (.sigue hlugar ((hs.hilos k h hk).abierta hno)) (fun _ _ _ hsano => hsano)
    (fun _ _ => rfl) hs.ajenas

theorem HiloSano.llamar {t : Tabla ℤ ℕ} (hsano : HiloSano t k h) (hop : op ≠ .close) :
    HiloSano (llamar t op fd c) k h := by
  cases hsano with
  | sigue hlugar habierta => exact .sigue hlugar (habierta.llamar hop)
  | termino hlugar hcierres =>
    exact .termino hlugar ((cierres_llamar_of_ne (Or.inl hop)).trans hcierres)

/-- A call on an open connection that does not close it. -/
theorem ordenado_hacer (hs : Ordenado s) (hop : op ≠ .close) (hc : Abierta s.tabla fd c) :
    Ordenado (hacer s op fd c) where
  hilos k h hk := (hs.hilos k h hk).llamar hop
  nuevas k hk := (cierres_llamar_of_ne (Or.inl hop)).trans (hs.nuevas k hk)
  queries := hs.queries
  workers := hs.workers
  ajenas := sinAjenas_llamar hs.ajenas hc

theorem ordenado_cerrar (hs : Ordenado s) (hk : s.hilos[k]? = some h) (hno : h.lugar ≠ .fin) :
    Ordenado (mover (hacer s .close h.fd k) k h .fin) := by
  have habierta := (hs.hilos k h hk).abierta hno
  apply ordenado_mover hs hk (.termino rfl (cierres_cerrar habierta))
  · intro c h' hne hsano
    cases hsano with
    | sigue hlugar hc => exact .sigue hlugar (hc.cerrar habierta (Ne.symm hne))
    | termino hlugar hcierres =>
      exact .termino hlugar ((cierres_llamar_of_ne (Or.inr (Ne.symm hne))).trans hcierres)
  · intro c hne
    exact cierres_llamar_of_ne (Or.inr (Ne.symm hne))
  · exact sinAjenas_llamar hs.ajenas habierta

theorem ordenado_queries (hs : Ordenado s) {m : ℕ → Option Query}
    (hm : ∀ q x, m q = some x → (s.hilos[q]?).map Hilo.fd = some x.socketQuery) :
    Ordenado { s with memQueries := m } :=
  ⟨hs.hilos, hs.nuevas, hm, hs.workers, hs.ajenas⟩

theorem ordenado_workers (hs : Ordenado s) {m : ℕ → Option Worker}
    (hm : ∀ w y, m w = some y → (s.hilos[w]?).map Hilo.fd = some y.socket) (l : List ℕ) :
    Ordenado { s with memWorkers := m, listaWorkersConectados := l } :=
  ⟨hs.hilos, hs.nuevas, hs.queries, hm, hs.ajenas⟩

/-- A record that is freed or keeps its number. -/
theorem fd_update {α : Type} {m : ℕ → Option α} {socket : α → ℤ} {f : ℕ → Option ℤ}
    (hm : ∀ j x, m j = some x → f j = some (socket x)) {i : ℕ} {o : Option α}
    (ho : ∀ x, o = some x → f i = some (socket x)) :
    ∀ j x, Function.update m i o j = some x → f j = some (socket x) := by
  intro j x hx
  by_cases hji : j = i
  · subst hji
    rw [Function.update_self] at hx
    exact ho x hx
  · rw [Function.update_of_ne hji] at hx
    exact hm j x hx

theorem ordenado_dejarEjecutando (hs : Ordenado s) (w : ℕ) : Ordenado (dejarEjecutando s w) := by
  apply ordenado_workers hs (fd_update hs.workers ?_)
  intro y hy
  obtain ⟨y', hy', rfl⟩ := Option.map_eq_some_iff.mp hy
  exact hs.workers w y' hy'

theorem ordenado_conecta (hs : Ordenado s) (hop : esperarCliente s fd = .ok s') : Ordenado s' := by
  unfold esperarCliente at hop
  split_ifs at hop
  · obtain rfl := Except.ok.inj hop
    exact hs
  cases hlibre : s.tabla.abiertos fd with
  | some c => simp [hlibre] at hop
  | none =>
    rw [hlibre] at hop
    obtain rfl := Except.ok.inj hop
    have hviejo : ∀ {c h}, s.hilos[c]? = some h →
        (s.hilos ++ [⟨fd, .recibirOperacion .saludo⟩])[c]? = some h := fun hc =>
      (List.getElem?_append_left (List.getElem?_eq_some_iff.mp hc).1).trans hc
    constructor
    · intro c h hc
      rcases Nat.lt_or_ge c s.hilos.length with hlt | hge
      · rw [List.getElem?_append_left hlt] at hc
        cases hs.hilos c h hc with
        | sigue hlugar habierta => exact .sigue hlugar (habierta.aceptar hlibre)
        | termino hlugar hcierres => exact .termino hlugar hcierres
      · rw [List.getElem?_append_right hge] at hc
        have hcero : c = s.hilos.length := by
          have hlt := (List.getElem?_eq_some_iff.mp hc).1
          rw [List.length_singleton] at hlt
          omega
        subst hcero
        obtain rfl : ⟨fd, .recibirOperacion .saludo⟩ = h := by simpa using hc
        exact .sigue rfl (abierta_aceptar (hs.nuevas _ (Nat.le_refl _)))
    · intro c hc
      rw [List.length_append] at hc
      exact hs.nuevas c (Nat.le_trans (Nat.le_add_right ..) hc)
    · intro q x hx
      obtain ⟨h, hq, hfd⟩ := Option.map_eq_some_iff.mp (hs.queries q x hx)
      exact Option.map_eq_some_iff.mpr ⟨h, hviejo hq, hfd⟩
    · intro w y hy
      obtain ⟨h, hw, hfd⟩ := Option.map_eq_some_iff.mp (hs.workers w y hy)
      exact Option.map_eq_some_iff.mpr ⟨h, hviejo hw, hfd⟩
    · exact hs.ajenas

theorem enCurso_despachar (r : Recepcion) (op : Codigo) : enCurso (despachar r op) = true := by
  cases r with
  | bucle rol => cases rol <;> cases op <;> rfl
  | saludo => cases op <;> rfl
  | path => cases op <;> rfl
  | workerId => cases op <;> rfl

theorem ordenado_recibirOperacion {op : Option Codigo} (hs : Ordenado s)
    (hk : s.hilos[k]? = some h) (hC : op.isSome = true)
    (hop : recibirOperacion s k h op = .ok s') : Ordenado s' := by
  obtain ⟨op, rfl⟩ := Option.isSome_iff_exists.mp hC
  unfold recibirOperacion at hop
  cases hl : h.lugar with
  | esperar r =>
    rw [hl] at hop
    obtain rfl := Except.ok.inj hop
    exact ordenado_avanzar hs hk (by simp [hl]) (enCurso_despachar r op)
  | _ => simp [hl] at hop

theorem ordenado_realizar {tarea : Tarea} (hs : Ordenado s) (hk : s.hilos[k]? = some h)
    (hno : h.lugar ≠ .fin) (hC : ∀ q, tarea = .reenviar q true → viva s q = true)
    (hop : realizar s k h tarea = .ok s') : Ordenado s' := by
  have hfd : (s.hilos[k]?).map Hilo.fd = some h.fd := by rw [hk]; rfl
  cases tarea with
  | crearQuery =>
    obtain rfl := Except.ok.inj hop
    apply ordenado_queries (ordenado_avanzar hs hk hno rfl)
    refine fd_update (fun q x hx => (fd_mover s hk _ q).trans (hs.queries q x hx)) ?_
    intro x hx
    obtain rfl := Option.some.inj hx
    exact (fd_mover s hk _ k).trans hfd
  | altaWorker =>
    obtain rfl := Except.ok.inj hop
    apply ordenado_workers (ordenado_avanzar hs hk hno rfl)
    refine fd_update (fun w y hy => (fd_mover s hk _ w).trans (hs.workers w y hy)) ?_
    intro y hy
    obtain rfl := Option.some.inj hy
    exact (fd_mover s hk _ k).trans hfd
  | queryDesalojada coincide =>
    simp only [realizar] at hop
    cases hej : ejecutandoPorSocket s h.fd with
    | none =>
      rw [hej] at hop
      obtain rfl := Except.ok.inj hop
      exact ordenado_avanzar hs hk hno rfl
    | some p =>
      obtain ⟨w, q⟩ := p
      simp only [hej] at hop
      split_ifs at hop with hcoincide
      · cases hq : s.memQueries q with
        | none => simp [hq] at hop
        | some x =>
          rw [hq] at hop
          obtain rfl := Except.ok.inj hop
          exact ordenado_avanzar (ordenado_dejarEjecutando hs w) hk hno rfl
      · obtain rfl := Except.ok.inj hop
        exact ordenado_avanzar hs hk hno rfl
  | reenviar q bienFormado =>
    simp only [realizar] at hop
    split_ifs at hop with hbien
    · cases hq : s.memQueries q with
      | none => simp [hq] at hop
      | some x =>
        rw [hq] at hop
        obtain rfl := Except.ok.inj hop
        have habierta := hs.abierta (hs.queries q x hq) (hC q (by rw [hbien]))
        exact ordenado_avanzar (ordenado_hacer hs (by decide) habierta) hk hno rfl
    · obtain rfl := Except.ok.inj hop
      exact ordenado_avanzar hs hk hno rfl
  | finQuery w q coincide =>
    simp only [realizar] at hop
    split_ifs at hop with hcoincide
    · cases hq : s.memQueries q with
      | none => simp [hq] at hop
      | some x => cases hw : s.memWorkers w with
        | none => simp [hq, hw] at hop
        | some y =>
          simp only [hq, hw] at hop
          obtain rfl := Except.ok.inj hop
          exact ordenado_avanzar (ordenado_dejarEjecutando hs w) hk hno rfl
    · obtain rfl := Except.ok.inj hop
      exact ordenado_avanzar hs hk hno rfl
  | descartar =>
    obtain rfl := Except.ok.inj hop
    exact ordenado_avanzar hs hk hno rfl

theorem ordenado_manejarDesconexion {rol : Rol} (hs : Ordenado s) (hk : s.hilos[k]? = some h)
    (hno : h.lugar ≠ .fin) (hop : manejarDesconexion s k h rol = .ok s') : Ordenado s' := by
  have hcasos : ∃ lugar, enCurso lugar = true ∧ mover s k h lugar = s' := by
    cases rol with
    | query => exact ⟨.shutdown, rfl, Except.ok.inj hop⟩
    | worker =>
      simp only [manejarDesconexion] at hop
      cases hw : buscarWorkerPorSocket s h.fd with
      | none =>
        rw [hw] at hop
        exact ⟨.shutdown, rfl, Except.ok.inj hop⟩
      | some w =>
        cases hej : (s.memWorkers w).bind Worker.ejecutando with
        | none =>
          simp only [hw, hej] at hop
          exact ⟨.liberarWorker w, rfl, Except.ok.inj hop⟩
        | some q => cases hq : s.memQueries q with
          | none => simp [hw, hej, hq] at hop
          | some x =>
            simp only [hw, hej, hq] at hop
            exact ⟨.enviarFin q (some w), rfl, Except.ok.inj hop⟩
  obtain ⟨lugar, hlugar, rfl⟩ := hcasos
  exact ordenado_avanzar hs hk hno hlugar

/-- With no socket to close, enviar_fin_query makes no call. -/
theorem ordenado_enviarFin {q : ℕ} {w : Option ℕ} (hs : Ordenado s) (hk : s.hilos[k]? = some h)
    (hno : h.lugar ≠ .fin) (hC : (s.memQueries q).all (fun x => x.socketQuery ≤ 0) = true)
    (hop : enviarFinQuery s k h q w .send lugar = .ok s') : Ordenado s' := by
  unfold enviarFinQuery at hop
  cases hq : s.memQueries q with
  | none => simp [hq] at hop
  | some x =>
    have hcero : x.socketQuery ≤ 0 := by simpa [hq] using hC
    simp only [hq, hcero, and_self, if_true] at hop
    obtain rfl := Except.ok.inj hop
    exact ordenado_avanzar hs hk hno rfl

theorem ordenado_liberarQuery {q : ℕ} {w : Option ℕ} (hs : Ordenado s)
    (hk : s.hilos[k]? = some h) (hno : h.lugar ≠ .fin)
    (hop : liberarQuery s k h q w = .ok s') : Ordenado s' := by
  unfold liberarQuery at hop
  cases hq : s.memQueries q with
  | none => simp [hq] at hop
  | some x =>
    rw [hq] at hop
    obtain rfl := Except.ok.inj hop
    have hlugar : enCurso (w.elim bucleWorker .liberarWorker) = true := by cases w <;> rfl
    apply ordenado_queries (ordenado_avanzar hs hk hno hlugar)
    refine fd_update (fun q x hx => (fd_mover s hk _ q).trans (hs.queries q x hx)) ?_
    intro x hx
    cases hx

/-- One case for each place a thread can be in; it is at none of a second close. -/
theorem ordenado_atenderCliente (hs : Ordenado s) (hk : s.hilos[k]? = some h)
    (hC : unSoloDuenio s (.hilo k) = true) (hop : atenderCliente s k h = .ok s') :
    Ordenado s' := by
  have hno : h.lugar ≠ .fin := by
    intro hl
    simp [atenderCliente, hl] at hop
  have hsano := hs.hilos k h hk
  have habierta := hsano.abierta hno
  have hcurso : enCurso h.lugar = true := by
    cases hsano with
    | sigue hlugar _ => exact hlugar
    | termino hfin _ => exact absurd hfin hno
  rw [unSoloDuenio, hk, Option.all_some] at hC
  unfold atenderCliente at hop
  cases hl : h.lugar with
  | recibirOperacion r =>
    rw [hl] at hop
    obtain rfl := Except.ok.inj hop
    exact ordenado_avanzar (ordenado_hacer hs (by decide) habierta) hk hno rfl
  | esperar r => simp [hl] at hop
  | cerrarFallido r => simp [hl, enCurso] at hcurso
  | buscarWorker op =>
    rw [hl] at hop
    obtain rfl := Except.ok.inj hop
    exact ordenado_avanzar hs hk hno rfl
  | recv quedan tarea =>
    rw [hl] at hop hC
    cases quedan with
    | succ n =>
      obtain rfl := Except.ok.inj hop
      exact ordenado_avanzar (ordenado_hacer hs (by decide) habierta) hk hno rfl
    | zero =>
      apply ordenado_realizar hs hk hno ?_ hop
      rintro q rfl
      exact hC
  | desconexion rol =>
    rw [hl] at hop
    exact ordenado_manejarDesconexion hs hk hno hop
  | enviarFin q w =>
    rw [hl] at hop hC
    exact ordenado_enviarFin hs hk hno hC hop
  | shutdownFin q w => simp [hl, enCurso] at hcurso
  | closeFin q w => simp [hl, enCurso] at hcurso
  | anularFin q w => simp [hl, enCurso] at hcurso
  | liberarQuery q w =>
    rw [hl] at hop
    exact ordenado_liberarQuery hs hk hno hop
  | liberarWorker w =>
    rw [hl] at hop
    obtain rfl := Except.ok.inj hop
    apply ordenado_workers (ordenado_avanzar hs hk hno rfl)
    refine fd_update (fun w y hy => (fd_mover s hk _ w).trans (hs.workers w y hy)) ?_
    intro y hy
    cases hy
  | shutdown =>
    rw [hl] at hop
    obtain rfl := Except.ok.inj hop
    exact ordenado_avanzar (ordenado_hacer hs (by decide) habierta) hk hno rfl
  | close =>
    rw [hl] at hop
    obtain rfl := Except.ok.inj hop
    exact ordenado_cerrar hs hk hno
  | fin => exact absurd hl hno

theorem ordenado_paso {e : Evento} (hs : Ordenado s) (hC : unSoloDuenio s e = true)
    (hop : paso s e = .ok s') : Ordenado s' := by
  cases e with
  | conecta fd => exact ordenado_conecta hs hop
  | recibe k op =>
    cases hk : s.hilos[k]? with
    | none => simp [paso, hk] at hop
    | some h =>
      simp only [paso, hk] at hop
      exact ordenado_recibirOperacion hs hk hC hop
  | hilo k =>
    cases hk : s.hilos[k]? with
    | none => simp [paso, hk] at hop
    | some h =>
      simp only [paso, hk] at hop
      exact ordenado_atenderCliente hs hk hC hop
  | asigna q w =>
    simp only [paso, asignar] at hop
    cases hq : s.memQueries q with
    | none => simp [hq] at hop
    | some x => cases hw : s.memWorkers w with
      | none => simp [hq, hw] at hop
      | some y =>
        simp only [hq, hw] at hop
        obtain rfl := Except.ok.inj hop
        apply ordenado_workers hs (fd_update hs.workers ?_)
        intro y' hy'
        obtain rfl := Option.some.inj hy'
        exact hs.workers w y hw
  | enviaWorker w =>
    simp only [paso, enviarAWorker] at hop
    cases hw : s.memWorkers w with
    | none => simp [hw] at hop
    | some y =>
      rw [hw] at hop
      obtain rfl := Except.ok.inj hop
      exact ordenado_hacer hs (by decide) (hs.abierta (hs.workers w y hw) hC)

end Invariante

section Corridas

/-- In a run in which nobody but its thread closes a connection, descriptors are owned. -/
theorem descriptoresPropios_run {xs : List Evento}
    (hC : EachStep paso (fun s e => unSoloDuenio s e = true) inicial xs) :
    AlongRun paso DescriptoresPropios inicial xs :=
  alongRun_of_eachStep (A := fun _ => True) (fun _ _ _ _ hs hC hop => ordenado_paso hs hC hop)
    (fun _ => descriptoresPropios_of_ordenado) ordenado_inicial (fun _ _ => trivial) hC

/-- A Query Control and a Worker come, the Worker reads for the query, and a third client
is turned away; its number is handed out again. -/
def corridaAtendida : List Evento :=
  [.conecta 4, .hilo 0, .recibe 0 (some .helloQuery), .hilo 0, .recibe 0 (some .enviarPath),
    .hilo 0, .hilo 0, .hilo 0,
    .conecta 5, .hilo 1, .recibe 1 (some .helloWorker), .hilo 1, .recibe 1 (some .workerId),
    .hilo 1, .hilo 1,
    .asigna 0 1, .enviaWorker 1,
    .conecta 6, .hilo 2, .recibe 2 (some .otra), .hilo 2, .hilo 2, .conecta 6,
    .hilo 1, .recibe 1 (some (.respReadOk true)), .hilo 1, .hilo 1, .hilo 1, .hilo 1]

theorem descriptoresPropios_atendida :
    AlongRun paso DescriptoresPropios inicial corridaAtendida :=
  descriptoresPropios_run (by decide)

/-- A client goes away, and its number is handed out while its thread still has it. -/
def corridaReusada : List Evento :=
  [.conecta 4, .hilo 0, .recibe 0 none, .hilo 0, .conecta 4, .hilo 0, .hilo 0]

theorem not_descriptoresPropios_reusada :
    ¬ ∀ xs, AlongRun paso DescriptoresPropios inicial xs := by
  intro h
  have hend := alongRun_last (h corridaReusada) (run_eq_after (by decide))
  exact absurd hend.sin_ajenas (by decide)

end Corridas

end MasterOfFiles.DescriptorOwnership
