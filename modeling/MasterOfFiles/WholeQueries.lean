import MasterOfFiles.EndReports
import MasterOfFiles.ReusedRecords
import MasterOfFiles.ScriptProvenance
import MasterOfFiles.WorkerLoop

/-!
The Master and a Worker together. As long as no Worker reports that it has given a Query
back, and no loop of a Worker does, every Query the Master hands over is new. What it
writes on the socket of a Worker is then new Queries and requests to give one back; the
Worker runs each Query whole, and only a request about a Query whose number is an opcode
disturbs the stream.
-/
namespace MasterOfFiles.WholeQueries

open ByteBuffers Packets RunTraces SchedulerState SchedulerSteps
open SortedLists WorkerLoop QueryRuns ScriptProvenance
open MasterMessages (EventoWorker MensajeMaster)

section Envios

/-- What the Master writes on the socket of a Worker. -/
inductive Envio
  | query (p : SchedulerState.Paquete)
  | desalojo (qid : ℕ)
  deriving DecidableEq

/-- What a step writes, and to whom; a send that fails writes nothing. -/
def enviado (s : Master) : Evento → Option (ℕ × Envio)
  | .planificador true => match s.planificador with
    | .enviar _ w p => some (w, .query p)
    | _ => none
  | .aging true => match s.aging with
    | some (.enviar _ w qid) => some (w, .desalojo qid)
    | _ => none
  | .hilo k true => match s.hilos[k]? with
    | some (.verificar (.enviar _ w qid) _) => some (w, .desalojo qid)
    | _ => none
  | _ => none

def enviadosA (w : ℕ) (s : Master) (e : Evento) : List Envio :=
  match enviado s e with
  | some (w', envio) => if w' = w then [envio] else []
  | none => []

/-- A number in an int. -/
def entero (n : ℕ) : Entero := BitVec.ofNat _ n

def bytesDe : Envio → Bytes
  | .query (.enviarPath qid pc path) =>
    enviarPaquete opEnviarPath [bytesEntero (entero qid), bytesEntero (entero pc), path ++ [0]]
  | .query (.reanudarQuery qid pc path) =>
    enviarPaquete opReanudarQuery [bytesEntero (entero qid), bytesEntero (entero pc), path ++ [0]]
  | .desalojo qid => MasterMessages.verificarDesalojo (entero qid)

/-- The Query the Master hands over: its number, its counter and its path. -/
def entregada : Envio → Option (ℤ × ℤ × Bytes)
  | .query (.enviarPath qid pc path) => some ((entero qid).toInt, (entero pc).toInt, path)
  | .query (.reanudarQuery qid pc path) => some ((entero qid).toInt, (entero pc).toInt, path)
  | .desalojo _ => none

/-- The Query a turn of the Worker begins. -/
def comenzada : EventoWorker → Option (ℤ × ℤ × Bytes)
  | .query id pc nombre => some (id, pc, nombre)
  | .reanudar qid pc (some path) => some (qid, pc, path)
  | _ => none

end Envios

section Rutas

/-- A string that a packet carries and that leaves room for the packet around it. -/
def EsRuta (path : Bytes) : Prop := 0 ∉ path ∧ path.length + 21 < 2 ^ 31 - 8

/-- A Query's path comes in a packet, and no Worker reports that it has given a Query
back. -/
def EventoDeRed : Evento → Prop
  | .conectaQuery path _ => EsRuta path
  | .mensaje _ (.queryDesalojada _ _) => False
  | _ => True

instance : DecidablePred EventoDeRed
  | .conectaQuery path _ => inferInstanceAs (Decidable (0 ∉ path ∧ path.length + 21 < _))
  | .mensaje _ (.queryDesalojada _ _) => isFalse id
  | .mensaje _ (.finQuery _) | .mensaje _ .desconexion => isTrue trivial
  | .conectaWorker _ | .planificador _ | .aging _ | .hilo _ _ | .sigint => isTrue trivial

theorem sinDesalojada_of_eventoDeRed {e : Evento} (h : EventoDeRed e) : SinDesalojada e := by
  cases e with
  | mensaje k m => cases m <;> exact h
  | _ => trivial

/-- The file name in a path is a part of it. -/
theorem esRuta_pathNombreArchivo {path : Bytes} (h : EsRuta path) :
    EsRuta (pathNombreArchivo path) := by
  have hprefijos : ∀ path, saltearPrefijos path <:+ path := by
    intro path
    induction path using saltearPrefijos.induct with
    | case1 p ih =>
      rw [saltearPrefijos]
      exact ih.trans ((List.suffix_cons 47 p).trans (List.suffix_cons 46 _))
    | case2 p hp =>
      have hfijo : saltearPrefijos p = p := by
        rw [saltearPrefijos]
        exact hp
      exact hfijo.symm ▸ List.suffix_rfl
  have hparte : (pathNombreArchivo path).Sublist path := by
    have htake : ((saltearPrefijos path).reverse.takeWhile (· ≠ 47)).Sublist
        (saltearPrefijos path).reverse := List.takeWhile_sublist _
    rw [← List.reverse_sublist, List.reverse_reverse] at htake
    exact htake.trans (hprefijos path).sublist
  have hlength := hparte.length_le
  refine ⟨fun hcero => h.1 (hparte.subset hcero), ?_⟩
  have hcabe := h.2
  omega

/-- Whatever connection it is, its path comes in a packet. -/
theorem esRuta_pedidos {xs : List Evento} (hred : ∀ e ∈ xs, EventoDeRed e) {k : ℕ}
    {pedido : Bytes × ℤ} (h : pedidos xs k = some pedido) : EsRuta pedido.1 := by
  obtain ⟨c, hc, rfl⟩ := Option.bind_eq_some_iff.mp h
  obtain ⟨e, he, hconexion⟩ := List.mem_filterMap.mp (List.mem_of_getElem? hc)
  cases e with
  | conectaQuery path prioridad =>
    obtain rfl := Option.some.inj (Option.some.inj hconexion)
    exact hred _ he
  | conectaWorker id => cases hconexion
  | _ => cases hconexion

end Rutas

section Corrida

variable {L : ListSort ℕ} {cfg : Config} {s : Master} {e : Evento} {w : ℕ}

/-- What is written to a Worker: a new Query, or a request to give one back. -/
def EnvioNuevo : Envio → Prop
  | .query p => ∃ qid path, p = .enviarPath qid 0 path ∧ EsRuta path
  | .desalojo _ => True

/-- Only the planner hands over Queries. -/
theorem planificador_of_enviado {p : SchedulerState.Paquete}
    (h : enviado s e = some (w, .query p)) : ∃ q, s.planificador = .enviar q w p := by
  unfold enviado at h
  split at h
  · split at h
    · next q w' p' hp =>
      obtain ⟨rfl, hquery⟩ := Prod.mk.inj (Option.some.inj h)
      obtain rfl := Envio.query.inj hquery
      exact ⟨q, hp⟩
    · cases h
  · split at h <;> cases h
  · split at h <;> cases h
  · cases h

theorem envioNuevo_enviadosA {ped : ℕ → Option (Bytes × ℤ)} (h : Propios ped s)
    (hruta : ∀ k pedido, ped k = some pedido → EsRuta pedido.1) :
    ∀ envio ∈ enviadosA w s e, EnvioNuevo envio := by
  intro envio hmem
  unfold enviadosA at hmem
  split at hmem
  · next w' envio' henviado =>
    split_ifs at hmem
    · obtain rfl := List.mem_singleton.mp hmem
      cases envio with
      | desalojo qid => trivial
      | query p =>
        obtain ⟨q, hp⟩ := planificador_of_enviado henviado
        obtain ⟨qid, pedido, hpedido, rfl⟩ := h.paquete q w' p hp
        exact ⟨qid, _, rfl, esRuta_pathNombreArchivo (hruta q pedido hpedido)⟩
    · exact absurd hmem List.not_mem_nil
  · exact absurd hmem List.not_mem_nil

/-- A message that the loop of the Worker takes as such. -/
theorem exists_mensaje {envio : Envio} (h : EnvioNuevo envio)
    (hqid : ∀ qid, envio = .desalojo qid → entero qid ∉ conocidos) :
    ∃ m, MasterMessages.escribir m = bytesDe envio ∧ Inofensivo m ∧
      (leidos m).filterMap comenzada = (entregada envio).toList := by
  cases envio with
  | query p =>
    obtain ⟨qid, path, rfl, hruta⟩ := h
    refine ⟨.planificar (entero qid) 0 ⟨path, hruta.1, hruta.2⟩, ?_, Or.inl ⟨_, _, rfl⟩, rfl⟩
    rfl
  | desalojo qid =>
    exact ⟨.verificarDesalojo (entero qid), rfl, Or.inr ⟨_, rfl, hqid qid rfl⟩, rfl⟩

theorem exists_mensajes {envios : List Envio} (h : ∀ envio ∈ envios, EnvioNuevo envio)
    (hqid : ∀ qid, .desalojo qid ∈ envios → entero qid ∉ conocidos) :
    ∃ ms : List MensajeMaster, envios.flatMap bytesDe = ms.flatMap MasterMessages.escribir ∧
      (∀ m ∈ ms, Inofensivo m) ∧
      (ms.flatMap leidos).filterMap comenzada = envios.filterMap entregada := by
  induction envios with
  | nil => exact ⟨[], rfl, fun m hm => absurd hm List.not_mem_nil, rfl⟩
  | cons envio envios ih =>
    obtain ⟨m, hbytes, hm, hleidos⟩ := exists_mensaje (h envio (List.mem_cons_self ..))
      fun qid heq => hqid qid (heq ▸ List.mem_cons_self ..)
    obtain ⟨ms, hresto, hms, hcola⟩ := ih
      (fun envio' hmem => h envio' (List.mem_cons_of_mem _ hmem))
      fun qid hmem => hqid qid (List.mem_cons_of_mem _ hmem)
    refine ⟨m :: ms, ?_, ?_, ?_⟩
    · rw [List.flatMap_cons, List.flatMap_cons, hbytes, hresto]
    · exact List.forall_mem_cons.mpr ⟨hm, hms⟩
    · rw [List.flatMap_cons, List.filterMap_append, hleidos, hcola]
      cases hentrega : entregada envio with
      | none => rw [List.filterMap_cons_none hentrega, Option.toList_none, List.nil_append]
      | some p => rw [List.filterMap_cons_some hentrega, Option.toList_some, List.singleton_append]

/-- What the Master writes on the socket of a Worker. -/
def enviosDe (L : ListSort ℕ) (cfg : Config) (w : ℕ) (xs : List Evento) : List Envio :=
  outputs (paso L cfg) (enviadosA w) inicial xs

variable {σ : Type*}

theorem envioNuevo_enviosDe {xs : List Evento} (hred : ∀ e ∈ xs, EventoDeRed e) :
    ∀ envio ∈ enviosDe L cfg w xs, EnvioNuevo envio :=
  forall_mem_outputs_of_eachStep (fun _ _ _ h he hop => propios_paso h he hop)
    (fun _ _ _ h _ _ => envioNuevo_enviadosA h fun _ _ => esRuta_pedidos hred) propios_inicial
    (numerada_pedidos fun e he => sinDesalojada_of_eventoDeRed (hred e he))

/-- A Worker begins what it has been handed, in that order. -/
theorem comenzadas_escuchar (ej : Ejecutores σ) (archivos : Bytes → Option Bytes)
    (pathQueries : Bytes) {xs : List Evento} (hred : ∀ e ∈ xs, EventoDeRed e)
    (hqid : ∀ qid, .desalojo qid ∈ enviosDe L cfg w xs → entero qid ∉ conocidos) (s : Bucle σ) :
    ((escuchar ej archivos pathQueries s ((enviosDe L cfg w xs).flatMap bytesDe)).1.map
      Prod.fst).filterMap comenzada = (enviosDe L cfg w xs).filterMap entregada := by
  obtain ⟨ms, hbytes, hms, hleidos⟩ := exists_mensajes (envioNuevo_enviosDe hred) hqid
  rw [hbytes, (escuchar_mensajes hms s).1, hleidos]

/-- The runs in which a Worker's connection says who it is: the paths come in packets, no
Worker reports that it has given a Query back, and no number or address is handed out
twice. -/
structure Seguida (L : ListSort ℕ) (cfg : Config) (xs : List Evento) : Prop where
  deRed : ∀ e ∈ xs, EventoDeRed e
  sinReuso : ReusedRecords.SinReuso L cfg xs

/-- In every such run of the Master the Workers run the Queries they are handed, in their
order, from the first instruction to the last, whatever evictions the Master asks for,
unless it is of a Query whose number is an opcode. -/
theorem enteras_run {L : ListSort ℕ} {cfg : Config} (ej : Ejecutores σ)
    (archivos : Bytes → Option Bytes) (pathQueries : Bytes) {xs : List Evento}
    (hrun : Seguida L cfg xs) (w : ℕ)
    (hqid : ∀ qid, .desalojo qid ∈ enviosDe L cfg w xs → entero qid ∉ conocidos) (s : Bucle σ) :
    let turnos := (escuchar ej archivos pathQueries s ((enviosDe L cfg w xs).flatMap bytesDe)).1
    (turnos.map Prod.fst).filterMap comenzada = (enviosDe L cfg w xs).filterMap entregada ∧
      (∀ x ∈ turnos, TurnoEntero archivos pathQueries x) ∧
      ∀ p ∈ (enviosDe L cfg w xs).filterMap entregada, p.2.1 = 0 := by
  have hred := hrun.deRed
  refine ⟨comenzadas_escuchar ej archivos pathQueries hred hqid s, turnoEntero_escuchar s _, ?_⟩
  intro p hp
  obtain ⟨envio, hmem, hentrega⟩ := List.mem_filterMap.mp hp
  have hnuevo := envioNuevo_enviosDe hred envio hmem
  cases envio with
  | desalojo qid => simp [entregada] at hentrega
  | query paquete =>
    obtain ⟨qid, path, rfl, -⟩ := hnuevo
    obtain rfl := Option.some.inj hentrega
    rfl

/-- Query 0 runs on the only Worker when Query 1 comes, which has a better priority and
waits all the same until Query 0 has ended. -/
def pideDesalojo : List Evento :=
  [.conectaWorker 7, .hilo 0 true, .hilo 0 true, .conectaQuery [97] 5] ++
    List.replicate 7 (.hilo 1 true) ++ List.replicate 6 (.planificador true) ++
    .conectaQuery [98] 1 :: List.replicate 8 (.hilo 2 true) ++
    .mensaje 0 (.finQuery (some 0)) :: List.replicate 7 (.hilo 0 true) ++
    List.replicate 6 (.planificador true)

theorem enviosDe_pideDesalojo : enviosDe (insertionSort ℕ) ⟨.prioridades, 0⟩ 0 pideDesalojo =
    [.query (.enviarPath 0 0 [97]), .desalojo 0, .query (.enviarPath 1 0 [98])] := by
  decide +kernel

/-- Both Queries and the Worker are there before Query 0 ends. -/
theorem seguida_pideDesalojo : Seguida (insertionSort ℕ) ⟨.prioridades, 0⟩ pideDesalojo where
  deRed := by decide
  sinReuso := ⟨pideDesalojo.take 26, pideDesalojo.drop 26, (List.take_append_drop 26 _).symm,
    by decide, by decide +kernel⟩

theorem enteras_run_pideDesalojo :
    let turnos := (escuchar EndReports.sinEfecto (fun _ => none) [] ⟨EndReports.sinPaths, false,
      false⟩ ((enviosDe (insertionSort ℕ) ⟨.prioridades, 0⟩ 0 pideDesalojo).flatMap bytesDe)).1
    (turnos.map Prod.fst).filterMap comenzada =
        (enviosDe (insertionSort ℕ) ⟨.prioridades, 0⟩ 0 pideDesalojo).filterMap entregada ∧
      (∀ x ∈ turnos, TurnoEntero (fun _ => none) [] x) ∧
      ∀ p ∈ (enviosDe (insertionSort ℕ) ⟨.prioridades, 0⟩ 0 pideDesalojo).filterMap entregada,
        p.2.1 = 0 := by
  refine enteras_run EndReports.sinEfecto (fun _ => none) [] seguida_pideDesalojo 0
    (fun qid hmem => ?_) ⟨EndReports.sinPaths, false, false⟩
  rw [enviosDe_pideDesalojo] at hmem
  obtain rfl : qid = 0 := by simpa using hmem
  decide

end Corrida

end MasterOfFiles.WholeQueries
