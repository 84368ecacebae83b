import MasterOfFiles.WholeQueries

/-!
How a party opens its connection to the Master. A Query Control sends its greeting, its
path and its priority, a Worker its greeting and its id; atender_cliente reads that much
of the stream and nothing else, and what it makes of it is the new connection of the
scheduler. Of the path only what stands behind the last slash is kept.
-/
namespace MasterOfFiles.QuerySubmission

open ByteBuffers Packets RunTraces SortedLists SchedulerState SchedulerSteps QueryRuns
open WorkerLoop ScriptProvenance WholeQueries MasterMessages

section Saludos

def opHelloQuery : Entero := 10
def opHelloWorker : Entero := 11
def opWorkerId : Entero := 2001

/-- The two programs that connect to the Master, with their arguments. -/
inductive Cliente
  | query (path : Ruta) (prioridad : Entero)
  | worker (id : Entero)

/-- What main of either program writes before it waits. -/
def presentarse : Cliente → Bytes
  | .query path prioridad => bytesEntero opHelloQuery ++
      enviarPaquete opEnviarPath [path.bytes ++ [0], bytesEntero prioridad]
  | .worker id => bytesEntero opHelloWorker ++ (bytesEntero opWorkerId ++ bytesEntero id)

/-- How atender_cliente ends before its main loop: it closes the connection, it follows a
null pointer, or it goes on with values that were never read. -/
inductive FinSaludo
  | cierre
  | caida
  | indefinido

/-- The case of OP_HELLO_QUERY. -/
def saludarQuery (b : Bytes) : Except FinSaludo (Evento × Bytes) :=
  match recibirOperacion b with
  | none => .error .indefinido
  | some (op2, b') =>
    if op2 = opEnviarPath then
      match recibirPaquete b' with
      | none => .error .indefinido
      | some (path :: prioridad :: _, b'') =>
        if 0 ∈ path ∧ 4 ≤ prioridad.length then
          .ok (.conectaQuery (cString path) (enteroDe (prioridad.take 4)).toInt, b'')
        else .error .indefinido
      | some _ => .error .caida
    else .error .cierre

/-- The case of OP_HELLO_WORKER. -/
def saludarWorker (b : Bytes) : Except FinSaludo (Evento × Bytes) :=
  match recibirOperacion b with
  | none => .error .indefinido
  | some (op2, b') =>
    if op2 = opWorkerId then
      match recibirEntero b' with
      | (none, _) => .error .indefinido
      | (some id, b'') => .ok (.conectaWorker id.toNat, b'')
    else .error .cierre

/-- The first switch of atender_cliente, and the stream its main loop goes on with. -/
def saludar (b : Bytes) : Except FinSaludo (Evento × Bytes) :=
  match recibirOperacion b with
  | none => .error .indefinido
  | some (op, b') =>
    if op.toInt ≤ 0 then .error .cierre
    else if op = opHelloQuery then saludarQuery b'
    else if op = opHelloWorker then saludarWorker b'
    else .error .cierre

/-- What the scheduler is to see of a client. -/
def eventoDe : Cliente → Evento
  | .query path prioridad => .conectaQuery path.bytes prioridad.toInt
  | .worker id => .conectaWorker id.toNat

/-- What a client writes is read back as that client, whatever follows it. -/
theorem saludar_presentarse (c : Cliente) (rest : Bytes) :
    saludar (presentarse c ++ rest) = .ok (eventoDe c, rest) := by
  cases c with
  | query path prioridad =>
    have hcabe := path.cabe
    have hlargo : largoCampos [path.bytes ++ [0], bytesEntero prioridad] < 2 ^ 31 := by
      simp [largoCampos]
      omega
    have hquery : saludarQuery (enviarPaquete opEnviarPath
        [path.bytes ++ [0], bytesEntero prioridad] ++ rest) =
          .ok (eventoDe (.query path prioridad), rest) := by
      unfold saludarQuery
      rw [recibirOperacion_enviarPaquete opEnviarPath hlargo]
      dsimp only
      rw [if_pos rfl, reads_recibirPaquete hlargo]
      dsimp only
      rw [if_pos (by simp), cString_append_nul path.sin_nul, take_bytesEntero,
        enteroDe_bytesEntero]
      rfl
    unfold saludar presentarse
    rw [List.append_assoc, recibirOperacion_append]
    exact hquery
  | worker id =>
    have hworker : saludarWorker (bytesEntero opWorkerId ++ (bytesEntero id ++ rest)) =
        .ok (eventoDe (.worker id), rest) := by
      unfold saludarWorker
      rw [recibirOperacion_append]
      dsimp only
      rw [if_pos rfl, recibirEntero_append]
      rfl
    unfold saludar presentarse
    rw [List.append_assoc, List.append_assoc, recibirOperacion_append]
    exact hworker

end Saludos

section Nombres

/-- What stands behind the last slash. -/
def ultimoNombre (ruta : Bytes) : Bytes := (ruta.reverse.takeWhile (· ≠ 47)).reverse

/-- The prefixes skipped before the last slash is looked for make no difference. -/
theorem pathNombreArchivo_eq (ruta : Bytes) : pathNombreArchivo ruta = ultimoNombre ruta := by
  unfold pathNombreArchivo ultimoNombre
  congr 1
  induction ruta using saltearPrefijos.induct with
  | case1 p ih =>
    have hprefijo : (46 :: 47 :: p).reverse = p.reverse ++ [47, 46] := by simp
    have hbarra : ([47, 46] : Bytes).takeWhile (· ≠ 47) = [] := rfl
    rw [saltearPrefijos, ih, hprefijo, List.takeWhile_append, hbarra, List.append_nil]
    split_ifs with hentera
    · exact (List.takeWhile_prefix _).eq_of_length hentera
    · rfl
  | case2 p hp =>
    rw [saltearPrefijos]
    exact hp

end Nombres

section Corridas

variable {L : ListSort ℕ} {cfg : Config} {clientes : List Cliente} {xs : List Evento}

/-- The connection of the scheduler is what atender_cliente makes of what the client has
written. -/
def Abre (c : Cliente) (e : Evento) : Prop :=
  ∃ rest, saludar (presentarse c ++ rest) = .ok (e, rest)

def pedidoDe : Cliente → Option (Bytes × ℤ)
  | .query path prioridad => some (path.bytes, prioridad.toInt)
  | .worker _ => none

theorem eventoDe_of_abre {c : Cliente} {e : Evento} (h : Abre c e) : e = eventoDe c := by
  obtain ⟨rest, hsaludo⟩ := h
  rw [saludar_presentarse] at hsaludo
  exact (Prod.mk.inj (Except.ok.inj hsaludo)).1.symm

theorem conexion_eventoDe (c : Cliente) : conexion (eventoDe c) = some (pedidoDe c) := by
  cases c <;> rfl

/-- The clients of a run, by their connections. -/
def SeConectan (clientes : List Cliente) (xs : List Evento) : Prop :=
  List.Forall₂ Abre clientes (xs.filter fun e => (conexion e).isSome)

theorem filter_eq_of_seConectan (h : SeConectan clientes xs) :
    xs.filter (fun e => (conexion e).isSome) = clientes.map eventoDe := by
  rw [← List.forall₂_eq_eq_eq, List.forall₂_map_right_iff]
  exact h.flip.imp fun e c habre => eventoDe_of_abre habre

theorem conexiones_of_seConectan (h : SeConectan clientes xs) :
    conexiones xs = clientes.map pedidoDe := by
  have hfilter : conexiones xs = (xs.filter fun e => (conexion e).isSome).filterMap conexion := by
    rw [List.filterMap_filter]
    refine List.filterMap_congr fun e _ => ?_
    cases conexion e <;> rfl
  rw [hfilter, filter_eq_of_seConectan h, List.filterMap_map]
  exact List.filterMap_eq_map_iff_forall_eq_some.mpr fun c _ => conexion_eventoDe c

/-- What a client's path is has been checked by the packet it came in. -/
theorem eventoDeRed_of_seConectan (h : SeConectan clientes xs)
    (hsin : ∀ e ∈ xs, SinDesalojada e) : ∀ e ∈ xs, EventoDeRed e := by
  intro e he
  cases e with
  | conectaQuery path prioridad =>
    have hmem : .conectaQuery path prioridad ∈ clientes.map eventoDe := by
      rw [← filter_eq_of_seConectan h]
      exact List.mem_filter.mpr ⟨he, rfl⟩
    obtain ⟨c, hc, hevento⟩ := List.mem_map.mp hmem
    cases c with
    | query ruta p =>
      obtain ⟨rfl, rfl⟩ := Evento.conectaQuery.inj hevento
      exact ⟨ruta.sin_nul, ruta.cabe⟩
    | worker id => cases hevento
  | mensaje k m =>
    have hmensaje := hsin _ he
    cases m <;> exact hmensaje
  | _ => trivial

/-- The Query that a Worker is handed, if the packet went to it. -/
def comienzoEn (w : ℕ) (d : ℕ × ℕ × SchedulerState.Paquete) : Option (ℤ × ℤ × Bytes) :=
  if d.2.1 = w then entregada (.query d.2.2) else none

theorem filterMap_enviadosA {s : Master} {e : Evento} {envio : Option (ℕ × Envio)}
    (h : enviado s e = envio) (w : ℕ) :
    (enviadosA w s e).filterMap entregada =
      envio.toList.filterMap fun x => if x.1 = w then entregada x.2 else none := by
  subst h
  unfold enviadosA
  cases enviado s e with
  | none => rfl
  | some x =>
    simp only [Option.toList_some, List.filterMap_cons, List.filterMap_nil]
    split_ifs <;> rfl

/-- Requests to give a Query back hand over nothing. -/
theorem entregada_enviadosA (w : ℕ) (s : Master) (e : Evento) :
    (enviadosA w s e).filterMap entregada = (despacho s e).filterMap (comienzoEn w) := by
  have hdesalojo (w' qid : ℕ) : (some (w', Envio.desalojo qid)).toList.filterMap
      (fun x => if x.1 = w then entregada x.2 else none) = [] := by
    by_cases hw : w' = w
    · simp [hw, entregada]
    · simp [hw]
  rw [filterMap_enviadosA rfl]
  cases e with
  | planificador envio =>
    cases envio with
    | false => rfl
    | true =>
      unfold enviado despacho
      cases s.planificador <;> rfl
  | aging envio =>
    cases envio with
    | false => rfl
    | true =>
      simp only [enviado]
      split
      · exact hdesalojo _ _
      · rfl
  | hilo k envio =>
    cases envio with
    | false => rfl
    | true =>
      simp only [enviado]
      split
      · exact hdesalojo _ _
      · rfl
  | _ => rfl

theorem entregada_enviosDe (w : ℕ) :
    (enviosDe L cfg w xs).filterMap entregada =
      (despachos L cfg xs).filterMap (comienzoEn w) := by
  rw [enviosDe, despachos, ← outputs_filterMap, ← outputs_filterMap]
  simp only [entregada_enviadosA]

theorem pedidos_of_seConectan (h : SeConectan clientes xs) {k : ℕ} {pedido : Bytes × ℤ}
    (hpedido : pedidos xs k = some pedido) :
    ∃ ruta prioridad, clientes[k]? = some (.query ruta prioridad) ∧ pedido.1 = ruta.bytes := by
  rw [pedidos, conexiones_of_seConectan h, List.getElem?_map] at hpedido
  obtain ⟨c, hc, rfl⟩ := Option.bind_eq_some_iff.mp hpedido
  obtain ⟨cliente, hk, hcliente⟩ := Option.map_eq_some_iff.mp hc
  cases cliente with
  | query ruta prioridad =>
    obtain rfl := Option.some.inj hcliente
    exact ⟨ruta, prioridad, hk, rfl⟩
  | worker id => cases hcliente

/-- The runs of these clients in which no Worker reports that it has given a Query back, and
no number or address is handed out twice. -/
structure Presentada (L : ListSort ℕ) (cfg : Config) (clientes : List Cliente)
    (xs : List Evento) : Prop where
  conecta : SeConectan clientes xs
  sinDesalojada : ∀ e ∈ xs, SinDesalojada e
  sinReuso : ReusedRecords.SinReuso L cfg xs

/-- From the Query Controls to the Workers, in every such run: the Master sends no Query
twice; what it sends is the last name in the path that the Query's own client has written,
to be run from the first instruction; and each Worker begins what was sent to it, in that
order, unless it is asked to give back a Query whose number is an opcode. -/
theorem guionesPropios_run (hrun : Presentada L cfg clientes xs) :
    ((despachos L cfg xs).map Prod.fst).Nodup ∧
      (∀ d ∈ despachos L cfg xs, ∃ ruta prioridad qid,
        clientes[d.1]? = some (.query ruta prioridad) ∧
          d.2.2 = .enviarPath qid 0 (ultimoNombre ruta.bytes)) ∧
      ∀ {σ : Type*} (ej : Ejecutores σ) (archivos : Bytes → Option Bytes) (pathQueries : Bytes)
        (w : ℕ) (s : Bucle σ),
        (∀ qid, .desalojo qid ∈ enviosDe L cfg w xs → entero qid ∉ conocidos) →
        ((escuchar ej archivos pathQueries s ((enviosDe L cfg w xs).flatMap bytesDe)).1.map
          Prod.fst).filterMap comenzada = (despachos L cfg xs).filterMap (comienzoEn w) := by
  have hconecta := hrun.conecta
  have hsin := hrun.sinDesalojada
  refine ⟨nodup_despachos hsin, fun d hd => ?_, fun ej archivos pathQueries w s hqid => ?_⟩
  · obtain ⟨qid, pedido, hpedido, hpaquete⟩ := despachos_propios hsin d hd
    obtain ⟨ruta, prioridad, hk, hruta⟩ := pedidos_of_seConectan hconecta hpedido
    refine ⟨ruta, prioridad, qid, hk, ?_⟩
    rw [hpaquete, pathNombreArchivo_eq, hruta]
  · rw [← entregada_enviosDe]
    exact comenzadas_escuchar ej archivos pathQueries (eventoDeRed_of_seConectan hconecta hsin)
      hqid s

/-- The clients of `pideDesalojo`. -/
def clientesDesalojo : List Cliente :=
  [.worker 7, .query ⟨[97], by decide, by decide⟩ 5, .query ⟨[98], by decide, by decide⟩ 1]

theorem seConectan_pideDesalojo : SeConectan clientesDesalojo pideDesalojo := by
  have hfilter : pideDesalojo.filter (fun e => (conexion e).isSome) =
      clientesDesalojo.map eventoDe := by decide +kernel
  rw [SeConectan, hfilter, List.forall₂_map_right_iff, List.forall₂_same]
  exact fun c _ => ⟨[], saludar_presentarse c []⟩

theorem guionesPropios_run_pideDesalojo :
    ((despachos (insertionSort ℕ) ⟨.prioridades, 0⟩ pideDesalojo).map Prod.fst).Nodup ∧
      (∃ ruta prioridad qid, clientesDesalojo[2]? = some (.query ruta prioridad) ∧
        SchedulerState.Paquete.enviarPath 1 0 [98] =
          .enviarPath qid 0 (ultimoNombre ruta.bytes)) ∧
      ((escuchar EndReports.sinEfecto (fun _ => none) [] ⟨EndReports.sinPaths, false, false⟩
        ((enviosDe (insertionSort ℕ) ⟨.prioridades, 0⟩ 0 pideDesalojo).flatMap bytesDe)).1.map
          Prod.fst).filterMap comenzada =
        (despachos (insertionSort ℕ) ⟨.prioridades, 0⟩ pideDesalojo).filterMap (comienzoEn 0) := by
  obtain ⟨hnodup, hnombres, hcomienzos⟩ := guionesPropios_run
    ⟨seConectan_pideDesalojo, by decide, seguida_pideDesalojo.sinReuso⟩
  refine ⟨hnodup, hnombres (2, 0, .enviarPath 1 0 [98]) (by decide +kernel), ?_⟩
  refine hcomienzos EndReports.sinEfecto (fun _ => none) [] 0 _ fun qid hmem => ?_
  rw [enviosDe_pideDesalojo] at hmem
  obtain rfl : qid = 0 := by simpa using hmem
  decide

end Corridas

end MasterOfFiles.QuerySubmission
