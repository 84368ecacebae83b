import MasterOfFiles.KeyedLists
import MasterOfFiles.Packets

/-!
What the Master writes on a Worker's socket and what the Worker's main loop makes
of it. The Master sends a Query and asks for its eviction in packets, and once
in a bare opcode; the Worker reads a packet behind OP_ENVIAR_PATH only and bare
ints behind its other opcodes. What a Query does while it runs is left open: it
matters here by the END instructions it executes, each of which forgets a path.
-/
namespace MasterOfFiles.MasterMessages

open ByteBuffers ByteStreams Packets KeyedLists

section Master

/-- A Query's path, a string that leaves room for the packet around it. -/
structure Ruta where
  bytes : Bytes
  sin_nul : 0 ∉ bytes
  cabe : bytes.length + 21 < 2 ^ 31 - 8

inductive MensajeMaster
  | planificar (qid pc : Entero) (path : Ruta)
  | verificarDesalojo (qid : Entero)
  | solicitarDesalojo

/-- planificador_fifo, when it hands a Query to the Worker. -/
def planificadorFifo (qid pc : Entero) (path : Ruta) : Bytes :=
  enviarPaquete (if pc = 0 then opEnviarPath else opReanudarQuery)
    [bytesEntero qid, bytesEntero pc, path.bytes ++ [0]]

def verificarDesalojo (qid : Entero) : Bytes := enviarPaquete opDesalojarQuery [bytesEntero qid]

def solicitarDesalojoAlWorker : Bytes := bytesEntero opDesalojarQuery

def escribir : MensajeMaster → Bytes
  | .planificar qid pc path => planificadorFifo qid pc path
  | .verificarDesalojo qid => verificarDesalojo qid
  | .solicitarDesalojo => solicitarDesalojoAlWorker

end Master

section Worker

def generarPathQuery (pathQueries nombreQuery : Bytes) : Bytes :=
  if pathQueries.getLast? = some 47 then pathQueries ++ nombreQuery
  else pathQueries ++ [47] ++ nombreQuery

/-- lista_query_paths, and how many Queries have been run. -/
structure Paths where
  lista : List (ℤ × Bytes)
  corridas : ℕ

def addPathForQid (p : Paths) (qid : ℤ) (path : Bytes) : Paths :=
  { p with lista := p.lista ++ [(qid, path)] }

def getPathForQid (p : Paths) (qid : ℤ) : Option Bytes :=
  (first Prod.fst qid p.lista).map Prod.snd

def removePathForQid (qid : ℤ) (p : Paths) : Paths :=
  { p with lista := eraseFirst Prod.fst qid p.lista }

inductive EventoWorker
  | query (idQuery pcInicial : ℤ) (nombre : Bytes)
  | reanudar (qid pc : ℤ) (path : Option Bytes)
  | desalojo (idQuery : Option ℤ)
  | desconexionQuery (idQuery : ℤ)
  /-- A recv the stream ended under: the variable has no value. -/
  | incompleto (op : ℤ)
  | inesperado (op : ℤ)
  deriving DecidableEq

/-- How the loop ends: on a closed connection, on a null pointer, or on values
that were never read. -/
inductive FinWorker
  | cierre
  | caida
  | indefinido
  deriving DecidableEq

variable (fines : ℕ → ℕ) (pathQueries : Bytes)

/-- The run number `p.corridas` executes `fines p.corridas` END instructions. -/
def procesarQuery (p : Paths) (idQuery : ℤ) : Paths :=
  let p' := (removePathForQid idQuery)^[fines p.corridas] p
  { p' with corridas := p.corridas + 1 }

def atenderEnviarPath (p : Paths) (b : Bytes) : Except FinWorker (EventoWorker × Paths × Bytes) :=
  match recibirPaquete b with
  | none => .error .indefinido
  | some (idQuery :: pcInicial :: nombre :: _, b') =>
    if 4 ≤ idQuery.length ∧ 4 ≤ pcInicial.length ∧ 0 ∈ nombre then
      let id := (enteroDe (idQuery.take 4)).toInt
      let p' := addPathForQid p id (generarPathQuery pathQueries (cString nombre))
      .ok (.query id (enteroDe (pcInicial.take 4)).toInt (cString nombre),
        procesarQuery fines p' id, b')
    else .error .indefinido
  | some _ => .error .caida

def atenderReanudar (p : Paths) (b : Bytes) : Except FinWorker (EventoWorker × Paths × Bytes) :=
  match recibirEntero b with
  | (none, _) => .error .indefinido
  | (some qid, b') => match recibirEntero b' with
    | (none, _) => .error .indefinido
    | (some pc, b'') => match getPathForQid p qid.toInt with
      | none => .ok (.reanudar qid.toInt pc.toInt none, p, b'')
      | some path => .ok (.reanudar qid.toInt pc.toInt (some path),
          removePathForQid qid.toInt (procesarQuery fines p qid.toInt), b'')

/-- A turn of the main loop. -/
def turnoWorker (p : Paths) (b : Bytes) : Except FinWorker (EventoWorker × Paths × Bytes) :=
  match recibirOperacion b with
  | none => .error .indefinido
  | some (op, b') =>
    if op = opEnviarPath then atenderEnviarPath fines pathQueries p b'
    else if op = opQueryDesconectada then match recibirEntero b' with
      | (none, b'') => .ok (.incompleto op.toInt, p, b'')
      | (some id, b'') => .ok (.desconexionQuery id.toInt, p, b'')
    else if op = opDesalojarQuery then match recibirEntero b' with
      | (none, b'') => .ok (.incompleto op.toInt, p, b'')
      | (some id, b'') => .ok (.desalojo (some id.toInt), p, b'')
    else if op = opReanudarQuery then atenderReanudar fines p b'
    else if op = -1 then .error .cierre
    else .ok (.inesperado op.toInt, p, b')

end Worker

section Consumo

variable {fines : ℕ → ℕ} {pathQueries : Bytes} {p p' : Paths} {b b' : Bytes} {e : EventoWorker}

theorem length_atenderEnviarPath_le
    (h : atenderEnviarPath fines pathQueries p b = .ok (e, p', b')) : b'.length ≤ b.length := by
  unfold atenderEnviarPath at h
  split at h
  · simp at h
  · next hpaquete =>
    split_ifs at h
    obtain ⟨-, -, rfl⟩ : _ ∧ _ ∧ _ = b' := by simpa using h
    exact length_recibirPaquete_le hpaquete
  · simp at h

theorem length_atenderReanudar_le (h : atenderReanudar fines p b = .ok (e, p', b')) :
    b'.length ≤ b.length := by
  unfold atenderReanudar at h
  split at h
  · simp at h
  · next qid b₁ hqid =>
    have h₁ := length_recibirEntero_le hqid
    split at h
    · simp at h
    · next pc b₂ hpc =>
      have h₂ := length_recibirEntero_le hpc
      split at h <;> obtain ⟨-, -, rfl⟩ : _ ∧ _ ∧ _ = b' := by simpa using h
      · omega
      · omega

theorem consumes_turnoWorker (fines : ℕ → ℕ) (pathQueries : Bytes) :
    Consumes (turnoWorker fines pathQueries) := by
  intro p b e p' b' h
  unfold turnoWorker at h
  cases hop : recibirOperacion b with
  | none => simp [hop] at h
  | some q =>
    obtain ⟨op, b₁⟩ := q
    rcases length_recibirOperacion hop with ⟨rfl, rfl⟩ | hlen
    · simp [hop, opEnviarPath, opQueryDesconectada, opDesalojarQuery, opReanudarQuery] at h
    · simp only [hop] at h
      split_ifs at h
      · have hle := length_atenderEnviarPath_le h
        omega
      · split at h <;> next hrecv =>
          obtain ⟨-, -, rfl⟩ : _ ∧ _ ∧ _ = b' := by simpa using h
          have hle := length_recibirEntero_le hrecv
          omega
      · split at h <;> next hrecv =>
          obtain ⟨-, -, rfl⟩ : _ ∧ _ ∧ _ = b' := by simpa using h
          have hle := length_recibirEntero_le hrecv
          omega
      · have hle := length_atenderReanudar_le h
        omega
      · obtain ⟨-, -, rfl⟩ : _ ∧ _ ∧ _ = b' := by simpa using h
        omega

end Consumo

section Turnos

variable (fines : ℕ → ℕ) (pathQueries : Bytes) (p : Paths) (rest : Bytes)

theorem turnoWorker_reanudar : turnoWorker fines pathQueries p
    (bytesEntero opReanudarQuery ++ rest) = atenderReanudar fines p rest := by
  unfold turnoWorker
  rw [recibirOperacion_append]
  simp [opEnviarPath, opQueryDesconectada, opDesalojarQuery, opReanudarQuery]

theorem turnoWorker_desalojar (id : Entero) : turnoWorker fines pathQueries p
    (bytesEntero opDesalojarQuery ++ (bytesEntero id ++ rest)) =
      .ok (.desalojo (some id.toInt), p, rest) := by
  unfold turnoWorker
  rw [recibirOperacion_append]
  simp [recibirEntero_append, opEnviarPath, opQueryDesconectada, opDesalojarQuery]

theorem turnoWorker_desconectada (id : Entero) : turnoWorker fines pathQueries p
    (bytesEntero opQueryDesconectada ++ (bytesEntero id ++ rest)) =
      .ok (.desconexionQuery id.toInt, p, rest) := by
  unfold turnoWorker
  rw [recibirOperacion_append]
  simp [recibirEntero_append, opEnviarPath, opQueryDesconectada]

/-- Any other opcode is logged, and whatever follows it is read as the next one. -/
theorem turnoWorker_inesperado (op : Entero)
    (h : op ∉ [opEnviarPath, opQueryDesconectada, opDesalojarQuery, opReanudarQuery, -1]) :
    turnoWorker fines pathQueries p (bytesEntero op ++ rest) =
      .ok (.inesperado op.toInt, p, rest) := by
  simp only [List.mem_cons, List.not_mem_nil, or_false, not_or] at h
  obtain ⟨hpath, hdesconectada, hdesalojar, hreanudar, hmenos⟩ := h
  unfold turnoWorker
  rw [recibirOperacion_append]
  simp only [if_neg hpath, if_neg hdesconectada, if_neg hdesalojar, if_neg hreanudar,
    if_neg hmenos]

theorem atenderReanudar_enteros (qid pc : Entero) :
    ∃ path p', atenderReanudar fines p (bytesEntero qid ++ (bytesEntero pc ++ rest)) =
      .ok (.reanudar qid.toInt pc.toInt path, p', rest) := by
  unfold atenderReanudar
  rw [recibirEntero_append]
  simp only [recibirEntero_append]
  cases getPathForQid p qid.toInt with
  | none => exact ⟨_, _, rfl⟩
  | some path => exact ⟨_, _, rfl⟩

end Turnos

section Acuerdo

/-- What the Worker should make of a message; the bare opcode names no Query. -/
def esperado (pathQueries : Bytes) : MensajeMaster → EventoWorker
  | .planificar qid pc path =>
    if pc = 0 then .query qid.toInt pc.toInt path.bytes
    else .reanudar qid.toInt pc.toInt (some (generarPathQuery pathQueries path.bytes))
  | .verificarDesalojo qid => .desalojo (some qid.toInt)
  | .solicitarDesalojo => .desalojo none

/-- The message is a new Query: the one packet the Worker reads as a packet. -/
def EsQueryNueva (m : MensajeMaster) : Prop := ∃ qid path, m = .planificar qid 0 path

variable {fines : ℕ → ℕ} {pathQueries : Bytes} {p : Paths}

def siguiente (fines : ℕ → ℕ) (pathQueries : Bytes) (p : Paths) : MensajeMaster → Paths
  | .planificar qid _ path =>
    procesarQuery fines (addPathForQid p qid.toInt (generarPathQuery pathQueries path.bytes))
      qid.toInt
  | _ => p

theorem largoCampos_planificar (qid pc : Entero) (path : Ruta) :
    largoCampos [bytesEntero qid, bytesEntero pc, path.bytes ++ [0]] =
      path.bytes.length + 21 := by
  simp [largoCampos]
  omega

theorem turnoWorker_queryNueva {m : MensajeMaster} (h : EsQueryNueva m) (rest : Bytes) :
    turnoWorker fines pathQueries p (escribir m ++ rest) =
      .ok (esperado pathQueries m, siguiente fines pathQueries p m, rest) := by
  obtain ⟨qid, path, rfl⟩ := h
  have hcabe := path.cabe
  have hlargo : largoCampos [bytesEntero qid, bytesEntero 0, path.bytes ++ [0]] < 2 ^ 31 := by
    rw [largoCampos_planificar]
    omega
  have hescribir : escribir (.planificar qid 0 path) =
      enviarPaquete opEnviarPath [bytesEntero qid, bytesEntero 0, path.bytes ++ [0]] := by
    simp [escribir, planificadorFifo]
  unfold turnoWorker
  rw [hescribir, recibirOperacion_enviarPaquete opEnviarPath hlargo]
  simp only [if_true]
  unfold atenderEnviarPath
  rw [reads_recibirPaquete hlargo]
  simp only [length_bytesEntero, take_bytesEntero, enteroDe_bytesEntero,
    cString_append_nul path.sin_nul]
  rw [if_pos (by simp)]
  rfl

/-- Events that no message of the Master asks for. -/
def Ajeno : EventoWorker → Prop
  | .inesperado _ => True
  | .desconexionQuery _ => True
  | _ => False

theorem not_ajeno_esperado (pathQueries : Bytes) (m : MensajeMaster) :
    ¬ Ajeno (esperado pathQueries m) := by
  cases m with
  | planificar qid pc path =>
    simp only [esperado]
    split_ifs <;> exact id
  | verificarDesalojo qid => exact id
  | solicitarDesalojo => exact id

/-- The size of a packet in place of an opcode, with small numbers behind it. -/
theorem exists_ajeno (fines : ℕ → ℕ) (pathQueries : Bytes) (p : Paths) {n : ℕ} (hn : 21 ≤ n)
    (hn' : n < 2 ^ 31) (resto : Bytes) :
    ∃ e ∈ (listen (turnoWorker fines pathQueries) p
      (bytesEntero (BitVec.ofNat _ n) ++ (bytesEntero 4 ++ (bytesEntero 4 ++
        (bytesEntero (BitVec.ofNat _ (n - 20)) ++ resto))))).1, Ajeno e := by
  have hc := consumes_turnoWorker fines pathQueries
  by_cases hdesalojar : n = 301
  · subst hdesalojar
    have hturn := turnoWorker_desalojar fines pathQueries p
      (bytesEntero 4 ++ (bytesEntero 281 ++ resto)) 4
    have hfin := turnoWorker_inesperado fines pathQueries p (bytesEntero 281 ++ resto) 4
      (by decide)
    exact ⟨_, mem_listen_tail hc hturn (mem_listen_head hc hfin), trivial⟩
  · by_cases hreanudar : n = 303
    · subst hreanudar
      obtain ⟨path, p', hturn⟩ := atenderReanudar_enteros fines p (bytesEntero 283 ++ resto) 4 4
      have hturn' := (turnoWorker_reanudar fines pathQueries p _).trans hturn
      have hfin := turnoWorker_inesperado fines pathQueries p' resto 283 (by decide)
      exact ⟨_, mem_listen_tail hc hturn' (mem_listen_head hc hfin), trivial⟩
    · by_cases hdesconectada : n = 304
      · subst hdesconectada
        have hturn := turnoWorker_desconectada fines pathQueries p
          (bytesEntero 4 ++ (bytesEntero 284 ++ resto)) 4
        exact ⟨_, mem_listen_head hc hturn, trivial⟩
      · have hop : (BitVec.ofNat (8 * 4) n) ∉
            [opEnviarPath, opQueryDesconectada, opDesalojarQuery, opReanudarQuery, -1] := by
          have hint := toInt_ofNat_of_lt hn'
          intro hmem
          have hvalor := List.mem_map_of_mem (f := BitVec.toInt) hmem
          have hlista : [opEnviarPath, opQueryDesconectada, opDesalojarQuery, opReanudarQuery,
              -1].map BitVec.toInt = [1, 304, 301, 303, -1] := by decide
          rw [hint, hlista] at hvalor
          simp only [List.mem_cons, List.not_mem_nil, or_false] at hvalor
          omega
        have hturn := turnoWorker_inesperado fines pathQueries p (bytesEntero 4 ++
          (bytesEntero 4 ++ (bytesEntero (BitVec.ofNat _ (n - 20)) ++ resto))) _ hop
        exact ⟨_, mem_listen_head hc hturn, trivial⟩

/-- A resumed Query is read as two ints, the size of the packet and that of its
first field; then the Query's own number is taken for an opcode. -/
theorem not_agrees_reanudar {qid pc : Entero} (hpc : pc ≠ 0) (path : Ruta)
    (ms : List MensajeMaster) :
    ¬ Agrees (turnoWorker fines pathQueries) escribir (esperado pathQueries) .cierre p
      (.planificar qid pc path :: ms) := by
  intro h
  have hcabe := path.cabe
  have hlargo := largoCampos_planificar qid pc path
  have hbytes : (MensajeMaster.planificar qid pc path :: ms).flatMap escribir =
      bytesEntero opReanudarQuery ++ (bytesEntero (BitVec.ofNat _ (path.bytes.length + 21)) ++
        (bytesEntero 4 ++ (bytesEntero qid ++ (bytesEntero 4 ++ (bytesEntero pc ++
          (bytesEntero (BitVec.ofNat _ (path.bytes.length + 1)) ++ (path.bytes ++ ([0] ++
            ms.flatMap escribir)))))))) := by
    rw [List.flatMap_cons, escribir, planificadorFifo, if_neg hpc, enviarPaquete_eq _ (by omega),
      cuerpoPaquete, hlargo]
    simp [bytesCampo]
  obtain ⟨path₁, p₁, hturn⟩ := atenderReanudar_enteros fines p
    (bytesEntero qid ++ (bytesEntero 4 ++ (bytesEntero pc ++
      (bytesEntero (BitVec.ofNat _ (path.bytes.length + 1)) ++ (path.bytes ++ ([0] ++
        ms.flatMap escribir)))))) (BitVec.ofNat _ (path.bytes.length + 21)) 4
  obtain ⟨hev, htail⟩ := h.head (consumes_turnoWorker fines pathQueries) hbytes
    ((turnoWorker_reanudar fines pathQueries p _).trans hturn)
  rw [esperado, if_neg hpc] at hev
  -- the head can only agree for the Query whose number is the size of its packet
  obtain ⟨hqid, hpc', -⟩ := EventoWorker.reanudar.inj hev
  obtain rfl := BitVec.eq_of_toInt_eq hqid
  obtain rfl := BitVec.eq_of_toInt_eq hpc'
  obtain ⟨e, he, hajeno⟩ := exists_ajeno fines pathQueries p₁
    (n := path.bytes.length + 21) (by omega) (by omega)
    (path.bytes ++ ([0] ++ ms.flatMap escribir))
  rw [show path.bytes.length + 21 - 20 = path.bytes.length + 1 by omega, htail] at he
  obtain ⟨m, _, rfl⟩ := List.mem_map.mp he
  exact not_ajeno_esperado pathQueries m hajeno

/-- The number of the Query to evict is taken from the size of the packet. -/
theorem not_agrees_verificarDesalojo (qid : Entero) (ms : List MensajeMaster) :
    ¬ Agrees (turnoWorker fines pathQueries) escribir (esperado pathQueries) .cierre p
      (.verificarDesalojo qid :: ms) := by
  intro h
  have hc := consumes_turnoWorker fines pathQueries
  have hlargo : largoCampos [bytesEntero qid] = 8 := by simp [largoCampos]
  have hbytes : (MensajeMaster.verificarDesalojo qid :: ms).flatMap escribir =
      bytesEntero opDesalojarQuery ++ (bytesEntero 8 ++ (bytesEntero 4 ++ (bytesEntero qid ++
        ms.flatMap escribir))) := by
    rw [List.flatMap_cons, escribir, verificarDesalojo, enviarPaquete_eq _ (by omega),
      cuerpoPaquete, hlargo]
    simp [bytesCampo]
  obtain ⟨-, htail⟩ := h.head hc hbytes (turnoWorker_desalojar fines pathQueries p _ 8)
  have hturn := turnoWorker_inesperado fines pathQueries p (bytesEntero qid ++ ms.flatMap escribir)
    4 (by decide)
  have he := mem_listen_head hc hturn
  rw [htail] at he
  obtain ⟨m, _, hm⟩ := List.mem_map.mp he
  exact not_ajeno_esperado pathQueries m (hm ▸ trivial)

/-- Behind the bare opcode the Worker waits for a number: it takes the first
four bytes of the next message, or the stream ends under it. -/
theorem not_agrees_solicitarDesalojo (ms : List MensajeMaster) :
    ¬ Agrees (turnoWorker fines pathQueries) escribir (esperado pathQueries) .cierre p
      (.solicitarDesalojo :: ms) := by
  intro h
  have hc := consumes_turnoWorker fines pathQueries
  have hbytes : (MensajeMaster.solicitarDesalojo :: ms).flatMap escribir =
      bytesEntero opDesalojarQuery ++ ms.flatMap escribir := rfl
  obtain ⟨e, b', hturn, he⟩ : ∃ e b', turnoWorker fines pathQueries p
      (bytesEntero opDesalojarQuery ++ ms.flatMap escribir) = .ok (e, p, b') ∧
        e ≠ .desalojo none := by
    unfold turnoWorker
    rw [recibirOperacion_append]
    simp only [opDesalojarQuery, opEnviarPath, opQueryDesconectada]
    rcases recibirEntero (ms.flatMap escribir) with ⟨_ | id, b'⟩
    · exact ⟨.incompleto 301, b', rfl, by simp⟩
    · exact ⟨.desalojo (some id.toInt), b', rfl, by simp⟩
  exact he (h.head hc hbytes hturn).1

/-- Master and Worker agree on a sequence of messages just when all of them
hand over new Queries. -/
theorem agrees_master_worker_iff (fines : ℕ → ℕ) (pathQueries : Bytes) (p : Paths)
    (ms : List MensajeMaster) :
    Agrees (turnoWorker fines pathQueries) escribir (esperado pathQueries) .cierre p ms ↔
      ∀ m ∈ ms, EsQueryNueva m := by
  have heach : EachMessage (fun (_ : Paths) m => EsQueryNueva m) (siguiente fines pathQueries) p
      ms ↔ ∀ m ∈ ms, EsQueryNueva m := by
    induction ms generalizing p with
    | nil => simp [EachMessage]
    | cons m ms ih => simp [EachMessage, ih]
  rw [← heach]
  refine agrees_iff (consumes_turnoWorker fines pathQueries) ?_ ?_ ?_ p ms
  · intro p
    rfl
  · exact fun p m rest hm => turnoWorker_queryNueva hm rest
  · intro p m ms hm
    cases m with
    | planificar qid pc path =>
      have hpc : pc ≠ 0 := fun hzero => hm ⟨qid, path, by rw [hzero]⟩
      exact not_agrees_reanudar hpc path ms
    | verificarDesalojo qid => exact not_agrees_verificarDesalojo qid ms
    | solicitarDesalojo => exact not_agrees_solicitarDesalojo ms

/-- An eviction asked for in a packet is read as one of Query 8, and two opcodes
nobody sent. -/
theorem not_agrees_desalojo : ¬ ∀ fines pathQueries p ms,
    Agrees (turnoWorker fines pathQueries) escribir (esperado pathQueries) .cierre p ms := by
  intro h
  have hev := congrArg Prod.fst (h (fun _ => 0) [47] ⟨[], 0⟩ [.verificarDesalojo 3])
  exact absurd hev (by decide)

end Acuerdo

end MasterOfFiles.MasterMessages
