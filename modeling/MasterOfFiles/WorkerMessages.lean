import MasterOfFiles.Packets

/-!
What a Worker writes on the Master's socket after its handshake and what the
loop of atender_cliente makes of it. The Worker writes packets only. The Master
reads a packet behind two of the opcodes, two bare ints behind the eviction of a
Query, and has no case for a failed READ. Which Query it holds for the Worker
when a message arrives is up to its other threads.
-/
namespace MasterOfFiles.WorkerMessages

open ByteBuffers ByteStreams Packets

section Worker

abbrev SizeT := BitVec (8 * 8)

/-- What a READ has to report, in a packet of int size. -/
structure Lectura where
  filetag : Bytes
  contenido : Bytes
  sin_nul : 0 ∉ filetag
  cabe : filetag.length + contenido.length + 17 < 2 ^ 31 - 8

inductive MensajeWorker
  | queryDesalojada (qid : Entero) (pc : SizeT)
  | respReadOk (lectura : Lectura)
  | respReadErr
  | finQuery (qid : Entero)

/-- ciclo_instruccion, when it stops on an eviction. -/
def avisarDesalojo (qid : Entero) (pc : SizeT) : Bytes :=
  enviarPaquete opQueryDesalojada [bytesEntero qid, wordBytes 8 pc]

/-- An empty READ sends no third field. -/
def camposLectura (l : Lectura) : List Bytes :=
  [l.filetag ++ [0], bytesEntero (BitVec.ofNat _ l.contenido.length)] ++
    if 0 < l.contenido.length then [l.contenido] else []

def ejecutarRead (l : Lectura) : Bytes := enviarPaquete opRespReadOk (camposLectura l)

def ejecutarReadFallido : Bytes := enviarPaquete opRespReadErr []

def ejecutarEnd (qid : Entero) : Bytes := enviarPaquete opFinQuery [bytesEntero qid]

def escribir : MensajeWorker → Bytes
  | .queryDesalojada qid pc => avisarDesalojo qid pc
  | .respReadOk l => ejecutarRead l
  | .respReadErr => ejecutarReadFallido
  | .finQuery qid => ejecutarEnd qid

end Worker

section Master

inductive EventoMaster
  | queryDesalojada (qid pc : Option ℤ)
  | lectura (filetag : Bytes) (tamanio : ℤ) (buffer : Bytes)
  | lecturaFallida
  | finQuery (qid : ℤ)
  /-- A packet consumed because no Query is assigned to the Worker. -/
  | sinQuery (op : ℤ)
  | malFormado (op : ℤ)
  | desconocida (op : ℤ)
  deriving DecidableEq

/-- The disconnection branch, with the stream the opcode was read from, or
values that were never read. -/
inductive FinMaster
  | desconexion (resto : Bytes)
  | indefinido
  deriving DecidableEq

variable (asignada : ℕ → Option Entero)

def atenderDesalojada (i : ℕ) (b : Bytes) : Except FinMaster (EventoMaster × ℕ × Bytes) :=
  let (qid, b') := recibirEntero b
  let (pc, b'') := recibirEntero b'
  .ok (.queryDesalojada (qid.map BitVec.toInt) (pc.map BitVec.toInt), i + 1, b'')

/-- Both packets are consumed whether or not a Query is assigned to the Worker. -/
def atenderPaquete (op : Entero) (leer : List Bytes → Except FinMaster EventoMaster) (i : ℕ)
    (b : Bytes) : Except FinMaster (EventoMaster × ℕ × Bytes) :=
  match recibirPaquete b with
  | none => .error .indefinido
  | some (campos, b') =>
    if (asignada i).isNone then .ok (.sinQuery op.toInt, i + 1, b')
    else match leer campos with
    | .error fin => .error fin
    | .ok e => .ok (e, i + 1, b')

/-- The fields of OP_RESP_READ_OK, of which there must be three. -/
def leerReadOk : List Bytes → Except FinMaster EventoMaster
  | filetag :: tamanio :: buffer :: _ =>
    if 0 ∈ filetag ∧ 4 ≤ tamanio.length then
      .ok (.lectura (cString filetag) (enteroDe (tamanio.take 4)).toInt buffer)
    else .error .indefinido
  | _ => .ok (.malFormado opRespReadOk.toInt)

def leerFinQuery : List Bytes → Except FinMaster EventoMaster
  | qid :: _ =>
    if 4 ≤ qid.length then .ok (.finQuery (enteroDe (qid.take 4)).toInt) else .error .indefinido
  | [] => .ok (.malFormado opFinQuery.toInt)

/-- A turn of the loop on the message number `i`; `asignada i` is the Query the
Master then holds for the Worker. -/
def turnoMaster (i : ℕ) (b : Bytes) : Except FinMaster (EventoMaster × ℕ × Bytes) :=
  match recibirOperacion b with
  | none => .error .indefinido
  | some (op, b') =>
    if op.toInt ≤ 0 then .error (.desconexion b)
    else if op = opQueryDesalojada then atenderDesalojada i b'
    else if op = opRespReadOk then atenderPaquete asignada op leerReadOk i b'
    else if op = opFinQuery then atenderPaquete asignada op leerFinQuery i b'
    else .ok (.desconocida op.toInt, i + 1, b')

end Master

section Consumo

variable {asignada : ℕ → Option Entero} {i i' : ℕ} {b b' : Bytes} {e : EventoMaster}

theorem length_atenderDesalojada_le (h : atenderDesalojada i b = .ok (e, i', b')) :
    b'.length ≤ b.length := by
  have h₁ : (recibirEntero b).2.length ≤ b.length := length_recibirEntero_le rfl
  have h₂ : (recibirEntero (recibirEntero b).2).2.length ≤ (recibirEntero b).2.length :=
    length_recibirEntero_le rfl
  obtain ⟨-, -, rfl⟩ : _ ∧ _ ∧ _ = b' := by simpa [atenderDesalojada] using h
  omega

theorem length_atenderPaquete_le {op : Entero} {leer : List Bytes → Except FinMaster EventoMaster}
    (h : atenderPaquete asignada op leer i b = .ok (e, i', b')) : b'.length ≤ b.length := by
  unfold atenderPaquete at h
  split at h
  · simp at h
  · next campos b₁ hpaquete =>
    have hle := length_recibirPaquete_le hpaquete
    split_ifs at h
    · obtain ⟨-, -, rfl⟩ : _ ∧ _ ∧ _ = b' := by simpa using h
      exact hle
    · split at h
      · simp at h
      · obtain ⟨-, -, rfl⟩ : _ ∧ _ ∧ _ = b' := by simpa using h
        exact hle

theorem consumes_turnoMaster (asignada : ℕ → Option Entero) : Consumes (turnoMaster asignada) := by
  intro i b e i' b' h
  unfold turnoMaster at h
  cases hop : recibirOperacion b with
  | none => simp [hop] at h
  | some q =>
    obtain ⟨op, b₁⟩ := q
    simp only [hop] at h
    split_ifs at h with hfin
    all_goals
      have hlen : b₁.length + 4 = b.length := by
        rcases length_recibirOperacion hop with ⟨-, rfl⟩ | hlen
        · exact absurd hfin (by decide)
        · exact hlen
    · have hle := length_atenderDesalojada_le h
      omega
    · have hle := length_atenderPaquete_le h
      omega
    · have hle := length_atenderPaquete_le h
      omega
    · obtain ⟨-, -, rfl⟩ : _ ∧ _ ∧ _ = b' := by simpa using h
      omega

end Consumo

section Acuerdo

/-- What the Master should make of a message. -/
def esperado : MensajeWorker → EventoMaster
  | .queryDesalojada qid pc => .queryDesalojada (some qid.toInt) (some pc.toNat)
  | .respReadOk l => .lectura l.filetag l.contenido.length l.contenido
  | .respReadErr => .lecturaFallida
  | .finQuery qid => .finQuery qid.toInt

/-- The messages the loop understands: a READ of at least a byte and the end of
a Query, while a Query is assigned. -/
def Entendido (asignada : Option Entero) : MensajeWorker → Prop
  | .respReadOk l => asignada.isSome ∧ 0 < l.contenido.length
  | .finQuery _ => asignada.isSome
  | _ => False

variable {asignada : ℕ → Option Entero} {i : ℕ}

theorem largoCampos_lectura (l : Lectura) : largoCampos (camposLectura l) < 2 ^ 31 := by
  have hcabe := l.cabe
  unfold camposLectura
  split_ifs
  · simp [largoCampos]
    omega
  · simp [largoCampos]
    omega

/-- A packet that is read as one is taken whole off the stream. -/
theorem turnoMaster_paquete (asignada : ℕ → Option Entero) (i : ℕ) {op : Entero}
    {campos : List Bytes} (hcampos : largoCampos campos < 2 ^ 31)
    {leer : List Bytes → Except FinMaster EventoMaster}
    (hop : op = opRespReadOk ∧ leer = leerReadOk ∨ op = opFinQuery ∧ leer = leerFinQuery)
    {e : EventoMaster} (hleer : leer campos = .ok e) (rest : Bytes) :
    turnoMaster asignada i (enviarPaquete op campos ++ rest) =
      .ok (if (asignada i).isNone then .sinQuery op.toInt else e, i + 1, rest) := by
  have hatender : turnoMaster asignada i (enviarPaquete op campos ++ rest) =
      atenderPaquete asignada op leer i (cuerpoPaquete campos ++ rest) := by
    unfold turnoMaster
    rw [recibirOperacion_enviarPaquete op hcampos]
    rcases hop with ⟨rfl, rfl⟩ | ⟨rfl, rfl⟩
    · simp [opRespReadOk, opQueryDesalojada]
    · simp [opFinQuery, opRespReadOk, opQueryDesalojada]
  rw [hatender, atenderPaquete, reads_recibirPaquete hcampos]
  simp only [hleer]
  split_ifs <;> rfl

theorem turnoMaster_entendido {m : MensajeWorker} (h : Entendido (asignada i) m) (rest : Bytes) :
    turnoMaster asignada i (escribir m ++ rest) = .ok (esperado m, i + 1, rest) := by
  cases m with
  | respReadOk l =>
    obtain ⟨hasignada, hpos⟩ := h
    have hcabe := l.cabe
    have hleer : leerReadOk (camposLectura l) =
        .ok (.lectura l.filetag l.contenido.length l.contenido) := by
      unfold camposLectura
      rw [if_pos hpos]
      simp only [List.cons_append, List.nil_append, leerReadOk, length_bytesEntero,
        take_bytesEntero, enteroDe_bytesEntero, cString_append_nul l.sin_nul]
      rw [toInt_ofNat_of_lt (by omega), if_pos (by simp)]
    have hturno := turnoMaster_paquete asignada i (largoCampos_lectura l)
      (Or.inl ⟨rfl, rfl⟩) hleer rest
    rw [if_neg (by simp [Option.isSome_iff_ne_none.mp hasignada])] at hturno
    exact hturno
  | finQuery qid =>
    have hasignada : (asignada i).isSome := h
    have hleer : leerFinQuery [bytesEntero qid] = .ok (.finQuery qid.toInt) := by
      simp [leerFinQuery]
    have hturno := turnoMaster_paquete asignada i
      (by simp [largoCampos]) (Or.inr ⟨rfl, rfl⟩) hleer rest
    rw [if_neg (by simp [Option.isSome_iff_ne_none.mp hasignada])] at hturno
    exact hturno
  | queryDesalojada qid pc => exact absurd h id
  | respReadErr => exact absurd h id

theorem esperado_ne_desconocida (m : MensajeWorker) (op : ℤ) : esperado m ≠ .desconocida op := by
  cases m <;> simp [esperado]

/-- The size of the packet is read as the Query's number and the size of its
first field as the PC; the number itself is then an opcode nobody sent. -/
theorem not_agrees_queryDesalojada (qid : Entero) (pc : SizeT) (ms : List MensajeWorker) :
    ¬ Agrees (turnoMaster asignada) escribir esperado (.desconexion []) i
      (.queryDesalojada qid pc :: ms) := by
  intro h
  have hc := consumes_turnoMaster asignada
  have hlargo : largoCampos [bytesEntero qid, wordBytes 8 pc] = 20 := by simp [largoCampos]
  obtain ⟨resto, hbytes⟩ : ∃ resto, (MensajeWorker.queryDesalojada qid pc :: ms).flatMap escribir =
      bytesEntero opQueryDesalojada ++ (bytesEntero 20 ++ (bytesEntero 4 ++ (bytesEntero qid ++
        resto))) := by
    refine ⟨bytesEntero 8 ++ (wordBytes 8 pc ++ ms.flatMap escribir), ?_⟩
    rw [List.flatMap_cons, escribir, avisarDesalojo, enviarPaquete_eq _ (by omega),
      cuerpoPaquete, hlargo]
    simp [bytesCampo]
  have hturno : turnoMaster asignada i (bytesEntero opQueryDesalojada ++ (bytesEntero 20 ++
      (bytesEntero 4 ++ (bytesEntero qid ++ resto)))) =
        .ok (.queryDesalojada (some 20) (some 4), i + 1, bytesEntero qid ++ resto) := by
    unfold turnoMaster
    rw [recibirOperacion_append]
    simp only [atenderDesalojada, recibirEntero_append]
    rfl
  obtain ⟨hev, htail⟩ := h.head hc hbytes hturno
  have hqid : qid = 20 := by
    have h20 := Option.some.inj (EventoMaster.queryDesalojada.inj hev).1
    exact BitVec.eq_of_toInt_eq (h20.symm.trans (by decide))
  subst hqid
  have hturno' : turnoMaster asignada (i + 1) (bytesEntero 20 ++ resto) =
      .ok (.desconocida 20, i + 1 + 1, resto) := by
    unfold turnoMaster
    rw [recibirOperacion_append]
    rfl
  have he := mem_listen_head hc hturno'
  rw [htail] at he
  obtain ⟨m, _, hm⟩ := List.mem_map.mp he
  exact esperado_ne_desconocida m 20 hm

/-- A first turn that makes something else of the message refutes agreement. -/
theorem not_agrees_of_turno {m : MensajeWorker} {ms : List MensajeWorker} {e : EventoMaster}
    (hturno : ∀ rest, ∃ b', turnoMaster asignada i (escribir m ++ rest) =
      .ok (e, i + 1, b')) (he : e ≠ esperado m) :
    ¬ Agrees (turnoMaster asignada) escribir esperado (.desconexion []) i (m :: ms) := by
  intro h
  obtain ⟨b', hturno⟩ := hturno (ms.flatMap escribir)
  exact he (h.head (consumes_turnoMaster asignada) rfl hturno).1

theorem not_agrees_of_not_entendido {m : MensajeWorker} (hm : ¬ Entendido (asignada i) m)
    (ms : List MensajeWorker) :
    ¬ Agrees (turnoMaster asignada) escribir esperado (.desconexion []) i (m :: ms) := by
  cases m with
  | queryDesalojada qid pc => exact not_agrees_queryDesalojada qid pc ms
  | respReadErr =>
    refine not_agrees_of_turno (e := .desconocida 1021) (fun rest => ?_) (by simp [esperado])
    refine ⟨cuerpoPaquete [] ++ rest, ?_⟩
    unfold turnoMaster escribir ejecutarReadFallido
    rw [recibirOperacion_enviarPaquete opRespReadErr (by simp [largoCampos])]
    rfl
  | respReadOk l =>
    by_cases hpos : 0 < l.contenido.length
    · have hnone : (asignada i).isNone := by
        by_contra hsome
        exact hm ⟨Option.isSome_iff_ne_none.mpr (by simpa using hsome), hpos⟩
      obtain ⟨e, hleer⟩ : ∃ e, leerReadOk (camposLectura l) = .ok e := by
        unfold camposLectura
        rw [if_pos hpos]
        exact ⟨_, if_pos (by simp)⟩
      refine not_agrees_of_turno (e := .sinQuery opRespReadOk.toInt) (fun rest => ⟨rest, ?_⟩)
        (by simp [esperado])
      have hturno := turnoMaster_paquete asignada i (largoCampos_lectura l)
        (Or.inl ⟨rfl, rfl⟩) hleer rest
      rwa [if_pos hnone] at hturno
    · have hleer : leerReadOk (camposLectura l) = .ok (.malFormado opRespReadOk.toInt) := by
        unfold camposLectura
        rw [if_neg hpos]
        rfl
      have hturno := turnoMaster_paquete asignada i (largoCampos_lectura l)
        (Or.inl ⟨rfl, rfl⟩) hleer
      refine not_agrees_of_turno (fun rest => ⟨rest, hturno rest⟩) ?_
      split_ifs <;> simp [esperado]
  | finQuery qid =>
    have hnone : (asignada i).isNone := by simpa [Entendido] using hm
    refine not_agrees_of_turno (e := .sinQuery opFinQuery.toInt) (fun rest => ⟨rest, ?_⟩)
      (by simp [esperado])
    have hlargo : largoCampos [bytesEntero qid] < 2 ^ 31 := by simp [largoCampos]
    have hturno := turnoMaster_paquete asignada i hlargo (Or.inr ⟨rfl, rfl⟩)
      (e := .finQuery qid.toInt) (by simp [leerFinQuery]) rest
    rwa [if_pos hnone] at hturno

/-- Worker and Master agree on a sequence of messages, one message a turn, just
when each reports a READ of at least a byte or the end of a Query while the
Master holds a Query for the Worker. -/
theorem agrees_worker_master_iff (asignada : ℕ → Option Entero) (ms : List MensajeWorker) :
    Agrees (turnoMaster asignada) escribir esperado (.desconexion []) 0 ms ∧
        TakesWhole (turnoMaster asignada) escribir esperado 0 ms ↔
      ∀ i m, ms[i]? = some m → Entendido (asignada i) m := by
  have hgood : ∀ i m rest, Entendido (asignada i) m →
      turnoMaster asignada i (escribir m ++ rest) = .ok (esperado m, i + 1, rest) :=
    fun _ _ rest hm => turnoMaster_entendido hm rest
  have heach : ∀ n, EachMessage (fun i m => Entendido (asignada i) m) (fun i _ => i + 1) n ms ↔
      ∀ i m, ms[i]? = some m → Entendido (asignada (n + i)) m := by
    induction ms with
    | nil => simp [EachMessage]
    | cons m ms ih =>
      intro n
      simp only [EachMessage, ih]
      constructor
      · rintro ⟨hm, hms⟩ i m' hi
        cases i with
        | zero =>
          obtain rfl := Option.some.inj hi
          exact hm
        | succ i => simpa [Nat.add_assoc, Nat.add_comm 1] using hms i m' hi
      · intro h
        refine ⟨h 0 m rfl, fun i m' hi => ?_⟩
        simpa [Nat.add_assoc, Nat.add_comm 1] using h (i + 1) m' hi
  have hiff := agrees_iff (consumes_turnoMaster asignada) (fun _ => rfl) hgood
    (fun _ _ ms hm => not_agrees_of_not_entendido hm ms) 0 ms
  have heach0 := heach 0
  simp only [Nat.zero_add] at heach0
  rw [← heach0]
  constructor
  · rintro ⟨hagrees, _⟩
    exact hiff.mp hagrees
  · intro h
    exact ⟨hiff.mpr h, takesWhole_of_eachMessage hgood h⟩

/-- The failure of a READ is taken for a disconnection: the opcode has no case,
and the size of the empty packet is the next opcode. -/
theorem not_agrees_readFallido : ¬ ∀ asignada ms,
    Agrees (turnoMaster asignada) escribir esperado (.desconexion []) 0 ms := by
  intro h
  have hev := congrArg Prod.fst (h (fun _ => some 1) [.respReadErr, .finQuery 1])
  exact absurd hev (by decide)

end Acuerdo

end MasterOfFiles.WorkerMessages
