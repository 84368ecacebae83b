import MasterOfFiles.RunTraces
import MasterOfFiles.StorageMessages
import MasterOfFiles.WriteReadback

/-!
A Worker and the Storage stay in step. Behind every request that is sent there is one
turn of the Storage's loop, which takes that request off the stream and nothing else and
sends one answer, and the Worker takes that answer off its own stream and nothing else.
The answer to a READ_BLOCK has the length the Worker waits for because the file of every
linked block has BLOCK_SIZE bytes.
-/
namespace MasterOfFiles.StorageLockstep

open ByteBuffers ByteStreams Packets PartialRuns RunTraces StorageState StorageFiles
open StorageOperations ReachableStates BlockZero WriteReadback StorageMessages

section Propiedad

variable (md5 : Bytes → String) (sb : Superbloque)

/-- PAGE_SIZE, as the handshake has answered it. -/
def pageSize : ℕ := (blockSizeEnviado sb).toInt.toNat

def Enviada : Peticion → Prop
  | .pedirTamBloque _ => True
  | .orden o => Emitida o

instance : (p : Peticion) → Decidable (Enviada p)
  | .pedirTamBloque _ => isTrue trivial
  | .orden o => inferInstanceAs (Decidable (Emitida o))

/-- The effect of a request on the Storage alone. -/
def pasoPeticion (s : Storage) (p : Peticion) : Except Fallo Storage :=
  (atenderPeticion md5 sb s p).map Prod.fst

/-- A block that is answered is the file of the block asked for, all of it. -/
def LeeBloque (s : Storage) (p : Peticion) : Prop :=
  ∀ s' c, atenderPeticion md5 sb s p = .ok (s', .respuesta (.bloque c)) →
    ∃ qid file tag nroPag, p = .orden (.readBlock qid file tag nroPag) ∧
      contenidoDe s (texto file) (texto tag) nroPag.toInt.toNat = some c ∧
      c.length = sb.blockSize

/-- The Storage, the bytes it has still to read and those the Worker has. -/
structure Conexion where
  storage : Storage
  aStorage : Bytes
  aWorker : Bytes

/-- The Worker sends a request, the loop of the Storage takes a turn, and the Worker reads
what it takes for the answer. -/
def intercambio (c : Conexion) (p : Peticion) :
    Except FinStorage (Conexion × Option Peticion × Contestacion) :=
  match turnoStorage md5 sb c.storage (c.aStorage ++ escribir p) with
  | .error fin => .error fin
  | .ok ((recibida, enviado), s', resto) =>
    match leerRespuesta (pageSize sb) p (c.aWorker ++ enviado) with
    | none => .error .indefinido
    | some (r, resto') => .ok (⟨s', resto, resto'⟩, recibida, r)

/-- The operations that `ps` ask for lead from `s` to `s'` with the results `rs`. The
stream of the requests is read as they were sent and answered with one result each, the
answers are read for the requests they are for, and so it is request by request, with
nothing left behind. -/
structure Acompasados (s s' : Storage) (ps : List Peticion) (rs : List Contestacion) : Prop where
  recibidas : listen (turnoStorage md5 sb) s (ps.flatMap escribir) =
    (List.zipWith (fun p r => (some p, enviar r)) ps rs, some .cierre)
  una_cada_una : rs.length = ps.length
  leidas : leerRespuestas (pageSize sb) ps (rs.flatMap enviar) = some (rs, [])
  conversadas : collect (intercambio md5 sb) ⟨s, [], []⟩ ps =
    .ok (⟨s', [], []⟩, List.zipWith (fun p r => (some p, r)) ps rs)
  bloques : EachStep (pasoPeticion md5 sb) (LeeBloque md5 sb) s ps

end Propiedad

section Campos

theorem campoEntero_bytesEntero (x : Entero) : campoEntero (bytesEntero x) = some x := by
  rw [campoEntero, if_pos (Nat.le_of_eq (length_bytesEntero x).symm), take_bytesEntero,
    enteroDe_bytesEntero]

theorem campoSizeT_wordBytes (x : SizeT) : campoSizeT (wordBytes 8 x) = some x := by
  have hlen := length_wordBytes 8 x
  rw [campoSizeT, if_pos (Nat.le_of_eq hlen.symm), List.take_of_length_le (Nat.le_of_eq hlen),
    wordOf_wordBytes]

theorem campoTexto_nul {b : Bytes} (h : 0 ∉ b) : campoTexto (b ++ [0]) = some b := by
  rw [campoTexto, if_pos (List.mem_append_right _ (List.mem_singleton_self 0)),
    cString_append_nul h]

theorem toNat_ofNat_length {contenido : Bytes} (h : contenido.length < 2 ^ 31) :
    (BitVec.ofNat (8 * 8) contenido.length).toNat = contenido.length := by
  rw [BitVec.toNat_ofNat, Nat.mod_eq_of_lt (by omega)]

/-- What is written fits with the rest of its packet. -/
theorem length_contenido_lt {qid nroPag : Entero} {file tag contenido : Bytes}
    (h : Emitida (.writeBlock qid file tag nroPag contenido)) : contenido.length < 2 ^ 31 := by
  have hcabe := h.cabe
  simp only [mensaje, escribirPaginaStorage, largoCampos, List.map_cons, List.map_nil,
    List.sum_cons, List.sum_nil] at hcabe
  omega

theorem nul_notMem_unir {file tag : Bytes} (hf : 0 ∉ file) (ht : 0 ∉ tag) :
    0 ∉ file ++ 58 :: tag := by
  intro hmem
  rcases List.mem_append.mp hmem with hfile | hmem
  · exact hf hfile
  · rcases List.mem_cons.mp hmem with hcero | htag
    · exact absurd hcero (by decide)
    · exact ht htag

/-- Every request that is sent is found again in its packet. -/
theorem lectorDe_mensaje {o : Orden} (h : Emitida o) :
    ∃ leer, lectorDe (mensaje o).1 = some leer ∧ leer (mensaje o).2 = .orden o := by
  have hnul := h.sin_nul
  cases o with
  | create qid arg1 =>
    refine ⟨leerCreate, rfl, ?_⟩
    have harg1 := campoTexto_nul (hnul arg1 (by simp [textos]))
    simp only [mensaje, ejecutarCreate, leerCreate, campoEntero_bytesEntero, harg1]
  | truncate qid arg1 tamanio =>
    refine ⟨leerTruncate, rfl, ?_⟩
    have harg1 := campoTexto_nul (hnul arg1 (by simp [textos]))
    simp only [mensaje, ejecutarTruncate, leerTruncate, campoEntero_bytesEntero, harg1]
  | tag qid arg1 arg2 =>
    refine ⟨leerTag, rfl, ?_⟩
    have harg1 := campoTexto_nul (hnul arg1 (by simp [textos]))
    have harg2 := campoTexto_nul (hnul arg2 (by simp [textos]))
    simp only [mensaje, ejecutarTag, leerTag, campoEntero_bytesEntero, harg1, harg2]
  | delete qid file tag =>
    refine ⟨leerDelete, rfl, ?_⟩
    have hfile := campoTexto_nul (hnul file (by simp [textos]))
    have htag := campoTexto_nul (hnul tag (by simp [textos]))
    simp only [mensaje, ejecutarDelete, leerDelete, campoEntero_bytesEntero, hfile, htag]
  | commit qid arg1 =>
    refine ⟨leerCommit, rfl, ?_⟩
    have harg1 := campoTexto_nul (hnul arg1 (by simp [textos]))
    simp only [mensaje, ejecutarCommit, leerCommit, campoEntero_bytesEntero, harg1]
  | flush qid file tag =>
    refine ⟨leerFlush, rfl, ?_⟩
    have hfile := campoTexto_nul (hnul file (by simp [textos]))
    have htag := campoTexto_nul (hnul tag (by simp [textos]))
    simp only [mensaje, ejecutarFlush, leerFlush, campoEntero_bytesEntero, hfile, htag]
  | readBlock qid file tag nroPag =>
    refine ⟨leerReadBlock, rfl, ?_⟩
    have hnombre := nul_notMem_unir (hnul file (by simp [textos])) (hnul tag (by simp [textos]))
    have hsplit := TagDirectories.splitFileTag_unir ⟨file, tag, h.separada⟩
    simp only [mensaje, lecturaPaginaStorage, leerReadBlock, campoEntero_bytesEntero,
      campoTexto_nul hnombre, hsplit]
  | writeBlock qid file tag nroPag contenido =>
    refine ⟨leerWriteBlock, rfl, ?_⟩
    have hfile := campoTexto_nul (hnul file (by simp [textos]))
    have htag := campoTexto_nul (hnul tag (by simp [textos]))
    have hlen := toNat_ofNat_length (length_contenido_lt h)
    simp only [mensaje, escribirPaginaStorage, leerWriteBlock, campoEntero_bytesEntero, hfile,
      htag, campoSizeT_wordBytes, hlen, Nat.le_refl, if_true, List.take_length]

/-- No opcode of a packet ends the loop or is that of the handshake. -/
theorem opcode_mensaje (o : Orden) :
    ¬ (mensaje o).1.toInt ≤ 0 ∧ (mensaje o).1 ≠ opPedirTamBloque := by
  cases o with
  | create => exact (by decide : ¬ opCreate.toInt ≤ 0 ∧ opCreate ≠ opPedirTamBloque)
  | truncate => exact (by decide : ¬ opTruncate.toInt ≤ 0 ∧ opTruncate ≠ opPedirTamBloque)
  | tag => exact (by decide : ¬ opTag.toInt ≤ 0 ∧ opTag ≠ opPedirTamBloque)
  | delete => exact (by decide : ¬ opDelete.toInt ≤ 0 ∧ opDelete ≠ opPedirTamBloque)
  | commit => exact (by decide : ¬ opCommit.toInt ≤ 0 ∧ opCommit ≠ opPedirTamBloque)
  | flush => exact (by decide : ¬ opFlush.toInt ≤ 0 ∧ opFlush ≠ opPedirTamBloque)
  | readBlock =>
    exact (by decide : ¬ opStReadBlock.toInt ≤ 0 ∧ opStReadBlock ≠ opPedirTamBloque)
  | writeBlock =>
    exact (by decide : ¬ opStWriteBlock.toInt ≤ 0 ∧ opStWriteBlock ≠ opPedirTamBloque)

end Campos

section Turnos

variable {md5 : Bytes → String} {sb : Superbloque} {s s' : Storage} {p : Peticion}
  {r : Contestacion}

theorem recibirPaquete_cuerpo {o : Orden} (h : Emitida o) (rest : Bytes) :
    recibirPaquete (cuerpoPaquete (mensaje o).2 ++ rest) = some ((mensaje o).2, rest) := by
  have hcabe := h.cabe
  exact reads_recibirPaquete (by omega) rest

/-- One turn takes one request off the stream and sends what its operation answers. -/
theorem turnoStorage_escribir (hp : Enviada p)
    (hr : atenderPeticion md5 sb s p = .ok (s', r)) (rest : Bytes) :
    turnoStorage md5 sb s (escribir p ++ rest) = .ok ((some p, enviar r), s', rest) := by
  have hresponder : responder md5 sb s p rest = .ok ((some p, enviar r), s', rest) := by
    rw [responder, hr]
  cases p with
  | pedirTamBloque idWorker =>
    have hpos : ¬ opPedirTamBloque.toInt ≤ 0 := by decide
    rw [turnoStorage, escribir, solicitudBlockSize, List.append_assoc, recibirOperacion_append]
    simp only [hpos, if_false, if_true, recibirEntero_append]
    exact hresponder
  | orden o =>
    obtain ⟨hpos, hno⟩ := opcode_mensaje o
    obtain ⟨leer, hlector, hleer⟩ := lectorDe_mensaje hp
    have hcabe := Emitida.cabe hp
    rw [turnoStorage, escribir, recibirOperacion_enviarPaquete _ (by omega)]
    simp only [hpos, hno, if_false, hlector, recibirPaquete_cuerpo hp, hleer]
    exact hresponder

/-- The operation reads nothing more off the stream. -/
theorem buffer_responder {e : Atendida} {b b' : Bytes}
    (h : responder md5 sb s p b = .ok (e, s', b')) : b' = b := by
  unfold responder at h
  cases hp : atenderPeticion md5 sb s p with
  | error f => simp [hp] at h
  | ok q =>
    simp only [hp, Except.ok.injEq, Prod.mk.injEq] at h
    exact h.2.2.symm

theorem consumes_turnoStorage (md5 : Bytes → String) (sb : Superbloque) :
    Consumes (turnoStorage md5 sb) := by
  intro s b e s' b' h
  unfold turnoStorage at h
  cases hop : recibirOperacion b with
  | none => simp [hop] at h
  | some q =>
    obtain ⟨op, b₁⟩ := q
    rcases length_recibirOperacion hop with ⟨rfl, rfl⟩ | hlen
    · simp [hop] at h
    · simp only [hop] at h
      split_ifs at h
      · cases hid : recibirEntero b₁ with
        | mk x b₂ =>
          have hle := length_recibirEntero_le hid
          cases x with
          | none => simp [hid] at h
          | some id =>
            simp only [hid] at h
            rw [buffer_responder h]
            omega
      · cases hlector : lectorDe op with
        | none =>
          simp only [hlector, Except.ok.injEq, Prod.mk.injEq] at h
          rw [← h.2.2]
          omega
        | some leer =>
          cases hpaquete : recibirPaquete b₁ with
          | none => simp [hlector, hpaquete] at h
          | some x =>
            obtain ⟨campos, b₂⟩ := x
            have hle := length_recibirPaquete_le hpaquete
            simp only [hlector, hpaquete] at h
            cases hleer : leer campos with
            | orden o =>
              simp only [hleer] at h
              rw [buffer_responder h]
              omega
            | rechazada =>
              simp only [hleer, Except.ok.injEq, Prod.mk.injEq] at h
              rw [← h.2.2]
              omega
            | indefinida => simp [hleer] at h

end Turnos

section Respuestas

variable {md5 : Bytes → String} {sb : Superbloque} {s s' : Storage} {p : Peticion}
  {r : Contestacion}

/-- The answers that a request can have. -/
def Corresponde (sb : Superbloque) : Peticion → Contestacion → Prop
  | .pedirTamBloque _, r => r = .tamBloque (blockSizeEnviado sb)
  | .orden (.readBlock _ _ _ _), r => r = .respuesta .error ∨
      ∃ c, r = .respuesta (.bloque c) ∧ c.length = sb.blockSize
  | .orden _, r => r = .respuesta .ok ∨ r = .respuesta .error

theorem respuestaDe_casos (n : ℤ) : respuestaDe n = .ok ∨ respuestaDe n = .error := by
  unfold respuestaDe
  split_ifs
  · exact Or.inl rfl
  · exact Or.inr rfl

/-- Only READ_BLOCK is answered with bytes. -/
theorem respuesta_casos {x : Solicitud} {r : Respuesta} (hx : ∀ f t n, x ≠ .readBlock f t n)
    (h : atenderWorker md5 sb s x = .ok (s', r)) : r = .ok ∨ r = .error := by
  cases x with
  | create f t =>
    obtain ⟨-, rfl⟩ := Prod.mk.inj (Except.ok.inj h)
    exact respuestaDe_casos _
  | truncate f t tamanio =>
    unfold atenderWorker at h
    cases hop : operacionTruncateFile sb s f t tamanio with
    | error e => simp [hop] at h
    | ok q =>
      simp only [hop] at h
      obtain ⟨-, rfl⟩ := Prod.mk.inj (Except.ok.inj h)
      exact respuestaDe_casos _
  | tag fo tgo f t =>
    obtain ⟨-, rfl⟩ := Prod.mk.inj (Except.ok.inj h)
    exact respuestaDe_casos _
  | commit f t =>
    unfold atenderWorker storageCommit at h
    cases hop : operacionCommitTag md5 s f t with
    | error e => simp [hop] at h
    | ok q =>
      simp only [hop] at h
      obtain ⟨-, rfl⟩ := Prod.mk.inj (Except.ok.inj h)
      split_ifs
      · exact Or.inl rfl
      · exact Or.inr rfl
  | writeBlock f t n contenido =>
    obtain ⟨-, rfl⟩ := Prod.mk.inj (Except.ok.inj h)
    cases buscarTag s f t with
    | none => exact Or.inr rfl
    | some tag =>
      dsimp only
      cases tag.listaBlockLogicos[n]? with
      | none => exact Or.inr rfl
      | some bl =>
        dsimp only
        split_ifs
        · exact Or.inr rfl
        · exact respuestaDe_casos _
  | readBlock f t n => exact absurd rfl (hx f t n)
  | flush f t =>
    obtain ⟨-, rfl⟩ := Prod.mk.inj (Except.ok.inj h)
    unfold storageFlush
    split_ifs
    · exact Or.inr rfl
    · exact Or.inl rfl
  | delete f t =>
    obtain ⟨-, rfl⟩ := Prod.mk.inj (Except.ok.inj h)
    exact Or.inl rfl

theorem solicitudDe_ne_readBlock {o : Orden} {x : Solicitud}
    (ho : ∀ q f t n, o ≠ .readBlock q f t n) (hx : solicitudDe o = some x) :
    ∀ f t n, x ≠ .readBlock f t n := by
  cases o with
  | create qid arg1 =>
    obtain ⟨p, -, rfl⟩ := Option.map_eq_some_iff.mp hx
    exact fun _ _ _ => Solicitud.noConfusion
  | truncate qid arg1 tamanio =>
    obtain ⟨p, -, rfl⟩ := Option.map_eq_some_iff.mp hx
    exact fun _ _ _ => Solicitud.noConfusion
  | tag qid arg1 arg2 =>
    obtain ⟨p, -, hx⟩ := Option.bind_eq_some_iff.mp hx
    obtain ⟨q, -, rfl⟩ := Option.map_eq_some_iff.mp hx
    exact fun _ _ _ => Solicitud.noConfusion
  | delete qid file tag =>
    obtain rfl := Option.some.inj hx
    exact fun _ _ _ => Solicitud.noConfusion
  | commit qid arg1 =>
    obtain ⟨p, -, rfl⟩ := Option.map_eq_some_iff.mp hx
    exact fun _ _ _ => Solicitud.noConfusion
  | flush qid file tag =>
    obtain rfl := Option.some.inj hx
    exact fun _ _ _ => Solicitud.noConfusion
  | readBlock qid file tag nroPag => exact absurd rfl (ho qid file tag nroPag)
  | writeBlock qid file tag nroPag contenido =>
    obtain rfl := Option.some.inj hx
    exact fun _ _ _ => Solicitud.noConfusion

/-- A block that is answered is the whole file of the one asked for. -/
theorem bloque_de_readBlock (h : Coherente sb s) {f t : String} {n : ℤ} {c : Bytes}
    (hr : storageReadBlock sb s f t n = .bloque c) :
    contenidoDe s f t n.toNat = some c ∧ c.length = sb.blockSize := by
  rw [storageReadBlock_eq h] at hr
  split_ifs at hr
  cases hc : contenidoDe s f t n.toNat with
  | none => simp [hc] at hr
  | some c' =>
    obtain rfl : c' = c := by simpa [hc] using hr
    obtain ⟨b, hlink, hb⟩ := Option.bind_eq_some_iff.mp hc
    obtain ⟨bl, -, hr⟩ := Option.bind_eq_some_iff.mp hlink
    have hfile : s.disco.getContenido (rutaBlockLogico f t bl.nombreBlock) = some c' := by
      rw [Disco.getContenido, hr, Option.bind_some, hb]
    exact ⟨rfl, h.length_of_getContenido hfile⟩

theorem atenderOrden_casos {o : Orden} (hr : atenderPeticion md5 sb s (.orden o) = .ok (s', r)) :
    s' = s ∧ r = .respuesta .error ∨ ∃ x r', solicitudDe o = some x ∧
      atenderWorker md5 sb s x = .ok (s', r') ∧ r = .respuesta r' := by
  simp only [atenderPeticion] at hr
  cases hx : solicitudDe o with
  | none =>
    simp only [hx] at hr
    obtain ⟨rfl, rfl⟩ := Prod.mk.inj (Except.ok.inj hr)
    exact Or.inl ⟨rfl, rfl⟩
  | some x =>
    cases hop : atenderWorker md5 sb s x with
    | error f => simp [hx, hop] at hr
    | ok q =>
      obtain ⟨s₁, r'⟩ := q
      simp only [hx, hop] at hr
      obtain ⟨rfl, rfl⟩ := Prod.mk.inj (Except.ok.inj hr)
      exact Or.inr ⟨x, r', rfl, hop, rfl⟩

theorem alcanzable_atenderPeticion (h : Alcanzable md5 sb s)
    (hr : atenderPeticion md5 sb s p = .ok (s', r)) : Alcanzable md5 sb s' := by
  cases p with
  | pedirTamBloque idWorker =>
    obtain ⟨rfl, -⟩ := Prod.mk.inj (Except.ok.inj hr)
    exact h
  | orden o =>
    rcases atenderOrden_casos hr with ⟨rfl, -⟩ | ⟨x, r', -, hop, -⟩
    · exact h
    · have hpaso : StorageOperations.paso md5 sb s x = .ok s' := by
        rw [StorageOperations.paso, hop]
        rfl
      exact reaches_trans h ⟨[x], (run_cons [] hpaso).trans rfl⟩

theorem corresponde_atenderPeticion (h : Coherente sb s)
    (hr : atenderPeticion md5 sb s p = .ok (s', r)) : Corresponde sb p r := by
  cases p with
  | pedirTamBloque idWorker =>
    obtain ⟨-, rfl⟩ := Prod.mk.inj (Except.ok.inj hr)
    rfl
  | orden o =>
    by_cases ho : ∃ q f t n, o = .readBlock q f t n
    · obtain ⟨q, f, t, n, rfl⟩ := ho
      obtain ⟨-, rfl⟩ := Prod.mk.inj (Except.ok.inj hr)
      cases hread : storageReadBlock sb s (texto f) (texto t) n.toInt with
      | error => exact Or.inl rfl
      | ok =>
        rw [storageReadBlock_eq h] at hread
        split_ifs at hread
        cases hc : contenidoDe s (texto f) (texto t) n.toInt.toNat with
        | none => simp [hc] at hread
        | some c => simp [hc] at hread
      | bloque c => exact Or.inr ⟨c, rfl, (bloque_de_readBlock h hread).2⟩
    · have hno : ∀ q f t n, o ≠ .readBlock q f t n := by
        intro q f t n heq
        exact ho ⟨q, f, t, n, heq⟩
      have hcasos : r = .respuesta .ok ∨ r = .respuesta .error := by
        rcases atenderOrden_casos hr with ⟨-, rfl⟩ | ⟨x, r', hx, hop, rfl⟩
        · exact Or.inr rfl
        · rcases respuesta_casos (solicitudDe_ne_readBlock hno hx) hop with rfl | rfl
          · exact Or.inl rfl
          · exact Or.inr rfl
      cases o with
      | readBlock q f t n => exact absurd rfl (hno q f t n)
      | _ => exact hcasos

theorem leeBloque_of_coherente (md5 : Bytes → String) (h : Coherente sb s) (p : Peticion) :
    LeeBloque md5 sb s p := by
  intro s' c hr
  have hcorresponde := corresponde_atenderPeticion h hr
  cases p with
  | pedirTamBloque idWorker => cases hcorresponde
  | orden o => cases o with
    | readBlock qid file tag nroPag =>
      obtain ⟨-, hread⟩ := Prod.mk.inj (Except.ok.inj hr)
      exact ⟨qid, file, tag, nroPag, rfl, bloque_de_readBlock h (Contestacion.respuesta.inj hread)⟩
    | _ => rcases hcorresponde with hc | hc <;> cases hc

end Respuestas

section Lecturas

variable {sb : Superbloque} {p : Peticion} {r : Contestacion}

theorem pageSize_eq (sb : Superbloque) : pageSize sb = sb.blockSize := by
  have hlt : sb.blockSize < 2 ^ 31 := Nat.lt_of_le_of_lt sb.block_le sb.int_range
  rw [pageSize, blockSizeEnviado, toInt_ofNat_of_lt hlt, Int.toNat_natCast]

theorem reads_esperarEntero (x : Entero) : Reads esperarEntero (bytesEntero x) x := by
  intro rest
  rw [esperarEntero, recibirEntero_append]

/-- The Worker reads the bytes of an answer and none behind it. -/
theorem reads_leerRespuesta (h : Corresponde sb p r) :
    Reads (leerRespuesta (pageSize sb) p) (enviar r) r := by
  have herror : opRespError ≠ opRespOk := by decide
  cases p with
  | pedirTamBloque idWorker =>
    obtain rfl : r = .tamBloque (blockSizeEnviado sb) := h
    rw [leerRespuesta, enviar]
    refine (reads_esperarEntero opRespTamBloque).readThen ?_
    intro rest
    rw [if_pos rfl, readThen, reads_esperarEntero, Option.bind_some]
  | orden o =>
    by_cases ho : ∃ q f t n, o = .readBlock q f t n
    · obtain ⟨q, f, t, n, rfl⟩ := ho
      rcases h with rfl | ⟨c, rfl, hlen⟩
      · intro rest
        rw [leerRespuesta, readThen, enviar, reads_esperarEntero, Option.bind_some,
          if_neg herror]
      · rw [leerRespuesta, enviar]
        refine (reads_esperarEntero opRespOk).readThen ?_
        intro rest
        dsimp only
        rw [if_pos rfl, pageSize_eq, if_pos (by simp [hlen]), List.take_left' hlen,
          List.drop_left' hlen]
    · have hcasos : r = .respuesta .ok ∨ r = .respuesta .error := by
        cases o with
        | readBlock q f t n => exact absurd ⟨q, f, t, n, rfl⟩ ho
        | _ => exact h
      have hleer : leerRespuesta (pageSize sb) (.orden o) = readThen esperarEntero fun op b =>
          some (.respuesta (if op = opRespOk then .ok else .error), b) := by
        cases o with
        | readBlock q f t n => exact absurd ⟨q, f, t, n, rfl⟩ ho
        | _ => rfl
      intro rest
      rcases hcasos with rfl | rfl
      · rw [hleer, readThen, enviar, reads_esperarEntero, Option.bind_some, if_pos rfl]
      · rw [hleer, readThen, enviar, reads_esperarEntero, Option.bind_some, if_neg herror]

end Lecturas

section Corridas

variable {md5 : Bytes → String} {sb : Superbloque} {s s' : Storage} {ps : List Peticion}
  {rs : List Contestacion}

theorem listen_recibidas (hps : ∀ p ∈ ps, Enviada p)
    (hrun : collect (atenderPeticion md5 sb) s ps = .ok (s', rs)) :
    listen (turnoStorage md5 sb) s (ps.flatMap escribir) =
      (List.zipWith (fun p r => (some p, enviar r)) ps rs, some .cierre) := by
  induction ps generalizing s rs with
  | nil => exact listen_error rfl
  | cons p ps ih =>
    obtain ⟨t, r, rs', hr, htail, rfl⟩ := collect_cons_eq_ok hrun
    have hp := hps p (List.mem_cons_self ..)
    have hrest := ih (fun x hx => hps x (List.mem_cons_of_mem _ hx)) htail
    rw [List.flatMap_cons, listen_ok (consumes_turnoStorage md5 sb)
      (turnoStorage_escribir hp hr (ps.flatMap escribir)), hrest]
    rfl

theorem reads_leerRespuestas (hs : Alcanzable md5 sb s)
    (hrun : collect (atenderPeticion md5 sb) s ps = .ok (s', rs)) :
    rs.length = ps.length ∧
      Reads (leerRespuestas (pageSize sb) ps) (rs.flatMap enviar) rs := by
  induction ps generalizing s rs with
  | nil =>
    obtain ⟨-, rfl⟩ := Prod.mk.inj (Except.ok.inj hrun)
    exact ⟨rfl, fun _ => rfl⟩
  | cons p ps ih =>
    obtain ⟨t, r, rs', hr, htail, rfl⟩ := collect_cons_eq_ok hrun
    obtain ⟨hlen, hreads⟩ := ih (alcanzable_atenderPeticion hs hr) htail
    have hprimera := reads_leerRespuesta (corresponde_atenderPeticion (coherente_alcanzable hs) hr)
    refine ⟨congrArg (· + 1) hlen, ?_⟩
    rw [List.flatMap_cons]
    apply hprimera.readThen
    intro rest
    rw [readThen, hreads, Option.bind_some]

theorem collect_intercambio (hs : Alcanzable md5 sb s) (hps : ∀ p ∈ ps, Enviada p)
    (hrun : collect (atenderPeticion md5 sb) s ps = .ok (s', rs)) :
    collect (intercambio md5 sb) ⟨s, [], []⟩ ps =
      .ok (⟨s', [], []⟩, List.zipWith (fun p r => (some p, r)) ps rs) := by
  induction ps generalizing s rs with
  | nil =>
    obtain ⟨rfl, -⟩ := Prod.mk.inj (Except.ok.inj hrun)
    rfl
  | cons p ps ih =>
    obtain ⟨t, r, rs', hr, htail, rfl⟩ := collect_cons_eq_ok hrun
    have hp := hps p (List.mem_cons_self ..)
    have hrest := ih (alcanzable_atenderPeticion hs hr)
      (fun x hx => hps x (List.mem_cons_of_mem _ hx)) htail
    have hturno := turnoStorage_escribir hp hr []
    have hleida :=
      reads_leerRespuesta (corresponde_atenderPeticion (coherente_alcanzable hs) hr) []
    rw [List.append_nil] at hturno hleida
    have hpaso : intercambio md5 sb ⟨s, [], []⟩ p = .ok (⟨t, [], []⟩, some p, r) := by
      simp only [intercambio, List.nil_append, hturno, hleida]
    simp only [collect, hpaso, hrest]
    rfl

theorem alcanzable_pasoPeticion {p : Peticion} (hs : Alcanzable md5 sb s)
    (h : pasoPeticion md5 sb s p = .ok s') : Alcanzable md5 sb s' := by
  unfold pasoPeticion at h
  cases hp : atenderPeticion md5 sb s p with
  | error f => simp [hp, Except.map] at h
  | ok q =>
    obtain rfl : q.1 = s' := by simpa [hp, Except.map] using h
    exact alcanzable_atenderPeticion hs hp

/-- Whatever a Worker asks for, and whatever is answered, neither side loses its place. -/
theorem acompasados (hs : Alcanzable md5 sb s) (hps : ∀ p ∈ ps, Enviada p)
    (hrun : collect (atenderPeticion md5 sb) s ps = .ok (s', rs)) :
    Acompasados md5 sb s s' ps rs := by
  obtain ⟨hlen, hreads⟩ := reads_leerRespuestas hs hrun
  constructor
  · exact listen_recibidas hps hrun
  · exact hlen
  · have hfin := hreads []
    rwa [List.append_nil] at hfin
  · exact collect_intercambio hs hps hrun
  · exact eachStep_of_invariant (C := fun _ _ => True)
      (fun _ _ _ hs _ h => alcanzable_pasoPeticion hs h)
      (fun _ p _ hs _ _ => leeBloque_of_coherente md5 (coherente_alcanzable hs) p) hs
      (eachStep_of_forall (fun _ _ _ => trivial) s)

/-- A handshake, a file that is written and read, a page out of its range, a name without
a colon and a DELETE. -/
def pedidos : List Peticion :=
  [.pedirTamBloque 7, .orden (.create 0 [97, 58, 98]), .orden (.truncate 0 [97, 58, 98] 2),
    .orden (.writeBlock 0 [97] [98] 0 [7, 8]), .orden (.readBlock 0 [97] [98] 0),
    .orden (.readBlock 0 [97] [98] 5), .orden (.create 0 [97]), .orden (.delete 0 [97] [98])]

def contestados : List Contestacion :=
  [.tamBloque 2, .respuesta .ok, .respuesta .ok, .respuesta .ok, .respuesta (.bloque [0, 0]),
    .respuesta .error, .respuesta .error, .respuesta .ok]

theorem acompasados_pedidos : ∃ s', Acompasados hashLegible superbloqueChico
    (freshStart superbloqueChico) s' pedidos contestados := by
  have hrs : (collect (atenderPeticion hashLegible superbloqueChico)
      (freshStart superbloqueChico) pedidos).map Prod.snd = .ok contestados := by decide
  cases hrun : collect (atenderPeticion hashLegible superbloqueChico)
      (freshStart superbloqueChico) pedidos with
  | error f => simp [hrun, Except.map] at hrs
  | ok q =>
    obtain ⟨s', rs⟩ := q
    obtain rfl : rs = contestados := by simpa [hrun, Except.map] using hrs
    exact ⟨s', acompasados (Reaches.refl _) (by decide) hrun⟩

end Corridas

end MasterOfFiles.StorageLockstep
