import MasterOfFiles.WorkerMessages

/-!
The way of a READ from a Worker to the Query Control. The Master puts the bytes
into a text and sends it as an OP_MENSAJE, and the loop of the Query Control
reads its packets until one of them, or a closed connection, ends it.
-/
namespace MasterOfFiles.ReadReports

open ByteBuffers ByteStreams Packets WorkerMessages

section Reenvio

/-- The bytes of a literal of the source, which is ASCII. -/
def letras (texto : String) : Bytes := texto.toList.map fun c => UInt8.ofNat c.toNat

/-- The snprintf: a precision below zero counts as none. -/
def mensajeLectura (filetag : Bytes) (tamanio : ℤ) (buffer : Bytes) : Bytes :=
  letras "Archivo " ++ filetag ++ letras ", contenido: " ++
    cString (if 0 ≤ tamanio then buffer.take tamanio.toNat else buffer)

def enviarFinQuery (motivo : Bytes) : Bytes := enviarPaquete opFinQuery [motivo ++ [0]]

/-- What the Master writes on the socket of the Query `qid` for a message of the
Worker that runs it. -/
def reenviar (qid : Entero) : EventoMaster → Bytes
  | .lectura filetag tamanio buffer =>
    enviarPaquete opMensaje [mensajeLectura filetag tamanio buffer ++ [0]]
  | .finQuery q => if q = qid.toInt then enviarFinQuery (letras "Finalizada OK") else []
  | _ => []

end Reenvio

section QueryControl

inductive EventoQuery
  | lecturaRealizada (mensaje : Bytes)
  | mensajeMalFormado
  | desconocida (op : ℤ)
  deriving DecidableEq

/-- How the loop is left, with the stream in which a closed connection was seen. -/
inductive FinControl
  | conexionCerrada (resto : Bytes)
  | finalizada (motivo : Bytes)
  | finMalFormado
  | indefinido
  deriving DecidableEq

def atenderMensaje (b : Bytes) : Except FinControl (EventoQuery × Unit × Bytes) :=
  match recibirPaquete b with
  | none => .error .indefinido
  | some (mensaje :: _, b') =>
    if 0 ∈ mensaje then .ok (.lecturaRealizada (cString mensaje), (), b') else .error .indefinido
  | some ([], b') => .ok (.mensajeMalFormado, (), b')

def atenderFin (b : Bytes) : FinControl :=
  match recibirPaquete b with
  | none => .indefinido
  | some (motivo :: _, _) => if 0 ∈ motivo then .finalizada (cString motivo) else .indefinido
  | some ([], _) => .finMalFormado

/-- A turn of the receive loop, whose opcodes below one are a closed connection. -/
def turnoControl (_ : Unit) (b : Bytes) : Except FinControl (EventoQuery × Unit × Bytes) :=
  match recibirOperacion b with
  | none => .error .indefinido
  | some (op, b') =>
    if op.toInt ≤ 0 then .error (.conexionCerrada b)
    else if op = opMensaje then atenderMensaje b'
    else if op = opFinQuery then .error (atenderFin b')
    else .ok (.desconocida op.toInt, (), b')

/-- An opcode of zero has ended the loop before its case is reached. -/
theorem turnoControl_not_lectura {u u' : Unit} {b b' : Bytes} {e : EventoQuery}
    (h : turnoControl u b = .ok (e, u', b')) (mensaje : Bytes) : e ≠ .lecturaRealizada mensaje := by
  unfold turnoControl at h
  split at h
  · simp at h
  · next op b₁ hop =>
    split_ifs at h with hfin hmensaje
    · subst hmensaje
      exact absurd (by decide) hfin
    · obtain ⟨rfl, -⟩ : _ = e ∧ _ := by simpa using h
      simp

theorem listenFor_not_lectura (n : ℕ) (u : Unit) (b : Bytes) (mensaje : Bytes) :
    .lecturaRealizada mensaje ∉ (listenFor turnoControl n u b).1 := by
  induction n generalizing u b with
  | zero => simp [listenFor]
  | succ n ih =>
    cases hturno : turnoControl u b with
    | error fin => simp [listenFor, hturno]
    | ok p =>
      obtain ⟨e, u', b'⟩ := p
      simp only [listenFor, hturno, List.mem_cons, not_or]
      exact ⟨(turnoControl_not_lectura hturno mensaje).symm, ih u' b'⟩

end QueryControl

section Lecturas

/-- How a Query ends after its READs: END, or the Master closes the connection. -/
inductive Cierre
  | fin
  | desconexion
  deriving DecidableEq

/-- What the Worker writes while it runs the Query. -/
def ejecutarQuery (qid : Entero) (lecturas : List Lectura) : Cierre → Bytes
  | .fin => lecturas.flatMap ejecutarRead ++ ejecutarEnd qid
  | .desconexion => lecturas.flatMap ejecutarRead

/-- The stream of the Query Control, up to where the Master closes it. -/
def atenderQuery (qid : Entero) (b : Bytes) : Bytes :=
  (listen (turnoMaster fun _ => some qid) 0 b).1.flatMap (reenviar qid)

/-- What the Query Control reports of the READs of a Query. -/
def informar (qid : Entero) (lecturas : List Lectura) (cierre : Cierre) :
    List EventoQuery × Option FinControl :=
  listen turnoControl () (atenderQuery qid (ejecutarQuery qid lecturas cierre))

/-- The text has the File:Tag and behind it the bytes read and nothing else. -/
def Informa (l : Lectura) (texto : Bytes) : Prop :=
  ∃ antes entre, texto = antes ++ l.filetag ++ entre ++ l.contenido

def finEsperado : Cierre → FinControl
  | .fin => .finalizada (letras "Finalizada OK")
  | .desconexion => .conexionCerrada []

/-- A message for each READ, in their order, and no other reason to stop than the
end of the Query or a connection that was closed. -/
def LecturasIntactas (qid : Entero) (lecturas : List Lectura) (cierre : Cierre) : Prop :=
  ∃ textos, informar qid lecturas cierre =
      (textos.map .lecturaRealizada, some (finEsperado cierre)) ∧
    List.Forall₂ Informa lecturas textos

/-- The text itself keeps the bytes of a READ up to the first of them that is zero. -/
theorem informa_mensajeLectura_iff (l : Lectura) :
    Informa l (mensajeLectura l.filetag l.contenido.length l.contenido) ↔ 0 ∉ l.contenido := by
  have htexto : mensajeLectura l.filetag l.contenido.length l.contenido =
      letras "Archivo " ++ l.filetag ++ letras ", contenido: " ++ cString l.contenido := by
    simp [mensajeLectura]
  rw [htexto]
  constructor
  · rintro ⟨antes, entre, h⟩ hmem
    have hcero : 0 ∈ letras "Archivo " ++ l.filetag ++ letras ", contenido: " ++
        cString l.contenido := by
      rw [h]
      exact List.mem_append_right _ hmem
    simp only [List.mem_append, l.sin_nul, zero_notMem_cString, or_false] at hcero
    revert hcero
    decide
  · intro h
    refine ⟨letras "Archivo ", letras ", contenido: ", ?_⟩
    rw [cString_eq_self h]

theorem informar_nil (qid : Entero) (cierre : Cierre) :
    informar qid [] cierre = ([], some (finEsperado cierre)) := by
  have hc := consumes_turnoMaster fun _ => some qid
  cases cierre with
  | desconexion => exact listen_error rfl
  | fin =>
    have hfin : turnoMaster (fun _ => some qid) 0 (escribir (.finQuery qid) ++ []) =
        .ok (esperado (.finQuery qid), 1, []) := by
      refine turnoMaster_entendido ?_ []
      rfl
    have hmaster : atenderQuery qid (ejecutarQuery qid [] .fin) =
        enviarFinQuery (letras "Finalizada OK") := by
      have hbytes : ejecutarQuery qid [] .fin = escribir (.finQuery qid) ++ [] := by
        simp [ejecutarQuery, escribir]
      rw [atenderQuery, hbytes, listen_ok hc hfin, listen_error rfl]
      simp [esperado, reenviar]
    rw [informar, hmaster]
    exact listen_error (by decide)

/-- The READs of a Query reach its Query Control intact just when there are none. -/
theorem lecturasIntactas_iff (qid : Entero) (lecturas : List Lectura) (cierre : Cierre) :
    LecturasIntactas qid lecturas cierre ↔ lecturas = [] := by
  constructor
  · rintro ⟨textos, hinformar, htextos⟩
    cases htextos with
    | nil => rfl
    | @cons l texto ls ts _ _ =>
      have hmem : EventoQuery.lecturaRealizada texto ∈ (informar qid (l :: ls) cierre).1 := by
        rw [hinformar]
        exact List.mem_cons_self ..
      exact absurd hmem (listenFor_not_lectura _ _ _ texto)
  · rintro rfl
    exact ⟨[], informar_nil qid cierre, .nil⟩

/-- One byte read from `a:b` and the END behind it: the report is a closed
connection that the Master never closed. -/
theorem not_lecturasIntactas_unByte :
    ¬ ∀ qid lecturas cierre, LecturasIntactas qid lecturas cierre := by
  intro h
  obtain ⟨textos, hinformar, _⟩ :=
    h 1 [⟨letras "a:b", letras "x", by decide, by decide⟩] .fin
  have hfin : (informar 1 [⟨letras "a:b", letras "x", by decide, by decide⟩] .fin).2 =
      some (finEsperado .fin) := congrArg Prod.snd hinformar
  exact absurd hfin (by decide)

end Lecturas

end MasterOfFiles.ReadReports
