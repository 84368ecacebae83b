import MasterOfFiles.Packets
import MasterOfFiles.StorageOperations
import MasterOfFiles.TagDirectories

/-!
What a Worker writes on the Storage's socket, what the loop of atender_worker makes of it,
what it writes back and what the Worker reads of that. A handshake is two bare ints and
every other request a packet; an answer is an int, with BLOCK_SIZE bytes behind it when a
block was read. Names are bytes on the socket, and one character a byte in the Storage.
-/
namespace MasterOfFiles.StorageMessages

open ByteBuffers ByteStreams Packets StorageState StorageOperations
open TagDirectories (splitFileTag)

section Protocolo

def opPedirTamBloque : Entero := 2
def opRespTamBloque : Entero := 4
def opCreate : Entero := 100
def opTruncate : Entero := 102
def opTag : Entero := 105
def opCommit : Entero := 106
def opFlush : Entero := 107
def opDelete : Entero := 108
def opStReadBlock : Entero := 200
def opStWriteBlock : Entero := 201
def opRespOk : Entero := 100
def opRespError : Entero := 101

abbrev SizeT := BitVec (8 * 8)

end Protocolo

section Worker

/-- What a Worker asks for in a packet. The arguments of CREATE, TRUNCATE, TAG and COMMIT
go as the query has them, the others are separated. -/
inductive Orden
  | create (qid : Entero) (arg1 : Bytes)
  | truncate (qid : Entero) (arg1 : Bytes) (tamanio : Entero)
  | tag (qid : Entero) (arg1 arg2 : Bytes)
  | delete (qid : Entero) (file tag : Bytes)
  | commit (qid : Entero) (arg1 : Bytes)
  | flush (qid : Entero) (file tag : Bytes)
  | readBlock (qid : Entero) (file tag : Bytes) (nroPag : Entero)
  | writeBlock (qid : Entero) (file tag : Bytes) (nroPag : Entero) (contenido : Bytes)
  deriving DecidableEq

inductive Peticion
  | pedirTamBloque (idWorker : Entero)
  | orden (o : Orden)
  deriving DecidableEq

/-- An opcode and the fields of its packet. -/
abbrev Mensaje := Entero × List Bytes

def ejecutarCreate (qid : Entero) (arg1 : Bytes) : Mensaje :=
  (opCreate, [bytesEntero qid, arg1 ++ [0]])

def ejecutarTruncate (qid : Entero) (arg1 : Bytes) (tamanio : Entero) : Mensaje :=
  (opTruncate, [bytesEntero qid, arg1 ++ [0], bytesEntero tamanio])

def ejecutarTag (qid : Entero) (arg1 arg2 : Bytes) : Mensaje :=
  (opTag, [bytesEntero qid, arg1 ++ [0], arg2 ++ [0]])

def ejecutarDelete (qid : Entero) (file tag : Bytes) : Mensaje :=
  (opDelete, [bytesEntero qid, file ++ [0], tag ++ [0]])

def ejecutarCommit (qid : Entero) (arg1 : Bytes) : Mensaje :=
  (opCommit, [bytesEntero qid, arg1 ++ [0]])

def ejecutarFlush (qid : Entero) (file tag : Bytes) : Mensaje :=
  (opFlush, [bytesEntero qid, file ++ [0], tag ++ [0]])

def lecturaPaginaStorage (qid : Entero) (file tag : Bytes) (nroPag : Entero) : Mensaje :=
  (opStReadBlock, [bytesEntero qid, (file ++ 58 :: tag) ++ [0], bytesEntero nroPag])

def escribirPaginaStorage (qid : Entero) (file tag : Bytes) (nroPag : Entero)
    (contenido : Bytes) : Mensaje :=
  (opStWriteBlock, [bytesEntero qid, file ++ [0], tag ++ [0], bytesEntero nroPag,
    wordBytes 8 (BitVec.ofNat _ contenido.length), contenido])

def mensaje : Orden → Mensaje
  | .create qid arg1 => ejecutarCreate qid arg1
  | .truncate qid arg1 tamanio => ejecutarTruncate qid arg1 tamanio
  | .tag qid arg1 arg2 => ejecutarTag qid arg1 arg2
  | .delete qid file tag => ejecutarDelete qid file tag
  | .commit qid arg1 => ejecutarCommit qid arg1
  | .flush qid file tag => ejecutarFlush qid file tag
  | .readBlock qid file tag nroPag => lecturaPaginaStorage qid file tag nroPag
  | .writeBlock qid file tag nroPag contenido => escribirPaginaStorage qid file tag nroPag contenido

def solicitudBlockSize (idWorker : Entero) : Bytes :=
  bytesEntero opPedirTamBloque ++ bytesEntero idWorker

def escribir : Peticion → Bytes
  | .pedirTamBloque idWorker => solicitudBlockSize idWorker
  | .orden o => enviarPaquete (mensaje o).1 (mensaje o).2

/-- The strings of a request. -/
def textos : Orden → List Bytes
  | .create _ arg1 | .truncate _ arg1 _ | .commit _ arg1 => [arg1]
  | .tag _ arg1 arg2 => [arg1, arg2]
  | .delete _ file tag | .flush _ file tag | .readBlock _ file tag _
  | .writeBlock _ file tag _ _ => [file, tag]

/-- separar_FileTag leaves no colon in the name of the file. -/
def Separada : Orden → Prop
  | .delete _ file _ | .flush _ file _ | .readBlock _ file _ _ | .writeBlock _ file _ _ _ =>
    58 ∉ file
  | _ => True

/-- A request that is sent: its strings are C strings, and its packet has an int for a
size, since nothing can be allocated for any other. -/
structure Emitida (o : Orden) : Prop where
  sin_nul : ∀ x ∈ textos o, 0 ∉ x
  separada : Separada o
  cabe : largoCampos (mensaje o).2 < 2 ^ 31 - 8

instance : (o : Orden) → Decidable (Separada o)
  | .delete _ file _ | .flush _ file _ | .readBlock _ file _ _ | .writeBlock _ file _ _ _ =>
    inferInstanceAs (Decidable (58 ∉ file))
  | .create _ _ | .truncate _ _ _ | .tag _ _ _ | .commit _ _ => isTrue trivial

instance (o : Orden) : Decidable (Emitida o) :=
  decidable_of_iff ((∀ x ∈ textos o, 0 ∉ x) ∧ Separada o ∧ largoCampos (mensaje o).2 < 2 ^ 31 - 8)
    ⟨fun h => ⟨h.1, h.2.1, h.2.2⟩, fun h => ⟨h.sin_nul, h.separada, h.cabe⟩⟩

end Worker

section Campos

def campoEntero (campo : Bytes) : Option Entero :=
  if 4 ≤ campo.length then some (enteroDe (campo.take 4)) else none

def campoSizeT (campo : Bytes) : Option SizeT :=
  if 8 ≤ campo.length then some (wordOf 8 (campo.take 8)) else none

def campoTexto (campo : Bytes) : Option Bytes := if 0 ∈ campo then some (cString campo) else none

/-- What is taken from a packet: a request, something that is answered with an error, or
bytes that are not there. -/
inductive Lectura
  | orden (o : Orden)
  | rechazada
  | indefinida

def leerCreate : List Bytes → Lectura
  | qid :: fileTag :: _ => match campoEntero qid, campoTexto fileTag with
    | some qid, some fileTag => .orden (.create qid fileTag)
    | _, _ => .indefinida
  | _ => .indefinida

def leerTruncate : List Bytes → Lectura
  | qid :: fileTag :: tamanio :: _ => match campoEntero qid, campoTexto fileTag,
      campoEntero tamanio with
    | some qid, some fileTag, some tamanio => .orden (.truncate qid fileTag tamanio)
    | _, _, _ => .indefinida
  | _ => .rechazada

def leerTag : List Bytes → Lectura
  | qid :: origen :: destino :: _ => match campoEntero qid, campoTexto origen,
      campoTexto destino with
    | some qid, some origen, some destino => .orden (.tag qid origen destino)
    | _, _, _ => .indefinida
  | _ => .indefinida

def leerDelete : List Bytes → Lectura
  | qid :: file :: tag :: _ => match campoEntero qid, campoTexto file, campoTexto tag with
    | some qid, some file, some tag => .orden (.delete qid file tag)
    | _, _, _ => .indefinida
  | _ => .rechazada

def leerCommit : List Bytes → Lectura
  | qid :: fileTag :: _ => match campoEntero qid, campoTexto fileTag with
    | some qid, some fileTag => .orden (.commit qid fileTag)
    | _, _ => .indefinida
  | _ => .indefinida

def leerFlush : List Bytes → Lectura
  | qid :: file :: tag :: _ => match campoEntero qid, campoTexto file, campoTexto tag with
    | some qid, some file, some tag => .orden (.flush qid file tag)
    | _, _, _ => .indefinida
  | _ => .rechazada

def leerReadBlock : List Bytes → Lectura
  | qid :: fileTag :: nroPag :: _ => match campoEntero qid, campoTexto fileTag,
      campoEntero nroPag with
    | some qid, some fileTag, some nroPag => match splitFileTag fileTag with
      | some p => .orden (.readBlock qid p.file p.tag nroPag)
      | none => .rechazada
    | _, _, _ => .indefinida
  | _ => .indefinida

/-- The first `len` bytes of the last field are what is written. -/
def leerWriteBlock : List Bytes → Lectura
  | qid :: file :: tag :: nroPag :: len :: contenido :: _ => match campoEntero qid,
      campoTexto file, campoTexto tag, campoEntero nroPag, campoSizeT len with
    | some qid, some file, some tag, some nroPag, some len =>
      if len.toNat ≤ contenido.length then
        .orden (.writeBlock qid file tag nroPag (contenido.take len.toNat))
      else .indefinida
    | _, _, _, _, _ => .indefinida
  | _ => .indefinida

def lectorDe (op : Entero) : Option (List Bytes → Lectura) :=
  if op = opCreate then some leerCreate
  else if op = opTruncate then some leerTruncate
  else if op = opTag then some leerTag
  else if op = opDelete then some leerDelete
  else if op = opCommit then some leerCommit
  else if op = opFlush then some leerFlush
  else if op = opStReadBlock then some leerReadBlock
  else if op = opStWriteBlock then some leerWriteBlock
  else none

end Campos

section Atencion

/-- One character a byte, so that names are different when their bytes are. -/
def texto (b : Bytes) : String := String.ofList (b.map fun x => Char.ofNat x.toNat)

/-- What a handler asks of the Storage; `none` when a name cannot be split. The number of
a READ_BLOCK is read as an int, and that of a WRITE_BLOCK as a uint32_t. -/
def solicitudDe : Orden → Option Solicitud
  | .create _ arg1 => (splitFileTag arg1).map fun p => .create (texto p.file) (texto p.tag)
  | .truncate _ arg1 tamanio =>
    (splitFileTag arg1).map fun p => .truncate (texto p.file) (texto p.tag) tamanio.toInt
  | .tag _ arg1 arg2 => (splitFileTag arg1).bind fun p => (splitFileTag arg2).map fun q =>
    .tag (texto p.file) (texto p.tag) (texto q.file) (texto q.tag)
  | .delete _ file tag => some (.delete (texto file) (texto tag))
  | .commit _ arg1 => (splitFileTag arg1).map fun p => .commit (texto p.file) (texto p.tag)
  | .flush _ file tag => some (.flush (texto file) (texto tag))
  | .readBlock _ file tag nroPag => some (.readBlock (texto file) (texto tag) nroPag.toInt)
  | .writeBlock _ file tag nroPag contenido =>
    some (.writeBlock (texto file) (texto tag) nroPag.toNat contenido)

inductive Contestacion
  | tamBloque (n : Entero)
  | respuesta (r : Respuesta)
  deriving DecidableEq

def enviar : Contestacion → Bytes
  | .tamBloque n => bytesEntero opRespTamBloque ++ bytesEntero n
  | .respuesta .ok => bytesEntero opRespOk
  | .respuesta .error => bytesEntero opRespError
  | .respuesta (.bloque contenido) => bytesEntero opRespOk ++ contenido

/-- How the loop ends: the connection is closed, bytes are read that are not there, or an
operation does not return. -/
inductive FinStorage
  | cierre
  | indefinido
  | noVuelve (f : Fallo)
  deriving DecidableEq

variable (md5 : Bytes → String) (sb : Superbloque)

def blockSizeEnviado : Entero := BitVec.ofNat _ sb.blockSize

def atenderPeticion (s : Storage) : Peticion → Except Fallo (Storage × Contestacion)
  | .pedirTamBloque _ => .ok (s, .tamBloque (blockSizeEnviado sb))
  | .orden o => match solicitudDe o with
    | none => .ok (s, .respuesta .error)
    | some x => match atenderWorker md5 sb s x with
      | .error f => .error f
      | .ok (s', r) => .ok (s', .respuesta r)

/-- A request and the bytes that are sent back for it. -/
abbrev Atendida := Option Peticion × Bytes

def responder (s : Storage) (p : Peticion) (b : Bytes) :
    Except FinStorage (Atendida × Storage × Bytes) :=
  match atenderPeticion md5 sb s p with
  | .error f => .error (.noVuelve f)
  | .ok (s', r) => .ok ((some p, enviar r), s', b)

/-- A turn of the loop of atender_worker. -/
def turnoStorage (s : Storage) (b : Bytes) : Except FinStorage (Atendida × Storage × Bytes) :=
  match recibirOperacion b with
  | none => .error .indefinido
  | some (op, b') =>
    if op.toInt ≤ 0 then .error .cierre
    else if op = opPedirTamBloque then match recibirEntero b' with
      | (none, _) => .error .indefinido
      | (some idWorker, b'') => responder md5 sb s (.pedirTamBloque idWorker) b''
    else match lectorDe op with
      | none => .ok ((none, []), s, b')
      | some leer => match recibirPaquete b' with
        | none => .error .indefinido
        | some (campos, b'') => match leer campos with
          | .orden o => responder md5 sb s (.orden o) b''
          | .rechazada => .ok ((none, enviar (.respuesta .error)), s, b'')
          | .indefinida => .error .indefinido

end Atencion

section Respuestas

/-- A recv that waits for its four bytes. -/
def esperarEntero : Reader Entero := fun b =>
  match recibirEntero b with
  | (some x, b') => some (x, b')
  | (none, _) => none

/-- What the Worker reads after a request, and what it takes it for. -/
def leerRespuesta (pageSize : ℕ) : Peticion → Reader Contestacion
  | .pedirTamBloque _ => readThen esperarEntero fun op =>
    if op = opRespTamBloque then readThen esperarEntero fun n b => some (.tamBloque n, b)
    else fun b => some (.respuesta .error, b)
  | .orden (.readBlock _ _ _ _) => readThen esperarEntero fun op b =>
    if op = opRespOk then
      if pageSize ≤ b.length then some (.respuesta (.bloque (b.take pageSize)), b.drop pageSize)
      else none
    else some (.respuesta .error, b)
  | .orden _ => readThen esperarEntero fun op b =>
    some (.respuesta (if op = opRespOk then .ok else .error), b)

/-- One answer behind the other, each read for its request. -/
def leerRespuestas (pageSize : ℕ) : List Peticion → Reader (List Contestacion)
  | [] => fun b => some ([], b)
  | p :: ps => readThen (leerRespuesta pageSize p) fun r =>
    readThen (leerRespuestas pageSize ps) fun rs b => some (r :: rs, b)

end Respuestas

end MasterOfFiles.StorageMessages
