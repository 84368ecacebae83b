import Mathlib.Algebra.BigOperators.Group.List.Basic
import Mathlib.Order.Monotone.Basic
import MasterOfFiles.ByteBuffers
import MasterOfFiles.PartialRuns

/-!
The Worker's internal memory: a frame table over one byte area, filled from and
written back to Storage. A function of the source that returns an index or -1
returns an option here, one that returns 0 or -1 a Boolean. Storage is whatever
answers the requests; on a failed exchange the state it is left in still counts.
-/
namespace MasterOfFiles.WorkerMemory

open ByteBuffers PartialRuns

section Estructuras

inductive Reemplazo
  | lru
  | clockM
  deriving DecidableEq

/-- Ram, without the delay. TAM_MEMORIA is read as an int, and the page size is
the block size that Storage sent. -/
structure Ram where
  tamMemoria : ℕ
  pageSize : ℕ
  algoritmo : Reemplazo
  page_pos : 0 < pageSize
  int_range : tamMemoria < 2 ^ 31

/-- FRAMES. -/
def Ram.frames (ram : Ram) : ℕ := ram.tamMemoria / ram.pageSize

/-- What temporal_gettime(RELOJ_LRU) returns on its successive calls. -/
structure Reloj where
  ms : ℕ → ℕ
  mono : Monotone ms
  int64 : ∀ n, ms n < 2 ^ 63

/-- `base` is the offset of the frame from direccion_base. -/
structure Marco where
  libre : Bool
  base : ℕ
  file : Option String
  tag : Option String
  pagina : ℕ
  dirty : Bool
  U : Bool
  M : Bool
  lastUsed : ℕ
  deriving DecidableEq

/-- `lecturasReloj` counts the calls to the clock made so far. -/
structure Memoria where
  direccionBase : Bytes
  frames : List Marco
  punteroReloj : ℕ
  lecturasReloj : ℕ

/-- Storage at the other end of the socket. A read names the joined `file:tag`; it
fails with `none`, and with `some b` the bytes `b` arrive after OP_RESP_OK. The
other requests answer whether OP_RESP_OK arrived. -/
structure Servidor (σ : Type*) where
  readBlock : σ → String → ℕ → σ × Option Bytes
  writeBlock : σ → String → String → ℕ → Bytes → σ × Bool
  create : σ → String → σ × Bool
  truncate : σ → String → ℤ → σ × Bool
  tag : σ → String → String → σ × Bool
  commit : σ → String → σ × Bool
  flush : σ → String → String → σ × Bool
  delete : σ → String → String → σ × Bool

/-- The Worker's memory and the Storage it talks to. -/
structure Worker (σ : Type*) where
  memoria : Memoria
  storage : σ

end Estructuras

section Marcos

def marcoInicial (ram : Ram) (i : ℕ) : Marco :=
  ⟨true, i * ram.pageSize, none, none, 0, false, false, false, 0⟩

def inicializarMemoria (ram : Ram) : Memoria :=
  ⟨List.replicate ram.tamMemoria 0, (List.range ram.frames).map (marcoInicial ram), 0, 0⟩

/-- frames[i].base, as an offset. -/
def baseDe (m : Memoria) (i : ℕ) : ℕ := ((m.frames[i]?).map Marco.base).getD 0

def modificarMarco (m : Memoria) (i : ℕ) (g : Marco → Marco) : Memoria :=
  { m with frames := m.frames.modify i g }

def usado (ahora : ℕ) (f : Marco) : Marco := { f with U := true, lastUsed := ahora }

/-- Sets the use bit and the time of last use, reading the clock once. -/
def tocar (reloj : Reloj) (m : Memoria) (i : ℕ) : Memoria :=
  { modificarMarco m i (usado (reloj.ms m.lecturasReloj)) with
    lecturasReloj := m.lecturasReloj + 1 }

def buscarMarcoLibre (m : Memoria) : Option ℕ := m.frames.findIdx? Marco.libre

def frameMatchea (file tag : String) (nroPag : ℕ) (f : Marco) : Bool :=
  !f.libre && f.pagina == nroPag && f.file == some file && f.tag == some tag

end Marcos

section Reemplazo

/-- algoritmo_LRU from frame `i` on, with the victim so far and its time. -/
def lruDesde : List Marco → ℕ → Option ℕ → ℕ → Option ℕ
  | [], _, victima, _ => victima
  | f :: fs, i, victima, peor =>
    if f.libre = false ∧ f.lastUsed < peor then lruDesde fs (i + 1) (some i) f.lastUsed
    else lruDesde fs (i + 1) victima peor

def algoritmoLRU (m : Memoria) : Option ℕ := lruDesde m.frames 0 none (2 ^ 64 - 1)

/-- The frames in circular order from PUNTERO_RELOJ. -/
def vuelta (m : Memoria) : List ℕ :=
  (List.range m.frames.length).map fun k => (m.punteroReloj + k) % m.frames.length

def cumple (m : Memoria) (p : Marco → Bool) (i : ℕ) : Bool := (m.frames[i]?).any p

def limpiarU (m : Memoria) (i : ℕ) : Memoria := modificarMarco m i fun f => { f with U := false }

/-- The second search of CLOCK-M, which clears the use bits it passes. -/
def segundaVuelta : List ℕ → Memoria → Memoria × Option ℕ
  | [], m => (m, none)
  | i :: is, m =>
    if cumple m (fun f => !f.libre && !f.U && f.M) i then (m, some i)
    else segundaVuelta is (if cumple m (fun f => !f.libre && f.U) i then limpiarU m i else m)

/-- Returns frame `i` as the victim and leaves PUNTERO_RELOJ behind it. -/
def elegido (m : Memoria) (i : ℕ) : Memoria × Option ℕ :=
  ({ m with punteroReloj := (i + 1) % m.frames.length }, some i)

def algoritmoCLOCKM (m : Memoria) : Memoria × Option ℕ :=
  match (vuelta m).find? (cumple m fun f => !f.libre && !f.U && !f.M) with
  | some i => elegido m i
  | none => match segundaVuelta (vuelta m) m with
    | (m, some i) => elegido m i
    | (m, none) => match (vuelta m).find? (cumple m fun f => !f.libre) with
      | some i => elegido m i
      | none => (m, none)

def elegirAlgoritmo (ram : Ram) (m : Memoria) : Memoria × Option ℕ :=
  match ram.algoritmo with
  | .lru => (m, algoritmoLRU m)
  | .clockM => algoritmoCLOCKM m

end Reemplazo

section Paginas

variable {σ : Type*} (ram : Ram) (reloj : Reloj) (srv : Servidor σ)

/-- Receives a page into the frame at `base`; bytes that arrived before a failure stay. -/
def lecturaPaginaStorage (w : Worker σ) (file tag : String) (nroPag base : ℕ) : Worker σ × Bool :=
  match srv.readBlock w.storage (file ++ ":" ++ tag) nroPag with
  | (st, none) => ({ w with storage := st }, false)
  | (st, some b) =>
    (⟨{ w.memoria with
        direccionBase := overlay w.memoria.direccionBase base (b.take ram.pageSize) }, st⟩,
      decide (ram.pageSize ≤ b.length))

def escribirPaginaStorage (w : Worker σ) (file tag : String) (nroPag : ℕ) (pagina : Bytes) :
    Worker σ × Bool :=
  let (st, ok) := srv.writeBlock w.storage file tag nroPag pagina
  ({ w with storage := st }, ok)

def limpio (f : Marco) : Marco := { f with dirty := false, M := false }

def limpiarMarco (w : Worker σ) (i : ℕ) : Worker σ :=
  { w with memoria := modificarMarco w.memoria i limpio }

/-- Sends frame `i` to Storage and clears its modified bits if that succeeds. -/
def volcarMarco (w : Worker σ) (i : ℕ) (f : Marco) : Worker σ × Bool :=
  match f.file, f.tag with
  | some file, some tag =>
    match escribirPaginaStorage srv w file tag f.pagina
      (slice w.memoria.direccionBase f.base ram.pageSize) with
    | (w, true) => (limpiarMarco w i, true)
    | (w, false) => (w, false)
  -- strlen of a null name; a dirty frame always has both names
  | _, _ => (w, false)

/-- Sends frame `i` if it meets `p`. -/
def volcarSi (p : Marco → Bool) (w : Worker σ) (i : ℕ) : Worker σ × Bool :=
  match w.memoria.frames[i]? with
  | none => (w, true)
  | some f => if p f then volcarMarco ram srv w i f else (w, true)

def flushFrame (w : Worker σ) (i : ℕ) : Worker σ × Bool :=
  volcarSi ram srv (fun f => !f.libre && f.dirty) w i

def flushFiletag (w : Worker σ) (file tag : String) : Worker σ × Bool :=
  untilFalse (volcarSi ram srv fun f =>
    !f.libre && f.file == some file && f.tag == some tag && f.dirty)
    w (List.range w.memoria.frames.length)

def flushSiModificado (w : Worker σ) (i : ℕ) : Worker σ × Bool :=
  match w.memoria.frames[i]? with
  | none => (w, true)
  | some f => match f.file, f.tag with
    | some file, some tag =>
      if !f.libre && f.dirty then flushFiletag ram srv w file tag else (w, true)
    | _, _ => (w, true)

def flushTodosFiletagsModificados (w : Worker σ) : Worker σ × Bool :=
  untilFalse (flushSiModificado ram srv) w (List.range w.memoria.frames.length)

def quitarNombres (m : Memoria) (i : ℕ) : Memoria :=
  modificarMarco m i fun f => { f with file := none, tag := none }

/-- Writes the victim back and takes its names away. -/
def desalojar (w : Worker σ) (victima : ℕ) : Worker σ × Option ℕ :=
  match flushFrame ram srv w victima with
  | (w, true) => ({ w with memoria := quitarNombres w.memoria victima }, some victima)
  | (w, false) => (w, none)

/-- A free frame, or else the one the replacement algorithm gives up. -/
def elegirMarco (w : Worker σ) : Worker σ × Option ℕ :=
  match buscarMarcoLibre w.memoria with
  | some marco => (w, some marco)
  | none => match elegirAlgoritmo ram w.memoria with
    | (m, none) => ({ w with memoria := m }, none)
    | (m, some victima) => desalojar ram srv { w with memoria := m } victima

def asignado (file tag : String) (nroPag ahora : ℕ) (f : Marco) : Marco :=
  { f with
    libre := false, file := some file, tag := some tag, pagina := nroPag
    dirty := false, U := true, M := false, lastUsed := ahora }

def asignarMarco (m : Memoria) (i : ℕ) (file tag : String) (nroPag : ℕ) : Memoria :=
  { modificarMarco m i (asignado file tag nroPag (reloj.ms m.lecturasReloj)) with
    lecturasReloj := m.lecturasReloj + 1 }

def cargarPagina (w : Worker σ) (marco : ℕ) (file tag : String) (nroPag : ℕ) :
    Worker σ × Option ℕ :=
  match lecturaPaginaStorage ram srv w file tag nroPag (baseDe w.memoria marco) with
  | (w, true) =>
    ({ w with memoria := asignarMarco reloj w.memoria marco file tag nroPag }, some marco)
  | (w, false) => (w, none)

def traerPagina (w : Worker σ) (file tag : String) (nroPag : ℕ) : Worker σ × Option ℕ :=
  match w.memoria.frames.findIdx? (frameMatchea file tag nroPag) with
  | some i => ({ w with memoria := tocar reloj w.memoria i }, some i)
  | none => match elegirMarco ram srv w with
    | (w, none) => (w, none)
    | (w, some marco) => cargarPagina ram reloj srv w marco file tag nroPag

end Paginas

section Accesos

variable {σ : Type*} (ram : Ram) (reloj : Reloj) (srv : Servidor σ)

/-- The page number, a uint32_t, of a size_t address. -/
def nroPagina (dir : ℕ) : ℕ := dir % 2 ^ 64 / ram.pageSize % 2 ^ 32

def desplazamiento (dir : ℕ) : ℕ := dir % 2 ^ 64 % ram.pageSize

def tramo (dir restante : ℕ) : ℕ := min (ram.pageSize - desplazamiento ram dir) restante

def sucio (f : Marco) : Marco := { f with dirty := true, M := true }

def escribirTramo (w : Worker σ) (marco ptr : ℕ) (bytes : Bytes) : Worker σ :=
  { w with
    memoria := modificarMarco
      { w.memoria with direccionBase := overlay w.memoria.direccionBase ptr bytes } marco sucio }

structure Acceso where
  file : String
  tag : String
  base : ℕ
  escribir : Bool
  entrada : Bytes

/-- One round of the loop, on the frame that holds the page. -/
def accederMarco (a : Acceso) (w : Worker σ) (marco : ℕ) (salida : Bytes)
    (desplaz chunk : ℕ) : Worker σ × Bytes :=
  let ptr := baseDe w.memoria marco + desplazamiento ram (a.base + desplaz)
  let (w, salida) :=
    if a.escribir then (escribirTramo w marco ptr (slice a.entrada desplaz chunk), salida)
    else (w, overlay salida desplaz (slice w.memoria.direccionBase ptr chunk))
  ({ w with memoria := tocar reloj w.memoria marco }, salida)

/-- The loop of acceder_memoria. Each round takes at least one byte off
`restante`, so that many rounds are enough. -/
def accederDesde (a : Acceso) : ℕ → Worker σ → Bytes → ℕ → ℕ → Worker σ × Bytes × Bool
  | 0, w, salida, _, _ => (w, salida, true)
  | rondas + 1, w, salida, desplaz, restante =>
    if restante = 0 then (w, salida, true)
    else match traerPagina ram reloj srv w a.file a.tag (nroPagina ram (a.base + desplaz)) with
      | (w, none) => (w, salida, false)
      | (w, some marco) =>
        let chunk := tramo ram (a.base + desplaz) restante
        let (w, salida) := accederMarco ram reloj a w marco salida desplaz chunk
        accederDesde a rondas w salida (desplaz + chunk) (restante - chunk)

def accederMemoria (w : Worker σ) (a : Acceso) (size : ℕ) (salida : Bytes) :
    Worker σ × Bytes × Bool :=
  accederDesde ram reloj srv a size w salida 0 size

end Accesos

end MasterOfFiles.WorkerMemory
