import MasterOfFiles.ConfigText
import MasterOfFiles.WorkerMemory

/-!
The instructions a Worker executes, as far as they touch its memory and Storage.
What they send to the Master is left out. TRUNCATE and DELETE drop pages from the
frame table with loops bounded by FRAME_COUNT, a variable of the Worker's own.
-/
namespace MasterOfFiles.WorkerInstructions

open ByteBuffers ConfigText PartialRuns WorkerMemory

structure Instruccion where
  comando : String
  arg1 : String
  arg2 : String
  arg3 : String

/-- The Worker's memory and Storage, and FRAME_COUNT. -/
structure Proceso (σ : Type*) where
  worker : Worker σ
  frameCount : ℕ

section Argumentos

/-- Splits at the first colon. -/
def separarFileTag (filetag : String) : Option (String × String) :=
  match filetag.toList.dropWhile (· ≠ ':') with
  | [] => none
  | _ :: tag => some (String.ofList (filetag.toList.takeWhile (· ≠ ':')), String.ofList tag)

theorem separarFileTag_append {file : String} (hfile : ':' ∉ file.toList) (tag : String) :
    separarFileTag (file ++ ":" ++ tag) = some (file, tag) := by
  have htext : (file ++ ":" ++ tag).toList = file.toList ++ ':' :: tag.toList := by
    simp [String.toList_append]
  have hno : ∀ c ∈ file.toList, (decide (c ≠ ':')) = true := by
    intro c hc
    exact decide_eq_true fun heq => hfile (heq ▸ hc)
  unfold separarFileTag
  rw [htext, List.dropWhile_append_of_pos hno, List.takeWhile_append_of_pos hno]
  simp

/-- A strtoul value: too large a number saturates, a minus sign wraps around. -/
def valorSizeT (negativo : Bool) (n : ℕ) : ℕ :=
  if 2 ^ 64 ≤ n then 2 ^ 64 - 1 else if negativo then (2 ^ 64 - n) % 2 ^ 64 else n

/-- The digits have to reach the end of the text. Without digits strtoul stays at
the start, which is the end of an empty text only. -/
def leerSizeT (txt : String) (negativo : Bool) (ds : List Char) : Option ℕ :=
  if ds.takeWhile Char.isDigit = [] then if txt = "" then some 0 else none
  else if ds.all Char.isDigit then some (valorSizeT negativo (leerDigitos ds))
  else none

def parseSizeTSafe (txt : String) : Option ℕ :=
  match txt.toList.dropWhile esEspacio with
  | '-' :: ds => leerSizeT txt true ds
  | '+' :: ds => leerSizeT txt false ds
  | ds => leerSizeT txt false ds

end Argumentos

section Instrucciones

variable {σ : Type*} (ram : Ram) (reloj : Reloj) (srv : Servidor σ)

def conStorage (e : Proceso σ) (r : σ × Bool) : Proceso σ × Bool :=
  ({ e with worker := { e.worker with storage := r.1 } }, r.2)

/-- With an empty arg1 the byte looked at is one that was never written; it is
taken to be NUL. -/
def ejecutarCreate (e : Proceso σ) (inst : Instruccion) : Proceso σ × Bool :=
  if inst.arg1.utf8ByteSize ≤ 1 then (e, false)
  else conStorage e (srv.create e.worker.storage inst.arg1)

def liberado (f : Marco) : Marco :=
  { f with libre := true, file := none, tag := none, dirty := false, U := false, M := false }

def liberarMarco (w : Worker σ) (i : ℕ) : Worker σ :=
  { w with memoria := modificarMarco w.memoria i liberado }

/-- Whether an occupied frame holds a page of the File:Tag from page `k` on. -/
def esPaginaDesde (file tag : String) (k : ℕ) (f : Marco) : Bool :=
  !f.libre && f.file == some file && f.tag == some tag && decide (k ≤ f.pagina)

/-- (uint32_t) of the C quotient. -/
def paginasValidas (tamanio : ℤ) : ℕ := (Int.tdiv tamanio ram.pageSize % 2 ^ 32).toNat

/-- A failed write back is only logged. -/
def liberarConFlush (file tag : String) (k : ℕ) (w : Worker σ) (i : ℕ) : Worker σ :=
  if (w.memoria.frames[i]?).any (esPaginaDesde file tag k) then
    liberarMarco (flushFrame ram srv w i).1 i
  else w

def liberarSinFlush (file tag : String) (w : Worker σ) (i : ℕ) : Worker σ :=
  if (w.memoria.frames[i]?).any (esPaginaDesde file tag 0) then liberarMarco w i else w

def ejecutarTruncate (e : Proceso σ) (inst : Instruccion) : Proceso σ × Bool :=
  if inst.arg1 = "" ∨ inst.arg2 = "" then (e, false)
  else
    let tamanio := atoi inst.arg2
    if Int.tmod tamanio ram.pageSize ≠ 0 then (e, false)
    else match conStorage e (srv.truncate e.worker.storage inst.arg1 tamanio) with
      | (e, false) => (e, false)
      | (e, true) => match separarFileTag inst.arg1 with
        | none => (e, false)
        | some (file, tag) =>
          ({ e with
              worker := (List.range e.frameCount).foldl
                (liberarConFlush ram srv file tag (paginasValidas ram tamanio)) e.worker }, true)

def ejecutarWrite (e : Proceso σ) (inst : Instruccion) : Proceso σ × Bool :=
  match separarFileTag inst.arg1, parseSizeTSafe inst.arg2 with
  | some (file, tag), some base =>
    if inst.arg3 = "" then (e, false)
    else
      let contenido := inst.arg3.toUTF8.data.toList
      let (w, _, ok) :=
        accederMemoria ram reloj srv e.worker ⟨file, tag, base, true, contenido⟩ contenido.length []
      ({ e with worker := w }, ok)
  | _, _ => (e, false)

variable {ram reloj srv} in
/-- A WRITE with a part missing is not executed. -/
theorem ejecutarWrite_malFormado {e : Proceso σ} {inst : Instruccion}
    (h : separarFileTag inst.arg1 = none ∨ parseSizeTSafe inst.arg2 = none ∨ inst.arg3 = "") :
    ejecutarWrite ram reloj srv e inst = (e, false) := by
  unfold ejecutarWrite
  rcases h with hfileTag | hbase | hcontenido
  · rw [hfileTag]
  · rw [hbase]
    cases separarFileTag inst.arg1 <;> rfl
  · rw [hcontenido]
    cases separarFileTag inst.arg1 <;> cases parseSizeTSafe inst.arg2 <;> rfl

/-- The buffer comes from malloc; a successful access fills it. -/
def ejecutarRead (e : Proceso σ) (inst : Instruccion) : Proceso σ × Bool :=
  match separarFileTag inst.arg1, parseSizeTSafe inst.arg2, parseSizeTSafe inst.arg3 with
  | some (file, tag), some base, some tamanio =>
    let (w, _, ok) := accederMemoria ram reloj srv e.worker ⟨file, tag, base, false, []⟩ tamanio
      (List.replicate tamanio 0)
    ({ e with worker := w }, ok)
  | _, _, _ => (e, false)

variable {ram reloj srv} in
/-- A READ with a part missing is not executed. -/
theorem ejecutarRead_malFormado {e : Proceso σ} {inst : Instruccion}
    (h : separarFileTag inst.arg1 = none ∨ parseSizeTSafe inst.arg2 = none ∨
      parseSizeTSafe inst.arg3 = none) : ejecutarRead ram reloj srv e inst = (e, false) := by
  unfold ejecutarRead
  rcases h with hfileTag | hbase | htamanio
  · rw [hfileTag]
  · rw [hbase]
    cases separarFileTag inst.arg1 <;> rfl
  · rw [htamanio]
    cases separarFileTag inst.arg1 <;> cases parseSizeTSafe inst.arg2 <;> rfl

def ejecutarTag (e : Proceso σ) (inst : Instruccion) : Proceso σ × Bool :=
  if (separarFileTag inst.arg1).isNone ∨ (separarFileTag inst.arg2).isNone then (e, false)
  else conStorage e (srv.tag e.worker.storage inst.arg1 inst.arg2)

def ejecutarCommit (e : Proceso σ) (inst : Instruccion) : Proceso σ × Bool :=
  match separarFileTag inst.arg1 with
  | none => (e, false)
  | some (file, tag) => match flushFiletag ram srv e.worker file tag with
    | (w, false) => ({ e with worker := w }, false)
    | (w, true) => conStorage { e with worker := w } (srv.commit w.storage inst.arg1)

def ejecutarFlush (e : Proceso σ) (inst : Instruccion) : Proceso σ × Bool :=
  match separarFileTag inst.arg1 with
  | none => (e, false)
  | some (file, tag) => match flushFiletag ram srv e.worker file tag with
    | (w, false) => ({ e with worker := w }, false)
    | (w, true) => conStorage { e with worker := w } (srv.flush w.storage file tag)

def ejecutarDelete (e : Proceso σ) (inst : Instruccion) : Proceso σ × Bool :=
  match separarFileTag inst.arg1 with
  | none => (e, false)
  | some (file, tag) => match flushFiletag ram srv e.worker file tag with
    | (w, false) => ({ e with worker := w }, false)
    | (w, true) =>
      let w := (List.range e.frameCount).foldl (liberarSinFlush file tag) w
      conStorage { e with worker := w } (srv.delete w.storage file tag)

/-- An instruction's effect; what it returns is only logged. -/
def ejecutarInstruccion (e : Proceso σ) (inst : Instruccion) : Proceso σ :=
  if inst.comando = "CREATE" then (ejecutarCreate srv e inst).1
  else if inst.comando = "TRUNCATE" then (ejecutarTruncate ram srv e inst).1
  else if inst.comando = "WRITE" then (ejecutarWrite ram reloj srv e inst).1
  else if inst.comando = "READ" then (ejecutarRead ram reloj srv e inst).1
  else if inst.comando = "TAG" then (ejecutarTag srv e inst).1
  else if inst.comando = "COMMIT" then (ejecutarCommit ram srv e inst).1
  else if inst.comando = "FLUSH" then (ejecutarFlush ram srv e inst).1
  else if inst.comando = "DELETE" then (ejecutarDelete ram srv e inst).1
  else e

/-- What a Worker does between two instructions: execute one, or flush everything
when the Master takes its query away. -/
inductive Evento
  | instruccion (inst : Instruccion)
  | desalojo

def ejecutarEvento (e : Proceso σ) : Evento → Proceso σ
  | .instruccion inst => ejecutarInstruccion ram reloj srv e inst
  | .desalojo => { e with worker := (flushTodosFiletagsModificados ram srv e.worker).1 }

def procesoInicial (st : σ) : Proceso σ := ⟨⟨inicializarMemoria ram, st⟩, 0⟩

/-- The state of a Worker after some events, from a Storage in state `st`. -/
def procesoTras (st : σ) (evs : List Evento) : Proceso σ :=
  evs.foldl (ejecutarEvento ram reloj srv) (procesoInicial ram st)

def ProcesoAlcanzable (e : Proceso σ) : Prop := ∃ st evs, e = procesoTras ram reloj srv st evs

end Instrucciones

end MasterOfFiles.WorkerInstructions
