import MasterOfFiles.HandlerSimulation
import MasterOfFiles.NameResolution

/-!
Whole Queries on the Worker's memory against the same Queries on flat byte arrays. The
functions behind the instructions are the Worker's on one side; on the other a WRITE puts
its bytes into an array, a READ takes them out, and nothing else does anything. In front
of a Storage that keeps what it is sent, what a Worker answers to any stream from the
Master is what the arrays answer: frames, pages, victims, flushes and clocks do not show.
-/
namespace MasterOfFiles.TransparentQueries

open ByteBuffers QueryText QueryRuns ReadReports WorkerLoop WorkerMemory PagingSimulation
open TransparentPaging HandlerSimulation
open FrameTables (Clave)
open StorageMessages (texto)
open NameResolution (separarFileTag separarFileTag_texto)
open WorkerMessages (Lectura)
open WorkerInstructions (Proceso procesoInicial conStorage parseSizeTSafe)

section Ejecutores

variable {σ : Type*} (ram : Ram) (reloj : Reloj) (srv : Servidor σ)

/-- The fields of an instruction, one character a byte. -/
def enTexto (inst : Instruccion) : WorkerInstructions.Instruccion :=
  ⟨texto inst.comando, texto inst.arg1, texto inst.arg2, texto inst.arg3⟩

def ejecutarCreate (e : Proceso σ) (inst : Instruccion) : Proceso σ :=
  if inst.arg1.length ≤ 1 then e
  else (conStorage e (srv.create e.worker.storage (texto inst.arg1))).1

def ejecutarWrite (e : Proceso σ) (inst : Instruccion) : Proceso σ :=
  match separarFileTag inst.arg1, parseSizeTSafe (texto inst.arg2) with
  | some (file, tag), some base =>
    if inst.arg3 = [] then e
    else { e with
      worker := (accederMemoria ram reloj srv e.worker ⟨texto file, texto tag, base, true,
        inst.arg3⟩ inst.arg3.length []).1 }
  | _, _ => e

/-- The packet of a READ that succeeded. One whose bytes do not fit in a packet is left out. -/
def respReadOk (filetag contenido : Bytes) : Option Lectura :=
  if h : 0 ∉ filetag ∧ filetag.length + contenido.length + 17 < 2 ^ 31 - 8 then
    some ⟨filetag, contenido, h.1, h.2⟩
  else none

/-- The buffer comes from malloc; a successful access fills it. -/
def ejecutarRead (e : Proceso σ) (inst : Instruccion) : Proceso σ × Option (Option Lectura) :=
  match separarFileTag inst.arg1, parseSizeTSafe (texto inst.arg2),
      parseSizeTSafe (texto inst.arg3) with
  | some (file, tag), some base, some tamanio =>
    match accederMemoria ram reloj srv e.worker ⟨texto file, texto tag, base, false, []⟩ tamanio
        (List.replicate tamanio 0) with
    | (w, leido, true) => ({ e with worker := w }, (respReadOk inst.arg1 leido).map some)
    | (w, _, false) => ({ e with worker := w }, some none)
  | _, _, _ => (e, none)

/-- The Worker's own functions. -/
def ejecutores : Ejecutores (Proceso σ) where
  create := ejecutarCreate srv
  truncate e inst := (WorkerInstructions.ejecutarTruncate ram srv e (enTexto inst)).1
  write := ejecutarWrite ram reloj srv
  read := ejecutarRead ram reloj srv
  tag e inst := (WorkerInstructions.ejecutarTag srv e (enTexto inst)).1
  commit e inst := (WorkerInstructions.ejecutarCommit ram srv e (enTexto inst)).1
  flush e inst := (WorkerInstructions.ejecutarFlush ram srv e (enTexto inst)).1
  delete e inst := (WorkerInstructions.ejecutarDelete ram srv e (enTexto inst)).1
  flushTodosFiletagsModificados e :=
    { e with worker := (flushTodosFiletagsModificados ram srv e.worker).1 }

end Ejecutores

section Planos

/-- What a WRITE is for. -/
def escribirPlano (plano : Plano) (inst : Instruccion) : Plano :=
  match separarFileTag inst.arg1, parseSizeTSafe (texto inst.arg2) with
  | some (file, tag), some base =>
    Function.update plano (texto file, texto tag)
      (overlay (plano (texto file, texto tag)) base inst.arg3)
  | _, _ => plano

/-- What a READ is for. -/
def leerPlano (plano : Plano) (inst : Instruccion) : Option Lectura :=
  match separarFileTag inst.arg1, parseSizeTSafe (texto inst.arg2),
      parseSizeTSafe (texto inst.arg3) with
  | some (file, tag), some base, some tamanio =>
    respReadOk inst.arg1 (slice (plano (texto file, texto tag)) base tamanio)
  | _, _, _ => none

/-- The instructions on flat arrays. -/
def enPlano : Ejecutores Plano where
  create plano _ := plano
  truncate plano _ := plano
  write := escribirPlano
  read plano inst := (plano, (leerPlano plano inst).map some)
  tag plano _ := plano
  commit plano _ := plano
  flush plano _ := plano
  delete plano _ := plano
  flushTodosFiletagsModificados plano := plano

end Planos

section Simulacion

/-- No page of the File:Tag counts. -/
def Ajeno (paginas : String × String → ℕ) (arg : Bytes) : Prop :=
  ∀ p ∈ separarFileTag arg, paginas (texto p.1, texto p.2) = 0

def RangoValido (ram : Ram) (paginas : String × String → ℕ) (arg : Bytes) (base n : ℕ) : Prop :=
  ∀ p ∈ separarFileTag arg, base + n ≤ paginas (texto p.1, texto p.2) * ram.pageSize

/-- WRITEs and READs stay inside the pages there are, a READ asks for what a packet can
carry, and the sizes of these File:Tags stay what they are. -/
@[mk_iff]
structure Admitida (ram : Ram) (paginas : String × String → ℕ) (inst : Instruccion) : Prop where
  truncate : inst.comando = letras "TRUNCATE" → Ajeno paginas inst.arg1
  write : inst.comando = letras "WRITE" → ∀ base ∈ parseSizeTSafe (texto inst.arg2),
    RangoValido ram paginas inst.arg1 base inst.arg3.length
  read : inst.comando = letras "READ" → ∀ base ∈ parseSizeTSafe (texto inst.arg2),
    ∀ n ∈ parseSizeTSafe (texto inst.arg3), RangoValido ram paginas inst.arg1 base n ∧
      inst.arg1.length + n + 17 < 2 ^ 31 - 8
  delete : inst.comando = letras "DELETE" → Ajeno paginas inst.arg1

/-- A Storage that keeps what it is sent, and whose pages no other request changes. A
TRUNCATE or a DELETE may be about a File:Tag without pages only. -/
structure StorageEstable {σ : Type*} (srv : Servidor σ) (ram : Ram)
    (paginas : String × String → ℕ) (contenido : σ → Clave → Bytes) : Prop
    extends StorageFiel srv ram paginas contenido where
  create : ∀ st a k, Valida paginas k → contenido (srv.create st a).1 k = contenido st k
  truncate : ∀ st a n, (∀ p ∈ WorkerInstructions.separarFileTag a, paginas p = 0) →
    ∀ k, Valida paginas k → contenido (srv.truncate st a n).1 k = contenido st k
  tag : ∀ st a a' k, Valida paginas k → contenido (srv.tag st a a').1 k = contenido st k
  commit : ∀ st a k, Valida paginas k → contenido (srv.commit st a).1 k = contenido st k
  flush : ∀ st f t k, Valida paginas k → contenido (srv.flush st f t).1 k = contenido st k
  delete : ∀ st f t, paginas (f, t) = 0 →
    ∀ k, Valida paginas k → contenido (srv.delete st f t).1 k = contenido st k

/-- The Worker's memory and its Storage stand for the arrays; FRAME_COUNT is never set. -/
structure Representa {σ : Type*} (ram : Ram) (paginas : String × String → ℕ)
    (contenido : σ → Clave → Bytes) (e : Proceso σ) (plano : Plano) : Prop where
  simula : Simula ram paginas contenido e.worker plano
  frameCount : e.frameCount = 0

variable {σ : Type*} {ram : Ram} {srv : Servidor σ}
  {paginas : String × String → ℕ} {contenido : σ → Clave → Bytes} {e : Proceso σ} {plano : Plano}
  {inst : Instruccion}

theorem Representa.sinMarcos (h : Representa ram paginas contenido e plano) :
    List.range e.frameCount = [] := by
  rw [h.frameCount]
  exact List.range_zero

/-- A request that changes no page leaves the arrays as they were. -/
theorem Representa.conStorage (h : Representa ram paginas contenido e plano) {r : σ × Bool}
    (hr : ∀ k, Valida paginas k → contenido r.1 k = contenido e.worker.storage k) :
    Representa ram paginas contenido (conStorage e r).1 plano where
  simula := ⟨h.simula.ordenada, h.simula.largo, h.simula.representa.congr_store hr⟩
  frameCount := h.frameCount

theorem representa_create (hest : StorageEstable srv ram paginas contenido)
    (h : Representa ram paginas contenido e plano) (inst : Instruccion) :
    Representa ram paginas contenido (ejecutarCreate srv e inst) plano := by
  unfold ejecutarCreate
  split_ifs
  · exact h
  · exact h.conStorage (hest.create _ _)

theorem ajeno_texto {arg : Bytes} (h : Ajeno paginas arg) :
    ∀ p ∈ WorkerInstructions.separarFileTag (texto arg), paginas p = 0 := by
  rw [separarFileTag_texto]
  intro p hp
  obtain ⟨q, hq, rfl⟩ := Option.map_eq_some_iff.mp hp
  exact h q hq

/-- Behind the answer there is a loop over FRAME_COUNT frames, none. -/
theorem representa_truncate (hest : StorageEstable srv ram paginas contenido)
    (h : Representa ram paginas contenido e plano) (hinst : Ajeno paginas inst.arg1) :
    Representa ram paginas contenido
      (WorkerInstructions.ejecutarTruncate ram srv e (enTexto inst)).1 plano := by
  have hpedido := h.conStorage (r := srv.truncate e.worker.storage (texto inst.arg1)
    (ConfigText.atoi (texto inst.arg2))) (hest.truncate _ _ _ (ajeno_texto hinst))
  unfold WorkerInstructions.ejecutarTruncate
  split
  · exact h
  · dsimp only
    split
    · exact h
    · split
      · next heq =>
        exact (congrArg Prod.fst heq) ▸ hpedido
      · next heq =>
        have hpedido := (congrArg Prod.fst heq) ▸ hpedido
        split
        · exact hpedido
        · rw [hpedido.sinMarcos]
          exact hpedido

theorem representa_tag (hest : StorageEstable srv ram paginas contenido)
    (h : Representa ram paginas contenido e plano) (inst : WorkerInstructions.Instruccion) :
    Representa ram paginas contenido (WorkerInstructions.ejecutarTag srv e inst).1 plano := by
  unfold WorkerInstructions.ejecutarTag
  split_ifs
  · exact h
  · exact h.conStorage (hest.tag _ _ _)

/-- The flush in front of COMMIT, FLUSH and DELETE succeeds. -/
theorem representa_flushFiletag (hest : StorageEstable srv ram paginas contenido)
    (h : Representa ram paginas contenido e plano) (file tag : String) :
    ∃ w, flushFiletag ram srv e.worker file tag = (w, true) ∧
      Representa ram paginas contenido { e with worker := w } plano := by
  obtain ⟨hend, hsim, -⟩ := flushFiletag_simula hest.toStorageFiel h.simula file tag
  exact ⟨_, Prod.ext rfl hend, hsim, h.frameCount⟩

theorem representa_commit (hest : StorageEstable srv ram paginas contenido)
    (h : Representa ram paginas contenido e plano) (inst : WorkerInstructions.Instruccion) :
    Representa ram paginas contenido (WorkerInstructions.ejecutarCommit ram srv e inst).1
      plano := by
  unfold WorkerInstructions.ejecutarCommit
  split
  · exact h
  · next file tag _ =>
    obtain ⟨w, hflush, hw⟩ := representa_flushFiletag hest h file tag
    rw [hflush]
    exact hw.conStorage (hest.commit _ _)

theorem representa_flush (hest : StorageEstable srv ram paginas contenido)
    (h : Representa ram paginas contenido e plano) (inst : WorkerInstructions.Instruccion) :
    Representa ram paginas contenido (WorkerInstructions.ejecutarFlush ram srv e inst).1
      plano := by
  unfold WorkerInstructions.ejecutarFlush
  split
  · exact h
  · next file tag _ =>
    obtain ⟨w, hflush, hw⟩ := representa_flushFiletag hest h file tag
    rw [hflush]
    exact hw.conStorage (hest.flush _ _ _)

theorem representa_delete (hest : StorageEstable srv ram paginas contenido)
    (h : Representa ram paginas contenido e plano) (hinst : Ajeno paginas inst.arg1) :
    Representa ram paginas contenido
      (WorkerInstructions.ejecutarDelete ram srv e (enTexto inst)).1 plano := by
  unfold WorkerInstructions.ejecutarDelete
  split
  · exact h
  · next file tag hseparar =>
    obtain ⟨w, hflush, hw⟩ := representa_flushFiletag hest h file tag
    rw [hflush]
    dsimp only
    rw [h.sinMarcos]
    exact hw.conStorage (hest.delete _ _ _ (ajeno_texto hinst _ hseparar))

theorem representa_flushTodos (hest : StorageEstable srv ram paginas contenido)
    (h : Representa ram paginas contenido e plano) :
    Representa ram paginas contenido
      { e with worker := (flushTodosFiletagsModificados ram srv e.worker).1 } plano :=
  ⟨(flushTodos_simula hest.toStorageFiel h.simula).2.1, h.frameCount⟩

/-- A WRITE leaves memory and Storage standing for the arrays with its bytes in them. -/
theorem representa_write (reloj : Reloj) (hest : StorageEstable srv ram paginas contenido)
    (hmarcos : 0 < ram.frames) (h : Representa ram paginas contenido e plano)
    (hinst : ∀ base ∈ parseSizeTSafe (texto inst.arg2),
      RangoValido ram paginas inst.arg1 base inst.arg3.length) :
    Representa ram paginas contenido (ejecutarWrite ram reloj srv e inst)
      (escribirPlano plano inst) := by
  unfold ejecutarWrite escribirPlano
  cases hseparar : separarFileTag inst.arg1 with
  | none => exact h
  | some p =>
    obtain ⟨file, tag⟩ := p
    cases hbase : parseSizeTSafe (texto inst.arg2) with
    | none => exact h
    | some base =>
      dsimp only
      split_ifs with hvacio
      · rw [hvacio, overlay_nil, Function.update_eq_self]
        exact h
      · obtain ⟨w, hllamar, hsim⟩ := llamar_simula reloj hest.toStorageFiel hmarcos h.simula
          (x := .escribir (texto file) (texto tag) base inst.arg3) (hinst base hbase _ hseparar)
        have hw : _ = w := congrArg Prod.fst hllamar
        exact ⟨hw ▸ hsim, h.frameCount⟩

theorem leer_simula {w : Worker σ} (reloj : Reloj) (hfiel : StorageFiel srv ram paginas contenido)
    (hmarcos : 0 < ram.frames) (h : Simula ram paginas contenido w plano) {file tag : String}
    {base n : ℕ} (hrango : base + n ≤ paginas (file, tag) * ram.pageSize) :
    ∃ w', accederMemoria ram reloj srv w ⟨file, tag, base, false, []⟩ n (List.replicate n 0) =
        (w', slice (plano (file, tag)) base n, true) ∧ Simula ram paginas contenido w' plano := by
  obtain ⟨w', hllamar, hsim⟩ := llamar_simula reloj hfiel hmarcos h
    (x := .leer file tag base (List.replicate n 0)) (by simpa [EnRango] using hrango)
  simp only [llamar, llamarPlano, List.length_replicate, Prod.mk.injEq, Option.some.injEq]
    at hllamar
  exact ⟨w', Prod.ext hllamar.1 (Prod.ext hllamar.2.1 hllamar.2.2), hsim⟩

/-- A READ reports what the arrays have there. -/
theorem representa_read (reloj : Reloj) (hest : StorageEstable srv ram paginas contenido)
    (hmarcos : 0 < ram.frames) (h : Representa ram paginas contenido e plano)
    (hinst : ∀ base ∈ parseSizeTSafe (texto inst.arg2), ∀ n ∈ parseSizeTSafe (texto inst.arg3),
      RangoValido ram paginas inst.arg1 base n) :
    Representa ram paginas contenido (ejecutarRead ram reloj srv e inst).1 plano ∧
      (ejecutarRead ram reloj srv e inst).2 = (leerPlano plano inst).map some := by
  unfold ejecutarRead leerPlano
  cases hseparar : separarFileTag inst.arg1 with
  | none => exact ⟨h, rfl⟩
  | some p =>
    obtain ⟨file, tag⟩ := p
    cases hbase : parseSizeTSafe (texto inst.arg2) with
    | none => exact ⟨h, rfl⟩
    | some base =>
      cases htamanio : parseSizeTSafe (texto inst.arg3) with
      | none => exact ⟨h, rfl⟩
      | some tamanio =>
        have hrango := hinst base hbase tamanio htamanio _ hseparar
        obtain ⟨w, hacceso, hsim⟩ := leer_simula reloj hest.toStorageFiel hmarcos h.simula hrango
        dsimp only
        rw [hacceso]
        exact ⟨⟨hsim, h.frameCount⟩, rfl⟩

/-- The Worker's functions keep pace with those of the arrays. -/
theorem imita_enPlano (reloj : Reloj) (hest : StorageEstable srv ram paginas contenido)
    (hmarcos : 0 < ram.frames) :
    Imita (Representa ram paginas contenido) (Admitida ram paginas) (ejecutores ram reloj srv)
      enPlano where
  create inst _ _ _ _ h := representa_create hest h inst
  truncate _ hinst hc _ _ h := representa_truncate hest h (hinst.truncate hc)
  write _ hinst hc _ _ h := representa_write reloj hest hmarcos h (hinst.write hc)
  read _ hinst hc _ _ h := representa_read reloj hest hmarcos h fun base hbase n hn =>
    (hinst.read hc base hbase n hn).1
  tag _ _ _ _ _ h := representa_tag hest h _
  commit _ _ _ _ _ h := representa_commit hest h _
  flush _ _ _ _ _ h := representa_flush hest h _
  delete _ hinst hc _ _ h := representa_delete hest h (hinst.delete hc)
  flushTodos _ _ h := representa_flushTodos hest h

/-- The loop before the first byte from the Master. -/
def bucleInicial {τ : Type*} (t : τ) : Bucle τ := ⟨⟨⟨[], 0⟩, t⟩, false, false⟩

/-- Over a Storage that keeps what it is sent a Worker does, for every stream from the
Master, what its Queries do to the flat arrays of the File:Tags. -/
theorem escuchar_enPlano (reloj : Reloj) (hest : StorageEstable srv ram paginas contenido)
    (hmarcos : 0 < ram.frames) {archivos : Bytes → Option Bytes}
    (harchivos : ArchivosAdmitidos (Admitida ram paginas) archivos) (pathQueries : Bytes)
    (st : σ) (b : Bytes) :
    escuchar (ejecutores ram reloj srv) archivos pathQueries
        (bucleInicial (procesoInicial ram st)) b =
      escuchar enPlano archivos pathQueries (bucleInicial (planoDe paginas (contenido st))) b := by
  refine escuchar_eq (imita_enPlano reloj hest hmarcos) harchivos ?_ b
  exact ⟨⟨rfl, simula_inicial hest.toStorageFiel st, rfl⟩, rfl, rfl⟩

end Simulacion

section Corrida

instance (paginas : String × String → ℕ) (arg : Bytes) : Decidable (Ajeno paginas arg) :=
  inferInstanceAs (Decidable (∀ p ∈ separarFileTag arg, paginas (texto p.1, texto p.2) = 0))

instance (ram : Ram) (paginas : String × String → ℕ) (arg : Bytes) (base n : ℕ) :
    Decidable (RangoValido ram paginas arg base n) :=
  inferInstanceAs (Decidable (∀ p ∈ separarFileTag arg,
    base + n ≤ paginas (texto p.1, texto p.2) * ram.pageSize))

instance (ram : Ram) (paginas : String × String → ℕ) :
    DecidablePred (Admitida ram paginas) := fun inst =>
  decidable_of_iff _ (admitida_iff ram paginas inst).symm

/-- Three bytes over the border of two pages, and six read back. -/
def escribeYLee : Bytes := letras "WRITE a:b 1 xyz\nREAD a:b 0 6\nEND\n"

theorem storageEstable_chico :
    StorageEstable servidorChico ramChica paginasChicas contenidoChico where
  toStorageFiel := storageFiel_chico
  create _ _ _ _ := rfl
  truncate _ _ _ _ _ _ := rfl
  tag _ _ _ _ _ := rfl
  commit _ _ _ _ := rfl
  flush _ _ _ _ _ := rfl
  delete _ _ _ _ _ _ := rfl

theorem admite_escribeYLee : Admite (Admitida ramChica paginasChicas) escribeYLee := by
  unfold Admite
  decide +kernel

theorem escuchar_enPlano_chico :
    let mensaje := Packets.enviarPaquete Packets.opEnviarPath
      [Packets.bytesEntero 0, Packets.bytesEntero 0, [113, 0]]
    escuchar (ejecutores ramChica relojParado servidorChico) (fun _ => some escribeYLee) []
        (bucleInicial (procesoInicial ramChica fun _ => [])) mensaje =
      escuchar enPlano (fun _ => some escribeYLee) []
        (bucleInicial (planoDe paginasChicas (contenidoChico fun _ => []))) mensaje := by
  refine escuchar_enPlano relojParado storageEstable_chico (by decide) ?_ [] _ _
  intro path contenido h
  exact Option.some.inj h ▸ admite_escribeYLee

/-- The zeros of the File:Tag around the bytes written. -/
example : (leerPlano (escribirPlano (planoDe paginasChicas (contenidoChico fun _ => []))
    (parsearInstruccion (letras "WRITE a:b 1 xyz")))
      (parsearInstruccion (letras "READ a:b 0 6"))).map Lectura.contenido =
    some [0, 120, 121, 122, 0, 0] := by
  decide +kernel

end Corrida

end MasterOfFiles.TransparentQueries
