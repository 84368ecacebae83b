import MasterOfFiles.TransparentQueries

/-!
One Worker in front of two Storages. Where the answers of one are those of the other
under a map of their states, everything the Worker does with them is the same too. So a
Storage may be cut down to the states that keep a property, as long as the requests the
Queries make keep it, and what holds of the small one holds of runs of the large one.
-/
namespace MasterOfFiles.ServerMorphisms

open ByteBuffers PartialRuns QueryText ReadReports WorkerLoop WorkerMemory
open HandlerSimulation TransparentQueries
open WorkerInstructions (Proceso conStorage)

variable {σ τ : Type*}

section Bucles

variable {ι : Type*} {φ : τ → σ} {body : σ → ι → σ × Bool} {body' : τ → ι → τ × Bool}

/-- A loop whose rounds correspond stops in states that correspond. -/
theorem untilFalse_imagen (h : ∀ t x, body (φ t) x = Prod.map φ id (body' t x)) (t : τ)
    (xs : List ι) : untilFalse body (φ t) xs = Prod.map φ id (untilFalse body' t xs) := by
  induction xs generalizing t with
  | nil => rfl
  | cons x xs ih =>
    simp only [untilFalse, h t x]
    cases body' t x with
    | mk t' seguir =>
      cases seguir with
      | true => exact ih t'
      | false => rfl

end Bucles

section Memoria

/-- `srv` answers what `srv'` does: the TRUNCATEs in `truncable`, the DELETEs in `borrable`,
and whatever else it is asked. -/
structure Morfismo (φ : τ → σ) (srv' : Servidor τ) (srv : Servidor σ)
    (truncable : String → ℤ → Prop) (borrable : String × String → Prop) : Prop where
  readBlock : ∀ st nombre p,
    srv.readBlock (φ st) nombre p = Prod.map φ id (srv'.readBlock st nombre p)
  writeBlock : ∀ st f t p b,
    srv.writeBlock (φ st) f t p b = Prod.map φ id (srv'.writeBlock st f t p b)
  create : ∀ st a, srv.create (φ st) a = Prod.map φ id (srv'.create st a)
  truncate : ∀ st a n, truncable a n →
    srv.truncate (φ st) a n = Prod.map φ id (srv'.truncate st a n)
  tag : ∀ st a a', srv.tag (φ st) a a' = Prod.map φ id (srv'.tag st a a')
  commit : ∀ st a, srv.commit (φ st) a = Prod.map φ id (srv'.commit st a)
  flush : ∀ st f t, srv.flush (φ st) f t = Prod.map φ id (srv'.flush st f t)
  delete : ∀ st f t, borrable (f, t) → srv.delete (φ st) f t = Prod.map φ id (srv'.delete st f t)

/-- The Worker with the image of its Storage. -/
def imagen (φ : τ → σ) (w : Worker τ) : Worker σ := ⟨w.memoria, φ w.storage⟩

@[simp] theorem memoria_imagen (φ : τ → σ) (w : Worker τ) : (imagen φ w).memoria = w.memoria :=
  rfl

@[simp] theorem storage_imagen (φ : τ → σ) (w : Worker τ) :
    (imagen φ w).storage = φ w.storage := rfl

variable {φ : τ → σ} {srv' : Servidor τ} {srv : Servidor σ} {truncable : String → ℤ → Prop}
  {borrable : String × String → Prop}
variable (h : Morfismo φ srv' srv truncable borrable) (ram : Ram) (reloj : Reloj)
include h

theorem escribirPagina_imagen (w : Worker τ) (file tag : String) (nroPag : ℕ) (pagina : Bytes) :
    escribirPaginaStorage srv (imagen φ w) file tag nroPag pagina =
      Prod.map (imagen φ) id (escribirPaginaStorage srv' w file tag nroPag pagina) := by
  have hescribe := h.writeBlock w.storage file tag nroPag pagina
  simp only [escribirPaginaStorage, imagen, hescribe]
  rfl

theorem lecturaPagina_imagen (w : Worker τ) (file tag : String) (nroPag base : ℕ) :
    lecturaPaginaStorage ram srv (imagen φ w) file tag nroPag base =
      Prod.map (imagen φ) id (lecturaPaginaStorage ram srv' w file tag nroPag base) := by
  have hlee := h.readBlock w.storage (file ++ ":" ++ tag) nroPag
  simp only [lecturaPaginaStorage, imagen, hlee]
  cases srv'.readBlock w.storage (file ++ ":" ++ tag) nroPag with
  | mk st leido => cases leido <;> rfl

theorem volcarMarco_imagen (w : Worker τ) (i : ℕ) (f : Marco) :
    volcarMarco ram srv (imagen φ w) i f =
      Prod.map (imagen φ) id (volcarMarco ram srv' w i f) := by
  unfold volcarMarco
  split
  · next file tag _ _ =>
    rw [escribirPagina_imagen h, memoria_imagen]
    cases escribirPaginaStorage srv' w file tag f.pagina
      (slice w.memoria.direccionBase f.base ram.pageSize) with
    | mk w₁ ok => cases ok <;> rfl
  · rfl

theorem volcarSi_imagen (p : Marco → Bool) (w : Worker τ) (i : ℕ) :
    volcarSi ram srv p (imagen φ w) i = Prod.map (imagen φ) id (volcarSi ram srv' p w i) := by
  unfold volcarSi
  rw [memoria_imagen]
  cases w.memoria.frames[i]? with
  | none => rfl
  | some f =>
    dsimp only
    split_ifs
    · exact volcarMarco_imagen h ram w i f
    · rfl

theorem flushFiletag_imagen (w : Worker τ) (file tag : String) :
    flushFiletag ram srv (imagen φ w) file tag =
      Prod.map (imagen φ) id (flushFiletag ram srv' w file tag) :=
  untilFalse_imagen (volcarSi_imagen h ram _) w _

theorem flushSiModificado_imagen (w : Worker τ) (i : ℕ) :
    flushSiModificado ram srv (imagen φ w) i =
      Prod.map (imagen φ) id (flushSiModificado ram srv' w i) := by
  unfold flushSiModificado
  rw [memoria_imagen]
  cases w.memoria.frames[i]? with
  | none => rfl
  | some f =>
    dsimp only
    split
    · split_ifs
      · exact flushFiletag_imagen h ram w _ _
      · rfl
    · rfl

theorem flushTodos_imagen (w : Worker τ) :
    flushTodosFiletagsModificados ram srv (imagen φ w) =
      Prod.map (imagen φ) id (flushTodosFiletagsModificados ram srv' w) :=
  untilFalse_imagen (flushSiModificado_imagen h ram) w _

theorem desalojar_imagen (w : Worker τ) (victima : ℕ) :
    desalojar ram srv (imagen φ w) victima =
      Prod.map (imagen φ) id (desalojar ram srv' w victima) := by
  unfold desalojar flushFrame
  rw [volcarSi_imagen h ram]
  cases volcarSi ram srv' (fun f => !f.libre && f.dirty) w victima with
  | mk w₁ ok => cases ok <;> rfl

theorem elegirMarco_imagen (w : Worker τ) :
    elegirMarco ram srv (imagen φ w) = Prod.map (imagen φ) id (elegirMarco ram srv' w) := by
  unfold elegirMarco
  rw [memoria_imagen]
  cases buscarMarcoLibre w.memoria with
  | some marco => rfl
  | none =>
    cases elegirAlgoritmo ram w.memoria with
    | mk m victima =>
      cases victima with
      | none => rfl
      | some v => exact desalojar_imagen h ram { w with memoria := m } v

theorem cargarPagina_imagen (w : Worker τ) (marco : ℕ) (file tag : String) (nroPag : ℕ) :
    cargarPagina ram reloj srv (imagen φ w) marco file tag nroPag =
      Prod.map (imagen φ) id (cargarPagina ram reloj srv' w marco file tag nroPag) := by
  unfold cargarPagina
  rw [lecturaPagina_imagen h, memoria_imagen]
  cases lecturaPaginaStorage ram srv' w file tag nroPag (baseDe w.memoria marco) with
  | mk w₁ ok => cases ok <;> rfl

/-- A page is found, or a frame is chosen for it and filled. -/
theorem traerPagina_imagen (w : Worker τ) (file tag : String) (nroPag : ℕ) :
    traerPagina ram reloj srv (imagen φ w) file tag nroPag =
      Prod.map (imagen φ) id (traerPagina ram reloj srv' w file tag nroPag) := by
  unfold traerPagina
  rw [memoria_imagen, elegirMarco_imagen h]
  cases w.memoria.frames.findIdx? (frameMatchea file tag nroPag) with
  | some i => rfl
  | none =>
    cases elegirMarco ram srv' w with
    | mk w₁ marco =>
      cases marco with
      | none => rfl
      | some i => exact cargarPagina_imagen h ram reloj w₁ i file tag nroPag

omit h in
theorem accederMarco_imagen (a : Acceso) (w : Worker τ) (marco : ℕ) (salida : Bytes)
    (desplaz chunk : ℕ) :
    accederMarco ram reloj a (imagen φ w) marco salida desplaz chunk =
      Prod.map (imagen φ) id (accederMarco ram reloj a w marco salida desplaz chunk) := by
  unfold accederMarco
  cases a.escribir <;> rfl

/-- The rounds of an access, on the same frames with the same bytes. -/
theorem accederDesde_imagen (a : Acceso) (rondas : ℕ) (w : Worker τ) (salida : Bytes)
    (desplaz restante : ℕ) :
    accederDesde ram reloj srv a rondas (imagen φ w) salida desplaz restante =
      Prod.map (imagen φ) id (accederDesde ram reloj srv' a rondas w salida desplaz restante) := by
  induction rondas generalizing w salida desplaz restante with
  | zero => rfl
  | succ rondas ih =>
    simp only [accederDesde]
    split_ifs
    · rfl
    · rw [traerPagina_imagen h]
      cases traerPagina ram reloj srv' w a.file a.tag (nroPagina ram (a.base + desplaz)) with
      | mk w₁ marco =>
        cases marco with
        | none => rfl
        | some i =>
          simp only [Prod.map_apply, id, accederMarco_imagen ram reloj a w₁ i]
          exact ih ..

theorem accederMemoria_imagen (w : Worker τ) (a : Acceso) (size : ℕ) (salida : Bytes) :
    accederMemoria ram reloj srv (imagen φ w) a size salida =
      Prod.map (imagen φ) id (accederMemoria ram reloj srv' w a size salida) :=
  accederDesde_imagen h ram reloj a size w salida 0 size

end Memoria

section Instrucciones

/-- The process with the image of its Storage. -/
def procesoImagen (φ : τ → σ) (e : Proceso τ) : Proceso σ := ⟨imagen φ e.worker, e.frameCount⟩

@[simp] theorem worker_procesoImagen (φ : τ → σ) (e : Proceso τ) :
    (procesoImagen φ e).worker = imagen φ e.worker := rfl

@[simp] theorem frameCount_procesoImagen (φ : τ → σ) (e : Proceso τ) :
    (procesoImagen φ e).frameCount = e.frameCount := rfl

theorem conStorage_imagen (φ : τ → σ) (e : Proceso τ) (r : τ × Bool) :
    conStorage (procesoImagen φ e) (Prod.map φ id r) =
      Prod.map (procesoImagen φ) id (conStorage e r) := rfl

variable {φ : τ → σ} {srv' : Servidor τ} {srv : Servidor σ} {truncable : String → ℤ → Prop}
  {borrable : String × String → Prop}
variable (h : Morfismo φ srv' srv truncable borrable) (ram : Ram)
include h

theorem liberarConFlush_imagen (file tag : String) (k : ℕ) (w : Worker τ) (i : ℕ) :
    WorkerInstructions.liberarConFlush ram srv file tag k (imagen φ w) i =
      imagen φ (WorkerInstructions.liberarConFlush ram srv' file tag k w i) := by
  unfold WorkerInstructions.liberarConFlush flushFrame
  rw [memoria_imagen, volcarSi_imagen h]
  split_ifs <;> rfl

omit h in
theorem liberarSinFlush_imagen (φ : τ → σ) (file tag : String) (w : Worker τ) (i : ℕ) :
    WorkerInstructions.liberarSinFlush file tag (imagen φ w) i =
      imagen φ (WorkerInstructions.liberarSinFlush file tag w i) := by
  unfold WorkerInstructions.liberarSinFlush
  rw [memoria_imagen]
  split_ifs <;> rfl

theorem ejecutarTruncate_imagen (e : Proceso τ) {inst : WorkerInstructions.Instruccion}
    (hinst : truncable inst.arg1 (ConfigText.atoi inst.arg2)) :
    WorkerInstructions.ejecutarTruncate ram srv (procesoImagen φ e) inst =
      Prod.map (procesoImagen φ) id (WorkerInstructions.ejecutarTruncate ram srv' e inst) := by
  unfold WorkerInstructions.ejecutarTruncate
  split_ifs
  · rfl
  · dsimp only
    split_ifs
    · rfl
    · rw [worker_procesoImagen, storage_imagen, h.truncate _ _ _ hinst, conStorage_imagen]
      cases conStorage e (srv'.truncate e.worker.storage inst.arg1 (ConfigText.atoi inst.arg2)) with
      | mk e₁ ok =>
        cases ok with
        | false => rfl
        | true =>
          cases WorkerInstructions.separarFileTag inst.arg1 with
          | none => rfl
          | some p =>
            simp only [Prod.map_apply, id, worker_procesoImagen,
              List.foldl_hom (imagen φ) (liberarConFlush_imagen h ram p.1 p.2 _)]
            rfl

theorem ejecutarTag_imagen (e : Proceso τ) (inst : WorkerInstructions.Instruccion) :
    WorkerInstructions.ejecutarTag srv (procesoImagen φ e) inst =
      Prod.map (procesoImagen φ) id (WorkerInstructions.ejecutarTag srv' e inst) := by
  unfold WorkerInstructions.ejecutarTag
  split_ifs
  · rfl
  · rw [worker_procesoImagen, storage_imagen, h.tag, conStorage_imagen]

theorem ejecutarCommit_imagen (e : Proceso τ) (inst : WorkerInstructions.Instruccion) :
    WorkerInstructions.ejecutarCommit ram srv (procesoImagen φ e) inst =
      Prod.map (procesoImagen φ) id (WorkerInstructions.ejecutarCommit ram srv' e inst) := by
  unfold WorkerInstructions.ejecutarCommit
  cases WorkerInstructions.separarFileTag inst.arg1 with
  | none => rfl
  | some p =>
    simp only [worker_procesoImagen, flushFiletag_imagen h]
    cases flushFiletag ram srv' e.worker p.1 p.2 with
    | mk w ok =>
      cases ok with
      | false => rfl
      | true =>
        simp only [Prod.map_apply, id, storage_imagen, h.commit]
        rfl

theorem ejecutarFlush_imagen (e : Proceso τ) (inst : WorkerInstructions.Instruccion) :
    WorkerInstructions.ejecutarFlush ram srv (procesoImagen φ e) inst =
      Prod.map (procesoImagen φ) id (WorkerInstructions.ejecutarFlush ram srv' e inst) := by
  unfold WorkerInstructions.ejecutarFlush
  cases WorkerInstructions.separarFileTag inst.arg1 with
  | none => rfl
  | some p =>
    simp only [worker_procesoImagen, flushFiletag_imagen h]
    cases flushFiletag ram srv' e.worker p.1 p.2 with
    | mk w ok =>
      cases ok with
      | false => rfl
      | true =>
        simp only [Prod.map_apply, id, storage_imagen, h.flush]
        rfl

theorem ejecutarDelete_imagen (e : Proceso τ) {inst : WorkerInstructions.Instruccion}
    (hinst : ∀ p ∈ WorkerInstructions.separarFileTag inst.arg1, borrable p) :
    WorkerInstructions.ejecutarDelete ram srv (procesoImagen φ e) inst =
      Prod.map (procesoImagen φ) id (WorkerInstructions.ejecutarDelete ram srv' e inst) := by
  unfold WorkerInstructions.ejecutarDelete
  cases hseparar : WorkerInstructions.separarFileTag inst.arg1 with
  | none => rfl
  | some p =>
    simp only [worker_procesoImagen, flushFiletag_imagen h]
    cases flushFiletag ram srv' e.worker p.1 p.2 with
    | mk w ok =>
      cases ok with
      | false => rfl
      | true =>
        have hpedido (st : τ) := h.delete st p.1 p.2 (hinst p hseparar)
        simp only [Prod.map_apply, id, frameCount_procesoImagen,
          List.foldl_hom (imagen φ) (liberarSinFlush_imagen φ p.1 p.2), storage_imagen, hpedido]
        rfl

end Instrucciones

section Consultas

/-- The TRUNCATEs and the DELETEs of the instructions are among those given. -/
structure Permitida (truncable : String → ℤ → Prop) (borrable : String × String → Prop)
    (inst : Instruccion) : Prop where
  truncate : inst.comando = letras "TRUNCATE" →
    truncable (enTexto inst).arg1 (ConfigText.atoi (enTexto inst).arg2)
  delete : inst.comando = letras "DELETE" →
    ∀ p ∈ WorkerInstructions.separarFileTag (enTexto inst).arg1, borrable p

variable {φ : τ → σ} {srv' : Servidor τ} {srv : Servidor σ} {truncable : String → ℤ → Prop}
  {borrable : String × String → Prop}
variable (h : Morfismo φ srv' srv truncable borrable) (ram : Ram) (reloj : Reloj)
include h

theorem ejecutarCreate_imagen (e : Proceso τ) (inst : Instruccion) :
    ejecutarCreate srv (procesoImagen φ e) inst = procesoImagen φ (ejecutarCreate srv' e inst) := by
  unfold ejecutarCreate
  split_ifs
  · rfl
  · rw [worker_procesoImagen, storage_imagen, h.create, conStorage_imagen]
    rfl

theorem ejecutarWrite_imagen (e : Proceso τ) (inst : Instruccion) :
    ejecutarWrite ram reloj srv (procesoImagen φ e) inst =
      procesoImagen φ (ejecutarWrite ram reloj srv' e inst) := by
  unfold ejecutarWrite
  split
  · split_ifs
    · rfl
    · rw [worker_procesoImagen, accederMemoria_imagen h]
      rfl
  · rfl

theorem ejecutarRead_imagen (e : Proceso τ) (inst : Instruccion) :
    ejecutarRead ram reloj srv (procesoImagen φ e) inst =
      Prod.map (procesoImagen φ) id (ejecutarRead ram reloj srv' e inst) := by
  unfold ejecutarRead
  split
  · next file tag base tamanio _ _ _ =>
    rw [worker_procesoImagen, accederMemoria_imagen h]
    cases accederMemoria ram reloj srv' e.worker
        ⟨StorageMessages.texto file, StorageMessages.texto tag, base, false, []⟩ tamanio
        (List.replicate tamanio 0) with
    | mk w r =>
      obtain ⟨leido, ok⟩ := r
      cases ok <;> rfl
  · rfl

omit h in
theorem conserva_imagen {f : Proceso σ → Proceso σ} {g : Proceso τ → Proceso τ}
    (hfg : ∀ e, f (procesoImagen φ e) = procesoImagen φ (g e)) :
    Conserva (fun e e' => e = procesoImagen φ e') f g := by
  rintro _ e rfl
  exact hfg e

omit h in
theorem conserva_fst_imagen {f : Proceso σ → Proceso σ × Bool} {g : Proceso τ → Proceso τ × Bool}
    (hfg : ∀ e, f (procesoImagen φ e) = Prod.map (procesoImagen φ) id (g e)) :
    Conserva (fun e e' => e = procesoImagen φ e') (fun e => (f e).1) (fun e => (g e).1) :=
  conserva_imagen fun e => congrArg Prod.fst (hfg e)

/-- The Worker keeps pace with itself over the other Storage. -/
theorem imita_imagen : Imita (fun e e' => e = procesoImagen φ e') (Permitida truncable borrable)
    (ejecutores ram reloj srv) (ejecutores ram reloj srv') where
  create inst _ _ := conserva_imagen fun e => ejecutarCreate_imagen h e inst
  truncate _ hinst hc := conserva_fst_imagen fun e =>
    ejecutarTruncate_imagen h ram e (hinst.truncate hc)
  write inst _ _ := conserva_imagen fun e => ejecutarWrite_imagen h ram reloj e inst
  read inst _ _ _ e he := he ▸ Prod.ext_iff.mp (ejecutarRead_imagen h ram reloj e inst)
  tag inst _ _ := conserva_fst_imagen fun e => ejecutarTag_imagen h e (enTexto inst)
  commit inst _ _ := conserva_fst_imagen fun e => ejecutarCommit_imagen h ram e (enTexto inst)
  flush inst _ _ := conserva_fst_imagen fun e => ejecutarFlush_imagen h ram e (enTexto inst)
  delete _ hinst hc := conserva_fst_imagen fun e =>
    ejecutarDelete_imagen h ram e (hinst.delete hc)
  flushTodos := conserva_imagen fun e =>
    congrArg (fun r => ({ procesoImagen φ e with worker := r.1 } : Proceso σ))
      (flushTodos_imagen h ram e.worker)

/-- A stream from the Master does the same over both. -/
theorem escuchar_imagen {archivos : Bytes → Option Bytes}
    (harchivos : ArchivosAdmitidos (Permitida truncable borrable) archivos)
    (pathQueries : Bytes) (st : τ) (b : Bytes) :
    escuchar (ejecutores ram reloj srv) archivos pathQueries
        (bucleInicial (WorkerInstructions.procesoInicial ram (φ st))) b =
      escuchar (ejecutores ram reloj srv') archivos pathQueries
        (bucleInicial (WorkerInstructions.procesoInicial ram st)) b :=
  escuchar_eq (imita_imagen h ram reloj) harchivos ⟨⟨rfl, rfl⟩, rfl, rfl⟩ b

end Consultas

section Restringido

/-- The requests keep the property, among the TRUNCATEs and the DELETEs those given. -/
structure Cerrado (srv : Servidor σ) (I : σ → Prop) (truncable : String → ℤ → Prop)
    (borrable : String × String → Prop) : Prop where
  readBlock : ∀ st nombre p, I st → I (srv.readBlock st nombre p).1
  writeBlock : ∀ st f t p b, I st → I (srv.writeBlock st f t p b).1
  create : ∀ st a, I st → I (srv.create st a).1
  truncate : ∀ st a n, truncable a n → I st → I (srv.truncate st a n).1
  tag : ∀ st a a', I st → I (srv.tag st a a').1
  commit : ∀ st a, I st → I (srv.commit st a).1
  flush : ∀ st f t, I st → I (srv.flush st f t).1
  delete : ∀ st f t, borrable (f, t) → I st → I (srv.delete st f t).1

open Classical in
/-- What would leave the property leaves the state as it was. -/
noncomputable def dentro {α : Type*} {I : σ → Prop} (st : { s // I s }) (r : σ × α) :
    { s // I s } × α :=
  (if h : I r.1 then ⟨r.1, h⟩ else st, r.2)

theorem dentro_eq {α : Type*} {I : σ → Prop} (st : { s // I s }) {r : σ × α} (h : I r.1) :
    dentro st r = (⟨r.1, h⟩, r.2) := by
  unfold dentro
  rw [dif_pos h]

theorem map_dentro {α : Type*} {I : σ → Prop} (st : { s // I s }) {r : σ × α} (h : I r.1) :
    Prod.map Subtype.val id (dentro st r) = r := by
  rw [dentro_eq st h]
  rfl

/-- The server on the states with the property. -/
noncomputable def restringido (srv : Servidor σ) (I : σ → Prop) : Servidor { s // I s } where
  readBlock st nombre p := dentro st (srv.readBlock st nombre p)
  writeBlock st f t p b := dentro st (srv.writeBlock st f t p b)
  create st a := dentro st (srv.create st a)
  truncate st a n := dentro st (srv.truncate st a n)
  tag st a a' := dentro st (srv.tag st a a')
  commit st a := dentro st (srv.commit st a)
  flush st f t := dentro st (srv.flush st f t)
  delete st f t := dentro st (srv.delete st f t)

theorem morfismo_restringido {srv : Servidor σ} {I : σ → Prop}
    {truncable : String → ℤ → Prop} {borrable : String × String → Prop}
    (h : Cerrado srv I truncable borrable) :
    Morfismo Subtype.val (restringido srv I) srv truncable borrable where
  readBlock st nombre p := (map_dentro st (h.readBlock st nombre p st.2)).symm
  writeBlock st f t p b := (map_dentro st (h.writeBlock st f t p b st.2)).symm
  create st a := (map_dentro st (h.create st a st.2)).symm
  truncate st a n hn := (map_dentro st (h.truncate st a n hn st.2)).symm
  tag st a a' := (map_dentro st (h.tag st a a' st.2)).symm
  commit st a := (map_dentro st (h.commit st a st.2)).symm
  flush st f t := (map_dentro st (h.flush st f t st.2)).symm
  delete st f t hft := (map_dentro st (h.delete st f t hft st.2)).symm

end Restringido

end MasterOfFiles.ServerMorphisms
