import MasterOfFiles.TransparentPaging
import MasterOfFiles.WorkerInstructions

/-!
Pages left in memory by TRUNCATE and DELETE. Nothing ever sets FRAME_COUNT, so
the loops that should drop pages look at no frame: pages of the File:Tag that
were in memory stay, and a File:Tag made again under the name is read from them.
-/
namespace MasterOfFiles.StalePages

open ByteBuffers ConfigText PartialRuns WorkerMemory FrameTables PagingSimulation
open TransparentPaging WorkerInstructions

variable {σ : Type*} {ram : Ram} {reloj : Reloj} {srv : Servidor σ} {e e' : Proceso σ}
  {inst : Instruccion} {file tag : String} {k : ℕ}

section FrameCount

theorem frameCount_truncate (ram : Ram) (srv : Servidor σ) (e : Proceso σ) (inst : Instruccion) :
    (ejecutarTruncate ram srv e inst).1.frameCount = e.frameCount := by
  unfold ejecutarTruncate conStorage
  split_ifs
  · rfl
  · dsimp only
    split_ifs
    · rfl
    · split
      · next heq => rw [← (Prod.mk.inj heq).1]
      · next heq =>
        split
        · rw [← (Prod.mk.inj heq).1]
        · rw [← (Prod.mk.inj heq).1]

/-- No instruction writes FRAME_COUNT. -/
theorem frameCount_evento (ram : Ram) (reloj : Reloj) (srv : Servidor σ) (e : Proceso σ)
    (ev : Evento) : (ejecutarEvento ram reloj srv e ev).frameCount = e.frameCount := by
  cases ev with
  | desalojo => rfl
  | instruccion inst =>
    unfold ejecutarEvento ejecutarInstruccion
    dsimp only
    split_ifs
    · unfold ejecutarCreate
      split_ifs <;> rfl
    · exact frameCount_truncate ram srv e inst
    · unfold ejecutarWrite
      split
      · split_ifs <;> rfl
      · rfl
    · unfold ejecutarRead
      split <;> rfl
    · unfold ejecutarTag
      split_ifs <;> rfl
    · unfold ejecutarCommit
      split
      · rfl
      · split <;> rfl
    · unfold ejecutarFlush
      split
      · rfl
      · split <;> rfl
    · unfold ejecutarDelete
      split
      · rfl
      · split <;> rfl
    · rfl

theorem frameCount_alcanzable (h : ProcesoAlcanzable ram reloj srv e) : e.frameCount = 0 := by
  obtain ⟨st, evs, rfl⟩ := h
  have hfold : ∀ (evs : List Evento) (e : Proceso σ),
      (evs.foldl (ejecutarEvento ram reloj srv) e).frameCount = e.frameCount := by
    intro evs
    induction evs with
    | nil => exact fun _ => rfl
    | cons ev evs ih =>
      intro e
      rw [List.foldl_cons, ih, frameCount_evento]
  exact hfold evs _

end FrameCount

section Marcos

/-- No occupied frame holds a page of the File:Tag from page `k` on. -/
def SinPaginas (m : Memoria) (file tag : String) (k : ℕ) : Prop :=
  ∀ f ∈ m.frames, esPaginaDesde file tag k f = false

instance (m : Memoria) (file tag : String) (k : ℕ) : Decidable (SinPaginas m file tag k) := by
  unfold SinPaginas
  infer_instance

def esDe (file tag : String) (f : Marco) : Bool := f.file == some file && f.tag == some tag

/-- What TRUNCATE to `k` pages and, with `k = 0`, DELETE owe the frame table. -/
structure Invalidadas (ram : Ram) (m m' : Memoria) (file tag : String) (k : ℕ) : Prop where
  ninguna : SinPaginas m' file tag k
  /-- A later access to a dropped page is a miss, so it reads Storage. -/
  fallo : ∀ p, k ≤ p → m'.frames.findIdx? (frameMatchea file tag p) = none
  otros : ∀ (i : ℕ) (f : Marco), m.frames[i]? = some f → esDe file tag f = false →
    m'.frames[i]? = some f ∧
      slice m'.direccionBase f.base ram.pageSize = slice m.direccionBase f.base ram.pageSize

theorem fallo_of_sinPaginas {m : Memoria} (h : SinPaginas m file tag k) {p : ℕ} (hp : k ≤ p) :
    m.frames.findIdx? (frameMatchea file tag p) = none := by
  refine List.findIdx?_eq_none_iff.mpr fun f hf => Bool.eq_false_iff.mpr fun hmatch => ?_
  obtain ⟨hlibre, hfile, htag, hpagina⟩ :=
    claveDe_eq_some ((frameMatchea_iff file tag p f).mp hmatch)
  have hno := h f hf
  unfold esPaginaDesde at hno
  simp [hlibre, hfile, htag, hpagina, hp] at hno

/-- Writing frames back brings no page in and takes none out. -/
theorem sinPaginas_soloLimpia {m m' : Memoria} (h : SoloLimpia m m') :
    SinPaginas m' file tag k ↔ SinPaginas m file tag k := by
  have hmarco : ∀ i : ℕ, (m'.frames[i]?).map (esPaginaDesde file tag k) =
      (m.frames[i]?).map (esPaginaDesde file tag k) := by
    intro i
    rcases h.marcos i with heq | heq
    · rw [heq]
    · rw [heq, Option.map_map]
      rfl
  have hmap : m'.frames.map (esPaginaDesde file tag k) =
      m.frames.map (esPaginaDesde file tag k) := by
    apply List.ext_getElem?
    intro i
    rw [List.getElem?_map, List.getElem?_map, hmarco]
  have htodos : ∀ m : Memoria, SinPaginas m file tag k ↔
      ∀ b ∈ m.frames.map (esPaginaDesde file tag k), b = false := by
    intro m
    unfold SinPaginas
    rw [List.forall_mem_map]
  rw [htodos, htodos, hmap]

/-- FLUSH of a File:Tag leaves the frames of the others alone. -/
theorem flushFiletag_otros (ram : Ram) (srv : Servidor σ) (w : Worker σ) (file tag : String)
    {i : ℕ} {f : Marco} (hf : w.memoria.frames[i]? = some f) (hde : esDe file tag f = false) :
    (flushFiletag ram srv w file tag).1.memoria.frames[i]? = some f := by
  refine untilFalse_invariant (I := fun w' : Worker σ => w'.memoria.frames[i]? = some f) ?_ hf
  intro w' j _ hw'
  rcases eq_or_ne i j with rfl | hne
  · unfold volcarSi
    rw [hw']
    have hno : (!f.libre && f.file == some file && f.tag == some tag && f.dirty) = false := by
      unfold esDe at hde
      rw [Bool.and_assoc (!f.libre), hde, Bool.and_false, Bool.false_and]
    simp only [hno]
    exact hw'
  · rw [volcarSi_otro ram srv _ w' hne]
    exact hw'

end Marcos

section Bajas

/-- A Storage with the File:Tag a:b alone, given by its pages of two bytes. -/
def servidorPaginas : Servidor (List Bytes) where
  readBlock := fun st nombre p => (st, if nombre = "a:b" then st[p]? else none)
  writeBlock := fun st f t p b =>
    if f = "a" ∧ t = "b" ∧ p < st.length then (st.set p b, true) else (st, false)
  create := fun st _ => (st, false)
  truncate := fun st nombre tamanio =>
    if nombre = "a:b" then
      ((st ++ List.replicate (tamanio.toNat / 2) [0, 0]).take (tamanio.toNat / 2), true)
    else (st, false)
  tag := fun st _ _ => (st, false)
  commit := fun st nombre => (st, decide (nombre = "a:b"))
  flush := fun st f t => (st, decide (f = "a" ∧ t = "b"))
  delete := fun st f t => (if f = "a" ∧ t = "b" then [] else st, true)

/-- The instruction returned 0 and was a TRUNCATE to `k` pages or a DELETE. -/
def Recorta (ram : Ram) (srv : Servidor σ) (e : Proceso σ) (inst : Instruccion) (k : ℕ)
    (e' : Proceso σ) : Prop :=
  atoi inst.arg2 = k * ram.pageSize ∧ ejecutarTruncate ram srv e inst = (e', true) ∨
    k = 0 ∧ ejecutarDelete ram srv e inst = (e', true)

/-- TRUNCATE leaves the memory as it was. -/
theorem truncate_memoria (hcount : e.frameCount = 0)
    (hop : ejecutarTruncate ram srv e inst = (e', true)) :
    e'.worker.memoria = e.worker.memoria := by
  unfold ejecutarTruncate conStorage at hop
  rw [hcount] at hop
  split_ifs at hop
  · simp at hop
  · dsimp only at hop
    split_ifs at hop
    · simp at hop
    · split at hop
      · simp at hop
      · next heq =>
        obtain ⟨rfl, -⟩ := Prod.mk.inj heq
        split at hop
        · simp at hop
        · rw [← (Prod.mk.inj hop).1]
          rfl

/-- DELETE leaves what its FLUSH leaves. -/
theorem delete_memoria (hcount : e.frameCount = 0)
    (hft : separarFileTag inst.arg1 = some (file, tag))
    (hop : ejecutarDelete ram srv e inst = (e', true)) :
    e'.worker.memoria = (flushFiletag ram srv e.worker file tag).1.memoria := by
  unfold ejecutarDelete conStorage at hop
  rw [hft, hcount] at hop
  dsimp only at hop
  split at hop
  · simp at hop
  · next heq =>
    rw [← (Prod.mk.inj hop).1, heq]
    rfl

/-- After a TRUNCATE or DELETE that returned 0 the dropped pages are out of memory
just when they were not in memory before it. -/
theorem invalidadas_iff (h : ProcesoAlcanzable ram reloj srv e) (inst : Instruccion)
    (hft : separarFileTag inst.arg1 = some (file, tag)) (hop : Recorta ram srv e inst k e') :
    Invalidadas ram e.worker.memoria e'.worker.memoria file tag k ↔
      SinPaginas e.worker.memoria file tag k := by
  have hcount := frameCount_alcanzable h
  have hsolo : SoloLimpia e.worker.memoria e'.worker.memoria := by
    rcases hop with ⟨_, hop⟩ | ⟨_, hop⟩
    · rw [truncate_memoria hcount hop]
      exact SoloLimpia.refl _
    · rw [delete_memoria hcount hft hop]
      exact flushFiletag_soloLimpia ram srv e.worker file tag
  have hotros : ∀ (i : ℕ) (f : Marco), e.worker.memoria.frames[i]? = some f →
      esDe file tag f = false → e'.worker.memoria.frames[i]? = some f := by
    intro i f hf hde
    rcases hop with ⟨_, hop⟩ | ⟨_, hop⟩
    · rw [truncate_memoria hcount hop]
      exact hf
    · rw [delete_memoria hcount hft hop]
      exact flushFiletag_otros ram srv e.worker file tag hf hde
  rw [← sinPaginas_soloLimpia hsolo]
  constructor
  · exact fun hinv => hinv.ninguna
  · intro hsin
    refine ⟨hsin, fun p hp => fallo_of_sinPaginas hsin hp, fun i f hf hde => ?_⟩
    exact ⟨hotros i f hf hde, by rw [hsolo.area]⟩

/-- With page 0 in memory, a TRUNCATE of two pages to one drops only the page that is not. -/
theorem invalidadas_iff_unaPagina :
    Invalidadas ramChica
        (procesoTras ramChica relojParado servidorPaginas [[1, 2], [3, 4]]
          [.instruccion ⟨"READ", "a:b", "0", "1"⟩]).worker.memoria
        (ejecutarTruncate ramChica servidorPaginas
          (procesoTras ramChica relojParado servidorPaginas [[1, 2], [3, 4]]
            [.instruccion ⟨"READ", "a:b", "0", "1"⟩])
          ⟨"TRUNCATE", "a:b", "2", ""⟩).1.worker.memoria "a" "b" 1 ↔
      SinPaginas (procesoTras ramChica relojParado servidorPaginas [[1, 2], [3, 4]]
        [.instruccion ⟨"READ", "a:b", "0", "1"⟩]).worker.memoria "a" "b" 1 :=
  invalidadas_iff ⟨[[1, 2], [3, 4]], _, rfl⟩ ⟨"TRUNCATE", "a:b", "2", ""⟩ (by decide)
    (Or.inl ⟨by decide, Prod.ext rfl (by decide)⟩)

/-- A page read before its File:Tag was cut to nothing is still in memory after. -/
theorem not_invalidadas_truncate : ¬ ∀ ram reloj (srv : Servidor (List Bytes)) e e' inst file tag k,
    ProcesoAlcanzable ram reloj srv e → separarFileTag inst.arg1 = some (file, tag) →
    Recorta ram srv e inst k e' →
    Invalidadas ram e.worker.memoria e'.worker.memoria file tag k := by
  intro h
  have hinv := h ramChica relojParado servidorPaginas _ _ ⟨"TRUNCATE", "a:b", "0", ""⟩ "a" "b" 0
    ⟨[[1, 2]], [.instruccion ⟨"READ", "a:b", "0", "1"⟩], rfl⟩ (by decide)
    (Or.inl ⟨by decide, Prod.ext rfl (by decide)⟩)
  exact absurd hinv.ninguna (by decide)

end Bajas

end MasterOfFiles.StalePages
