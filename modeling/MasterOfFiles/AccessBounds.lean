import MasterOfFiles.FrameInvariants
import MasterOfFiles.ReachableStates

/-!
Accesses through the Worker's memory in front of the Storage itself. The Worker
checks no bounds: what stops an access past the end of a file is that one of the page
numbers it asks for is none of Storage's and in no frame. The numbers it asks for are
those of its addresses narrowed to 32 bits, so an access may go past the end and ask
for pages of the file alone, or for pages that a frame still has from when the file was
larger.
-/
namespace MasterOfFiles.AccessBounds

open ByteBuffers PartialRuns StorageState StorageFiles StorageOperations WorkerMemory
open FrameTables TransparentPaging WorkerInstructions StalePages FrameInvariants
open ReplacementPolicies ReachableStates

section Servidor

variable (md5 : Bytes → String) (sb : Superbloque)

/-- A request without an answer has no OP_RESP_OK. -/
def pedir (s : Storage) (x : Solicitud) : Storage × Bool :=
  match atenderWorker md5 sb s x with
  | .error _ => (s, false)
  | .ok r => (r.1, decide (r.2 = .ok))

/-- split_file_tag cuts where separar_FileTag does. -/
def pedirFileTag (s : Storage) (fileTag : String) (x : String → String → Solicitud) :
    Storage × Bool :=
  match separarFileTag fileTag with
  | none => (s, false)
  | some ft => pedir md5 sb s (x ft.1 ft.2)

/-- READ_BLOCK takes the page number as an int. -/
def leerBloque (s : Storage) (fileTag : String) (nroPag : ℕ) : Option Bytes :=
  match separarFileTag fileTag with
  | none => none
  | some ft => match storageReadBlock sb s ft.1 ft.2 (toInt32 nroPag) with
    | .bloque b => some b
    | _ => none

/-- The Storage as the Worker's memory meets it. -/
def servidorStorage : Servidor Storage where
  readBlock := fun s fileTag nroPag => (s, leerBloque sb s fileTag nroPag)
  writeBlock := fun s file tag nroPag b => pedir md5 sb s (.writeBlock file tag nroPag b)
  create := fun s fileTag => pedirFileTag md5 sb s fileTag .create
  truncate := fun s fileTag tamanio =>
    pedirFileTag md5 sb s fileTag fun file tag => .truncate file tag tamanio
  tag := fun s origen destino => match separarFileTag origen with
    | none => (s, false)
    | some ft => pedirFileTag md5 sb s destino (.tag ft.1 ft.2)
  commit := fun s fileTag => pedirFileTag md5 sb s fileTag .commit
  flush := fun s file tag => pedir md5 sb s (.flush file tag)
  delete := fun s file tag => pedir md5 sb s (.delete file tag)

/-- The size of a page is the block size that Storage sends in the handshake. -/
def conBloques (ram : Ram) : Ram := { ram with pageSize := sb.blockSize, page_pos := sb.block_pos }

end Servidor

variable {md5 : Bytes → String} {sb : Superbloque} {ram : Ram} {reloj : Reloj} {s : Storage}
  {w : Worker Storage} {m : Memoria} {file tag : String} {p n : ℕ}

/-- How many logical blocks Storage holds for a File:Tag. -/
def bloquesDe (s : Storage) (file tag : String) : ℕ :=
  ((buscarTag s file tag).map fun t => t.listaBlockLogicos.length).getD 0

section Paginas

/-- Storage has no page past the last. -/
theorem leerBloque_fuera (hfile : ':' ∉ file.toList) (hp : bloquesDe s file tag ≤ p)
    (huint : p < 2 ^ 32) : leerBloque sb s (file ++ ":" ++ tag) p = none := by
  unfold leerBloque storageReadBlock
  rw [separarFileTag_append hfile]
  dsimp only
  unfold bloquesDe at hp
  cases htag : buscarTag s file tag with
  | none => rfl
  | some t =>
    rw [htag, Option.map_some, Option.getD_some] at hp
    dsimp only
    by_cases hneg : toInt32 p < 0
    · rw [if_pos (Or.inl hneg)]
    · have hle : (t.listaBlockLogicos.length : ℤ) ≤ toInt32 p := by
        unfold toInt32 at hneg ⊢
        split_ifs at hneg ⊢ <;> omega
      rw [if_pos (Or.inr hle)]

end Paginas

section Traer

variable {σ : Type*} {srv : Servidor σ}

/-- A property of Storage that a page read and a page sent keep. -/
structure Conserva (srv : Servidor σ) (I : σ → Prop) : Prop where
  lectura : ∀ st nombre p, I st → I (srv.readBlock st nombre p).1
  escritura : ∀ st f t p b, I st → I (srv.writeBlock st f t p b).1

theorem Conserva.flushFrame {I : σ → Prop} (hI : Conserva srv I) {w : Worker σ}
    (h : I w.storage) (ram : Ram) (i : ℕ) : I (flushFrame ram srv w i).1.storage := by
  unfold WorkerMemory.flushFrame volcarSi
  split
  · exact h
  · next f _ =>
    split_ifs
    · unfold volcarMarco
      split
      · next file tag _ _ =>
        unfold escribirPaginaStorage
        have hescritura := hI.escritura w.storage file tag f.pagina
          (slice w.memoria.direccionBase f.base ram.pageSize) h
        cases hres : srv.writeBlock w.storage file tag f.pagina
            (slice w.memoria.direccionBase f.base ram.pageSize) with
        | mk st ok =>
          rw [hres] at hescritura
          cases ok <;> exact hescritura
      · exact h
    · exact h

theorem Conserva.elegirMarco {I : σ → Prop} (hI : Conserva srv I) {w : Worker σ}
    (h : I w.storage) (ram : Ram) : I (elegirMarco ram srv w).1.storage := by
  unfold WorkerMemory.elegirMarco
  split
  · exact h
  · split
    · exact h
    · next m v _ =>
      have hflush := hI.flushFrame (w := { w with memoria := m }) h ram v
      unfold desalojar
      cases hres : WorkerMemory.flushFrame ram srv { w with memoria := m } v with
      | mk w₁ ok =>
        rw [hres] at hflush
        cases ok <;> exact hflush

theorem Conserva.cargarPagina {I : σ → Prop} (hI : Conserva srv I) {w : Worker σ}
    (h : I w.storage) (ram : Ram) (reloj : Reloj) (i : ℕ) (file tag : String) (p : ℕ) :
    I (cargarPagina ram reloj srv w i file tag p).1.storage := by
  have hlectura := hI.lectura w.storage (file ++ ":" ++ tag) p h
  unfold WorkerMemory.cargarPagina lecturaPaginaStorage
  cases hres : srv.readBlock w.storage (file ++ ":" ++ tag) p with
  | mk st r =>
    rw [hres] at hlectura
    cases r with
    | none => exact hlectura
    | some b => cases hlargo : decide (ram.pageSize ≤ b.length) <;> simpa [hlargo] using hlectura

theorem Conserva.traerPagina {I : σ → Prop} (hI : Conserva srv I) {w : Worker σ}
    (h : I w.storage) (ram : Ram) (reloj : Reloj) (file tag : String) (p : ℕ) :
    I (traerPagina ram reloj srv w file tag p).1.storage := by
  have helegida := hI.elegirMarco h ram
  unfold WorkerMemory.traerPagina
  split
  · exact h
  · split
    · next heq =>
      rw [heq] at helegida
      exact helegida
    · next heq =>
      rw [heq] at helegida
      exact hI.cargarPagina helegida ram reloj _ file tag p

theorem storage_accederMarco (ram : Ram) (reloj : Reloj) (a : Acceso) (w : Worker σ) (i : ℕ)
    (salida : Bytes) (desplaz n : ℕ) :
    (accederMarco ram reloj a w i salida desplaz n).1.storage = w.storage := by
  unfold accederMarco
  split_ifs <;> rfl

theorem Conserva.accederDesde {I : σ → Prop} (hI : Conserva srv I) (ram : Ram) (reloj : Reloj)
    (a : Acceso) (rondas : ℕ) {w : Worker σ} (h : I w.storage) (salida : Bytes)
    (desplaz restante : ℕ) :
    I (accederDesde ram reloj srv a rondas w salida desplaz restante).1.storage := by
  induction rondas generalizing w salida desplaz restante with
  | zero => exact h
  | succ rondas ih =>
    have htraida := hI.traerPagina h ram reloj a.file a.tag (nroPagina ram (a.base + desplaz))
    unfold WorkerMemory.accederDesde
    split_ifs
    · exact h
    · cases hres : WorkerMemory.traerPagina ram reloj srv w a.file a.tag
          (nroPagina ram (a.base + desplaz)) with
      | mk w₁ marco =>
        rw [hres] at htraida
        cases marco with
        | none => exact htraida
        | some i =>
          have hmarco := storage_accederMarco ram reloj a w₁ i salida desplaz
            (tramo ram (a.base + desplaz) restante)
          exact ih (hmarco.symm ▸ htraida) ..

end Traer

section Accesos

/-- The page numbers that the rounds of the loop ask for, one after the other. -/
def paginasDesde (ram : Ram) (base : ℕ) : ℕ → ℕ → ℕ → List ℕ
  | 0, _, _ => []
  | rondas + 1, desplaz, restante =>
    if restante = 0 then []
    else nroPagina ram (base + desplaz) ::
      paginasDesde ram base rondas (desplaz + tramo ram (base + desplaz) restante)
        (restante - tramo ram (base + desplaz) restante)

/-- The page numbers that acceder_memoria asks for of a range. -/
def paginas (ram : Ram) (base size : ℕ) : List ℕ := paginasDesde ram base size 0 size

/-- The range ends in the File:Tag. -/
def EnRango (sb : Superbloque) (s : Storage) (file tag : String) (base size : ℕ) : Prop :=
  size = 0 ∨ base + size ≤ bloquesDe s file tag * sb.blockSize

instance (sb : Superbloque) (s : Storage) (file tag : String) (base size : ℕ) :
    Decidable (EnRango sb s file tag base size) := inferInstanceAs (Decidable (_ ∨ _))

theorem nroPagina_lt (ram : Ram) (dir : ℕ) : nroPagina ram dir < 2 ^ 32 :=
  Nat.mod_lt _ (by decide)

end Accesos

section Exitos

/-- No frame waits to be written back. -/
def SinSucios (m : Memoria) : Prop := ∀ f ∈ m.frames, f.dirty = false

theorem SinSucios.modificarMarco (h : SinSucios m) (i : ℕ) {g : Marco → Marco}
    (hg : ∀ f ∈ m.frames, (g f).dirty = false) : SinSucios (modificarMarco m i g) := by
  intro f hf
  obtain ⟨j, hj⟩ := List.mem_iff_getElem?.mp hf
  rw [frames_modificarMarco] at hj
  split_ifs at hj
  · obtain ⟨f₀, hf₀, rfl⟩ := Option.map_eq_some_iff.mp hj
    exact hg f₀ (List.mem_of_getElem? hf₀)
  · exact h f (List.mem_of_getElem? hj)

theorem SinSucios.tocar (h : SinSucios m) (reloj : Reloj) (i : ℕ) :
    SinSucios (tocar reloj m i) := h.modificarMarco i h

theorem SinSucios.soloUso {m' : Memoria} (h : SinSucios m) (hsolo : SoloUso m m') :
    SinSucios m' := by
  intro f hf
  obtain ⟨i, hi⟩ := List.mem_iff_getElem?.mp hf
  obtain ⟨f₀, hf₀, huso⟩ := hsolo.marco hi
  exact (congrArg Marco.dirty huso).trans (h f₀ (List.mem_of_getElem? hf₀))

end Exitos

section Corridas

end Corridas

section Vuelta

end Vuelta

end MasterOfFiles.AccessBounds
