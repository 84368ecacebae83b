import MasterOfFiles.QueryRuns
import MasterOfFiles.TraceMarks

/-!
The report a Worker makes of the end of a Query. Only the END instruction sends it, and
the loop goes on to the end of the file, so the report comes once and last exactly for
the files whose one END is their last instruction.
-/
namespace MasterOfFiles.EndReports

open ByteBuffers QueryText ReadReports TraceMarks QueryRuns
open MasterMessages (generarPathQuery addPathForQid)

def esFin (qid : ℤ) : Suceso → Prop
  | .finQuery q => q = qid
  | _ => False

def esEjecucion : Suceso → Prop
  | .ejecuta _ _ => True
  | _ => False

/-- One OP_FIN_QUERY of the Query, and no instruction of it afterwards. -/
def UnSoloFin (qid : ℤ) (traza : List Suceso) : Prop := OnceAndLast (esFin qid) esEjecucion traza

/-- Of the instructions of a file from `pc` on, the last one is the only END. -/
def UnicoEndFinal (contenido : Bytes) (pc : ℕ) : Prop :=
  OnceAndLast (fun x => esEnd x.2) (fun _ => True) (pendientes contenido pc)

theorem esLectura_not_fin {qid : ℤ} {y : Suceso} (h : esLectura y) : ¬esFin qid y := by
  cases y with
  | lectura l => exact id
  | ejecuta pc texto => exact absurd h Bool.false_ne_true
  | finQuery q => exact absurd h Bool.false_ne_true
  | desalojada q pc => exact absurd h Bool.false_ne_true

/-- Without an eviction, the block of an END ends in the report. -/
theorem isBlock_of_bloque {qid : ℤ} {x : ℕ × Bytes} {b : List Suceso} (h : Bloque qid none x b) :
    IsBlock (fun x => esEnd x.2) (esFin qid) esEjecucion x b := by
  obtain ⟨propios, hb, hend, hotro⟩ := h
  have hnone : desalojado none x.1 = false := rfl
  rw [hnone, if_neg Bool.false_ne_true, List.append_nil] at hb
  subst hb
  constructor
  · intro hx
    have hfin : esFin qid (.finQuery qid) := rfl
    rw [hend hx, onceAndLast_cons_of_not_mark id, onceAndLast_cons_of_mark hfin]
    exact fun y hy => absurd hy List.not_mem_nil
  · intro hx y hy
    rcases List.mem_cons.mp hy with rfl | hy
    · exact id
    · exact esLectura_not_fin (hotro hx y hy)
  · exact ⟨_, List.mem_cons_self .., trivial⟩

section Corrida

variable {σ : Type*} (ej : Ejecutores σ)

theorem unSoloFin_procesarQuery (qid : ℤ) (s : Interprete σ) (contenido : Bytes) (pc : ℕ) :
    ∃ s' traza, procesarQuery ej qid false none s (some contenido) pc = some (s', traza) ∧
      (UnSoloFin qid traza ↔ UnicoEndFinal contenido pc) := by
  obtain ⟨s', bs, hrun, hbs⟩ := procesarQuery_bloques ej qid none s contenido pc
  refine ⟨s', bs.flatten, hrun, ?_⟩
  apply onceAndLast_flatten_iff
  exact hbs.imp fun _ _ => isBlock_of_bloque

/-- A Worker that is not preempted reports the end of a Query once, and executes nothing
of it afterwards, exactly when the file opens and its one END is the last instruction. -/
theorem unSoloFin_iff (archivos : Bytes → Option Bytes) (pathQueries : Bytes) (s : Interprete σ)
    (qid pcInicial : ℤ) (nombre : Bytes) :
    UnSoloFin qid (atenderEnviarPath ej qid none archivos pathQueries s pcInicial nombre).2 ↔
      ∃ contenido, archivos (generarPathQuery pathQueries nombre) = some contenido ∧
        UnicoEndFinal contenido (aSizeT pcInicial) := by
  unfold atenderEnviarPath
  cases harchivo : archivos (generarPathQuery pathQueries nombre) with
  | none =>
    simp only [harchivo]
    refine iff_of_false not_onceAndLast_nil ?_
    rintro ⟨contenido, hnone, -⟩
    exact absurd hnone (Option.some_ne_none contenido).symm
  | some contenido =>
    obtain ⟨s', traza, hrun, hiff⟩ := unSoloFin_procesarQuery ej qid
      { s with paths := addPathForQid s.paths qid (generarPathQuery pathQueries nombre) }
      contenido (aSizeT pcInicial)
    simp only [harchivo, hrun, Option.getD_some]
    rw [hiff]
    constructor
    · exact fun h => ⟨contenido, rfl, h⟩
    · rintro ⟨c, hc, h⟩
      obtain rfl := Option.some.inj hc
      exact h

end Corrida

section Contraejemplo

/-- Instructions that change nothing. -/
def sinEfecto : Ejecutores Unit where
  create := fun s _ => s
  truncate := fun s _ => s
  write := fun s _ => s
  read := fun s _ => (s, none)
  tag := fun s _ => s
  commit := fun s _ => s
  flush := fun s _ => s
  delete := fun s _ => s
  flushTodosFiletagsModificados := id

def sinPaths : Interprete Unit := ⟨⟨[], 0⟩, ()⟩

/-- A file that goes on after its END. -/
theorem unSoloFin_falla :
    ¬UnSoloFin 1 (atenderEnviarPath sinEfecto 1 none
      (fun _ => some (letras "END\nCREATE a:b\n")) (letras "scripts") sinPaths 0
      (letras "q")).2 := by
  have htraza : (atenderEnviarPath sinEfecto 1 none
      (fun _ => some (letras "END\nCREATE a:b\n")) (letras "scripts") sinPaths 0
      (letras "q")).2 =
        [.ejecuta 1 (letras "END"), .finQuery 1, .ejecuta 2 (letras "CREATE a:b")] := rfl
  have hfin : esFin 1 (.finQuery 1) := rfl
  rw [htraza]
  unfold UnSoloFin
  rw [onceAndLast_cons_of_not_mark id, onceAndLast_cons_of_mark hfin]
  intro h
  exact (h _ (List.mem_cons_self ..)).2 trivial

end Contraejemplo

end MasterOfFiles.EndReports
