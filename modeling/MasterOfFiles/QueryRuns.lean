import MasterOfFiles.MasterMessages
import MasterOfFiles.QueryText
import MasterOfFiles.ReadReports

/-!
procesar_query and the turn of the Worker's main loop that starts it. What the
instructions do to the Worker's memory and to Storage is left to the functions that
execute them; here they matter by the order in which they run and by what goes to the
Master. query_cancelada is set by the main loop only, which does not run while a
Query does; desalojado is taken to be true from some line on, and nothing clears it
before the next Query.
-/
namespace MasterOfFiles.QueryRuns

open ByteBuffers QueryText WorkerMessages ReadReports
open MasterMessages (Paths generarPathQuery addPathForQid removePathForQid)

section Interprete

/-- The functions behind the instructions. A READ that is not well formed reports
nothing, a failed one reports `none`. -/
structure Ejecutores (σ : Type*) where
  create : σ → Instruccion → σ
  truncate : σ → Instruccion → σ
  write : σ → Instruccion → σ
  read : σ → Instruccion → σ × Option (Option Lectura)
  tag : σ → Instruccion → σ
  commit : σ → Instruccion → σ
  flush : σ → Instruccion → σ
  delete : σ → Instruccion → σ
  flushTodosFiletagsModificados : σ → σ

/-- lista_query_paths, and whatever the instructions work on. -/
structure Interprete (σ : Type*) where
  paths : Paths
  entorno : σ

/-- A call of ejecutar_instruccion, or a packet to the Master. -/
inductive Suceso
  | ejecuta (pc : ℕ) (texto : Bytes)
  | lectura (l : Option Lectura)
  | finQuery (qid : ℤ)
  | desalojada (qid : ℤ) (pc : ℕ)

variable {σ : Type*} (ej : Ejecutores σ) (qid : ℤ)

def ejecutarEnd (s : Interprete σ) : Interprete σ × List Suceso :=
  ({ s with paths := removePathForQid qid s.paths }, [.finQuery qid])

def ejecutarInstruccion (s : Interprete σ) (inst : Instruccion) : Interprete σ × List Suceso :=
  if inst.comando = [] then (s, [])
  else if inst.comando = letras "CREATE" then
    ({ s with entorno := ej.create s.entorno inst }, [])
  else if inst.comando = letras "TRUNCATE" then
    ({ s with entorno := ej.truncate s.entorno inst }, [])
  else if inst.comando = letras "WRITE" then
    ({ s with entorno := ej.write s.entorno inst }, [])
  else if inst.comando = letras "READ" then
    let (entorno, lectura) := ej.read s.entorno inst
    ({ s with entorno := entorno }, lectura.toList.map .lectura)
  else if inst.comando = letras "TAG" then
    ({ s with entorno := ej.tag s.entorno inst }, [])
  else if inst.comando = letras "COMMIT" then
    ({ s with entorno := ej.commit s.entorno inst }, [])
  else if inst.comando = letras "FLUSH" then
    ({ s with entorno := ej.flush s.entorno inst }, [])
  else if inst.comando = letras "DELETE" then
    ({ s with entorno := ej.delete s.entorno inst }, [])
  else if inst.comando = letras "END" then ejecutarEnd qid s
  else (s, [])

/-- The value ciclo_instruccion finds after the line `pc`. -/
def desalojado (desde : Option ℕ) (pc : ℕ) : Bool := desde.any fun k => decide (k ≤ pc)

variable (queryCancelada : Bool) (desde : Option ℕ)

/-- The state it leaves, the counter it returns, and what has happened. -/
def cicloInstruccion (s : Interprete σ) (pc : ℕ) (textoOriginal : Bytes) :
    Interprete σ × ℕ × List Suceso :=
  if queryCancelada then (s, pc, [])
  else
    let instruccion := textoInstruccion textoOriginal
    if instruccion = [] then (s, pc + 1, [])
    else
      let (s, sucesos) := ejecutarInstruccion ej qid s (parsearInstruccion instruccion)
      if desalojado desde pc then
        ({ s with entorno := ej.flushTodosFiletagsModificados s.entorno }, pc + 1,
          .ejecuta pc instruccion :: (sucesos ++ [.desalojada qid (pc + 1)]))
      else (s, pc + 1, .ejecuta pc instruccion :: sucesos)

/-- The loop over the lines that getline still returns. -/
def iterar : Interprete σ → ℕ → List Bytes → Interprete σ × List Suceso
  | s, _, [] => (s, [])
  | s, pc, linea :: ls =>
    if queryCancelada then (s, [])
    else
      let (s, pc, sucesos) := cicloInstruccion ej qid queryCancelada desde s pc linea
      let (s, resto) := iterar s pc ls
      (s, sucesos ++ resto)

/-- `none` is the return with -1. -/
def procesarQuery (s : Interprete σ) (archivo : Option Bytes) (pcInicial : ℕ) :
    Option (Interprete σ × List Suceso) :=
  archivo.map fun contenido =>
    let pc := if 0 < pcInicial then pcInicial else 1
    iterar ej qid queryCancelada desde s pc ((lineas contenido).drop (pc - 1))

/-- A negative counter becomes a size_t. -/
def aSizeT (pc : ℤ) : ℕ := (pc % 2 ^ 64).toNat

/-- OP_ENVIAR_PATH in the main loop, with the fields of its packet. A run that fails is
only logged. -/
def atenderEnviarPath (archivos : Bytes → Option Bytes) (pathQueries : Bytes) (s : Interprete σ)
    (pcInicial : ℤ) (nombre : Bytes) : Interprete σ × List Suceso :=
  let pathCompleto := generarPathQuery pathQueries nombre
  let s := { s with paths := addPathForQid s.paths qid pathCompleto }
  (procesarQuery ej qid false desde s (archivos pathCompleto) (aSizeT pcInicial)).getD (s, [])

end Interprete

section Bloques

def esEnd (texto : Bytes) : Prop := (parsearInstruccion texto).comando = letras "END"

instance (texto : Bytes) : Decidable (esEnd texto) := inferInstanceAs (Decidable (_ = _))

def esLectura : Suceso → Bool
  | .lectura _ => true
  | _ => false

/-- What the instruction on line `x.1` adds to the trace. -/
def Bloque (qid : ℤ) (desde : Option ℕ) (x : ℕ × Bytes) (b : List Suceso) : Prop :=
  ∃ propios, b = .ejecuta x.1 x.2 ::
      (propios ++ if desalojado desde x.1 then [.desalojada qid (x.1 + 1)] else []) ∧
    (esEnd x.2 → propios = [.finQuery qid]) ∧ (¬esEnd x.2 → ∀ y ∈ propios, esLectura y)

variable {σ : Type*} (ej : Ejecutores σ) (qid : ℤ) (desde : Option ℕ)

theorem ejecutarInstruccion_end (s : Interprete σ) {inst : Instruccion}
    (h : inst.comando = letras "END") : ejecutarInstruccion ej qid s inst = ejecutarEnd qid s := by
  unfold ejecutarInstruccion
  rw [h]
  rfl

theorem esLectura_of_ite {p : Prop} [Decidable p] {r r' : Interprete σ × List Suceso}
    (h : ∀ y ∈ r.2, esLectura y) (h' : ∀ y ∈ r'.2, esLectura y) :
    ∀ y ∈ (if p then r else r').2, esLectura y := by
  split_ifs
  · exact h
  · exact h'

/-- An instruction other than END sends a READ's report at most. -/
theorem ejecutarInstruccion_not_end (s : Interprete σ) {inst : Instruccion}
    (h : inst.comando ≠ letras "END") :
    ∀ y ∈ (ejecutarInstruccion ej qid s inst).2, esLectura y := by
  have hnada : ∀ y ∈ ([] : List Suceso), esLectura y := fun y hy => absurd hy List.not_mem_nil
  have hread : ∀ y ∈ (ej.read s.entorno inst).2.toList.map Suceso.lectura, esLectura y := by
    intro y hy
    obtain ⟨l, _, rfl⟩ := List.mem_map.mp hy
    rfl
  unfold ejecutarInstruccion
  rw [if_neg h]
  refine esLectura_of_ite hnada ?_
  refine esLectura_of_ite hnada (esLectura_of_ite hnada (esLectura_of_ite hnada ?_))
  refine esLectura_of_ite hread (esLectura_of_ite hnada ?_)
  exact esLectura_of_ite hnada (esLectura_of_ite hnada (esLectura_of_ite hnada hnada))

/-- A line adds the block of its instruction, if it has one, and counts as one. -/
theorem cicloInstruccion_cases (s : Interprete σ) (pc : ℕ) (l : Bytes) :
    (cicloInstruccion ej qid false desde s pc l).2.1 = pc + 1 ∧
      (textoInstruccion l = [] → (cicloInstruccion ej qid false desde s pc l).2.2 = []) ∧
      (textoInstruccion l ≠ [] →
        Bloque qid desde (pc, textoInstruccion l)
          (cicloInstruccion ej qid false desde s pc l).2.2) := by
  unfold cicloInstruccion
  rw [if_neg Bool.false_ne_true]
  by_cases hl : textoInstruccion l = []
  · simp [hl]
  · have hpropios : (esEnd (textoInstruccion l) →
          (ejecutarInstruccion ej qid s (parsearInstruccion (textoInstruccion l))).2 =
            [.finQuery qid]) ∧
        (¬esEnd (textoInstruccion l) → ∀ y ∈
          (ejecutarInstruccion ej qid s (parsearInstruccion (textoInstruccion l))).2,
            esLectura y) :=
      ⟨fun h => congrArg Prod.snd (ejecutarInstruccion_end ej qid s h),
        ejecutarInstruccion_not_end ej qid s⟩
    simp only [if_neg hl]
    by_cases hd : desalojado desde pc
    · simp only [hd, if_true]
      exact ⟨trivial, fun h => absurd h hl, fun _ => ⟨_, by rw [if_pos hd], hpropios⟩⟩
    · simp only [hd, if_false, Bool.false_eq_true]
      refine ⟨trivial, fun h => absurd h hl, fun _ => ⟨_, ?_, hpropios⟩⟩
      rw [if_neg hd, List.append_nil]

/-- The trace of the loop is made of the blocks of the instructions it meets. -/
theorem iterar_bloques (s : Interprete σ) (pc : ℕ) (ls : List Bytes) :
    ∃ bs, (iterar ej qid false desde s pc ls).2 = bs.flatten ∧
      List.Forall₂ (Bloque qid desde) (instrucciones pc ls) bs := by
  induction ls generalizing s pc with
  | nil => exact ⟨[], rfl, .nil⟩
  | cons l ls ih =>
    obtain ⟨hpc, hvacia, hbloque⟩ := cicloInstruccion_cases ej qid desde s pc l
    obtain ⟨bs, htraza, hbs⟩ :=
      ih (cicloInstruccion ej qid false desde s pc l).1 (pc + 1)
    have hiterar : (iterar ej qid false desde s pc (l :: ls)).2 =
        (cicloInstruccion ej qid false desde s pc l).2.2 ++ bs.flatten := by
      rw [← htraza]
      simp only [iterar, Bool.false_eq_true, if_false]
      rw [hpc]
    rw [instrucciones_cons]
    by_cases hl : textoInstruccion l = []
    · refine ⟨bs, ?_, ?_⟩
      · rw [hiterar, hvacia hl, List.nil_append]
      · rw [if_pos hl]
        exact hbs
    · refine ⟨(cicloInstruccion ej qid false desde s pc l).2.2 :: bs, hiterar, ?_⟩
      rw [if_neg hl]
      exact .cons (hbloque hl) hbs

/-- A run over a file is made of the blocks of the instructions from its counter on. -/
theorem procesarQuery_bloques (s : Interprete σ) (contenido : Bytes) (pc : ℕ) :
    ∃ s' bs, procesarQuery ej qid false desde s (some contenido) pc = some (s', bs.flatten) ∧
      List.Forall₂ (Bloque qid desde) (pendientes contenido pc) bs := by
  have hpc : (if 0 < pc then pc else 1) = max pc 1 := by
    split_ifs with h <;> omega
  obtain ⟨bs, htraza, hbs⟩ := iterar_bloques ej qid desde s (max pc 1)
    ((lineas contenido).drop (max pc 1 - 1))
  rw [← pendientes_eq] at hbs
  refine ⟨(iterar ej qid false desde s (max pc 1) ((lineas contenido).drop (max pc 1 - 1))).1,
    bs, ?_, hbs⟩
  rw [← htraza]
  unfold procesarQuery
  rw [Option.map_some, hpc]

end Bloques

end MasterOfFiles.QueryRuns
