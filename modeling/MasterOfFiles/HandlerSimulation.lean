import MasterOfFiles.WorkerLoop

/-!
Two Workers whose instructions are executed by different functions. When these keep a
relation between what they work on, and their READs report the same, no stream from the
Master tells the two apart: the order of the instructions, the counters and the reports
come from the interpreter, which looks at neither.
-/
namespace MasterOfFiles.HandlerSimulation

open ByteBuffers ByteStreams Packets QueryText ReadReports WorkerLoop
open QueryRuns hiding atenderEnviarPath

variable {σ τ : Type*}

section Ejecutores

/-- Taken from states that correspond, both steps lead to states that correspond. -/
def Conserva (R : σ → τ → Prop) (f : σ → σ) (g : τ → τ) : Prop := ∀ s t, R s t → R (f s) (g t)

/-- The functions of `ej` keep pace with those of `ej'` on the instructions in `P`. -/
structure Imita (R : σ → τ → Prop) (P : Instruccion → Prop) (ej : Ejecutores σ)
    (ej' : Ejecutores τ) : Prop where
  create : ∀ inst, P inst → inst.comando = letras "CREATE" →
    Conserva R (ej.create · inst) (ej'.create · inst)
  truncate : ∀ inst, P inst → inst.comando = letras "TRUNCATE" →
    Conserva R (ej.truncate · inst) (ej'.truncate · inst)
  write : ∀ inst, P inst → inst.comando = letras "WRITE" →
    Conserva R (ej.write · inst) (ej'.write · inst)
  read : ∀ inst, P inst → inst.comando = letras "READ" → ∀ s t, R s t →
    R (ej.read s inst).1 (ej'.read t inst).1 ∧ (ej.read s inst).2 = (ej'.read t inst).2
  tag : ∀ inst, P inst → inst.comando = letras "TAG" →
    Conserva R (ej.tag · inst) (ej'.tag · inst)
  commit : ∀ inst, P inst → inst.comando = letras "COMMIT" →
    Conserva R (ej.commit · inst) (ej'.commit · inst)
  flush : ∀ inst, P inst → inst.comando = letras "FLUSH" →
    Conserva R (ej.flush · inst) (ej'.flush · inst)
  delete : ∀ inst, P inst → inst.comando = letras "DELETE" →
    Conserva R (ej.delete · inst) (ej'.delete · inst)
  flushTodos : Conserva R ej.flushTodosFiletagsModificados ej'.flushTodosFiletagsModificados

/-- Interpreters with the same paths, and states that correspond. -/
structure Parejos (R : σ → τ → Prop) (s : Interprete σ) (t : Interprete τ) : Prop where
  paths : s.paths = t.paths
  entorno : R s.entorno t.entorno

/-- A step that was the same on both sides, but for the states it leaves. -/
def Igualados {α : Type*} (R : σ → τ → Prop) (r : Interprete σ × α) (r' : Interprete τ × α) :
    Prop := Parejos R r.1 r'.1 ∧ r.2 = r'.2

/-- The instructions of a file are all in `P`. -/
def Admite (P : Instruccion → Prop) (contenido : Bytes) : Prop :=
  ∀ l ∈ lineas contenido, P (parsearInstruccion (textoInstruccion l))

variable {R : σ → τ → Prop} {P : Instruccion → Prop} {ej : Ejecutores σ} {ej' : Ejecutores τ}
variable {s : Interprete σ} {t : Interprete τ}

theorem igualados_ite {α : Type*} {p : Prop} [Decidable p] {a b : Interprete σ × α}
    {a' b' : Interprete τ × α} (h : p → Igualados R a a') (h' : ¬p → Igualados R b b') :
    Igualados R (if p then a else b) (if p then a' else b') := by
  split_ifs with hp
  · exact h hp
  · exact h' hp

theorem Conserva.igualados {f : σ → σ} {g : τ → τ} (h : Conserva R f g) (hst : Parejos R s t) :
    Igualados R ({ s with entorno := f s.entorno }, ([] : List Suceso))
      ({ t with entorno := g t.entorno }, []) :=
  ⟨⟨hst.paths, h _ _ hst.entorno⟩, rfl⟩

/-- One case for each instruction, in the order in which they are told apart. -/
theorem ejecutarInstruccion_igualados (h : Imita R P ej ej') (qid : ℤ) {inst : Instruccion}
    (hinst : P inst) (hst : Parejos R s t) :
    Igualados R (ejecutarInstruccion ej qid s inst) (ejecutarInstruccion ej' qid t inst) := by
  have hnada : Igualados R (s, ([] : List Suceso)) (t, []) := ⟨hst, rfl⟩
  have hlectura (hread : inst.comando = letras "READ") := h.read inst hinst hread _ _ hst.entorno
  unfold ejecutarInstruccion
  refine igualados_ite (fun _ => hnada) fun _ => ?_
  refine igualados_ite (fun hc => (h.create inst hinst hc).igualados hst) fun _ => ?_
  refine igualados_ite (fun hc => (h.truncate inst hinst hc).igualados hst) fun _ => ?_
  refine igualados_ite (fun hc => (h.write inst hinst hc).igualados hst) fun _ => ?_
  refine igualados_ite (fun hc => ?_) fun _ => ?_
  · refine ⟨⟨hst.paths, (hlectura hc).1⟩, ?_⟩
    exact congrArg (fun l => l.toList.map Suceso.lectura) (hlectura hc).2
  refine igualados_ite (fun hc => (h.tag inst hinst hc).igualados hst) fun _ => ?_
  refine igualados_ite (fun hc => (h.commit inst hinst hc).igualados hst) fun _ => ?_
  refine igualados_ite (fun hc => (h.flush inst hinst hc).igualados hst) fun _ => ?_
  refine igualados_ite (fun hc => (h.delete inst hinst hc).igualados hst) fun _ => ?_
  refine igualados_ite (fun _ => ?_) fun _ => hnada
  exact ⟨⟨congrArg (MasterMessages.removePathForQid qid) hst.paths, hst.entorno⟩, rfl⟩

theorem cicloInstruccion_igualados (h : Imita R P ej ej') (qid : ℤ) (cancelada : Bool)
    (desde : Option ℕ) (pc : ℕ) {l : Bytes} (hl : P (parsearInstruccion (textoInstruccion l)))
    (hst : Parejos R s t) :
    Igualados R (cicloInstruccion ej qid cancelada desde s pc l)
      (cicloInstruccion ej' qid cancelada desde t pc l) := by
  obtain ⟨hparejos, hsucesos⟩ := ejecutarInstruccion_igualados h qid hl hst
  simp only [cicloInstruccion]
  split_ifs
  · exact ⟨hst, rfl⟩
  · exact ⟨hst, rfl⟩
  · rw [hsucesos]
    exact ⟨⟨hparejos.paths, h.flushTodos _ _ hparejos.entorno⟩, rfl⟩
  · rw [hsucesos]
    exact ⟨hparejos, rfl⟩

/-- The lines one after the other: each is executed on states that correspond, behind
the same trace. -/
theorem iterar_igualados (h : Imita R P ej ej') (qid : ℤ) (cancelada : Bool)
    (desde : Option ℕ) (pc : ℕ) {ls : List Bytes}
    (hls : ∀ l ∈ ls, P (parsearInstruccion (textoInstruccion l))) (hst : Parejos R s t) :
    Igualados R (iterar ej qid cancelada desde s pc ls)
      (iterar ej' qid cancelada desde t pc ls) := by
  induction ls generalizing s t pc with
  | nil => exact ⟨hst, rfl⟩
  | cons l ls ih =>
    obtain ⟨hparejos, hciclo⟩ := cicloInstruccion_igualados h qid cancelada desde pc
      (hls l (List.mem_cons_self ..)) hst
    obtain ⟨hpc, hsucesos⟩ := Prod.ext_iff.mp hciclo
    obtain ⟨hfinal, hresto⟩ := ih (cicloInstruccion ej qid cancelada desde s pc l).2.1
      (fun l' hl' => hls l' (List.mem_cons_of_mem _ hl')) hparejos
    simp only [iterar]
    refine igualados_ite (fun _ => ⟨hst, rfl⟩) fun _ => ?_
    rw [← hpc, ← hsucesos]
    exact ⟨hfinal, congrArg (_ ++ ·) hresto⟩

theorem procesarQuery_igualados (h : Imita R P ej ej') (qid : ℤ) (cancelada : Bool)
    (desde : Option ℕ) {contenido : Bytes} (hcontenido : Admite P contenido) (pc : ℕ)
    (hst : Parejos R s t) : ∃ r r', Igualados R r r' ∧
      procesarQuery ej qid cancelada desde s (some contenido) pc = some r ∧
      procesarQuery ej' qid cancelada desde t (some contenido) pc = some r' := by
  refine ⟨_, _, iterar_igualados h qid cancelada desde _ ?_ hst, rfl, rfl⟩
  intro l hl
  exact hcontenido l (List.mem_of_mem_drop hl)

end Ejecutores

section Bucle

variable {R : σ → τ → Prop} {P : Instruccion → Prop} {ej : Ejecutores σ} {ej' : Ejecutores τ}
variable {archivos : Bytes → Option Bytes} {s : Bucle σ} {t : Bucle τ}

/-- The loops stand at the same place, on states that correspond. -/
structure BuclesParejos (R : σ → τ → Prop) (s : Bucle σ) (t : Bucle τ) : Prop where
  interprete : Parejos R s.interprete t.interprete
  desalojado : s.desalojado = t.desalojado
  queryCancelada : s.queryCancelada = t.queryCancelada

/-- Every file a Query can be in has instructions in `P` only. -/
def ArchivosAdmitidos (P : Instruccion → Prop) (archivos : Bytes → Option Bytes) : Prop :=
  ∀ path contenido, archivos path = some contenido → Admite P contenido

theorem ArchivosAdmitidos.mono {Q : Instruccion → Prop} (h : ArchivosAdmitidos P archivos)
    (hPQ : ∀ inst, P inst → Q inst) : ArchivosAdmitidos Q archivos :=
  fun path contenido harchivo l hl => hPQ _ (h path contenido harchivo l hl)

/-- The loops after a turn, with what the turn gave. -/
def TurnosParejos {α : Type*} (R : σ → τ → Prop) (r : Bucle σ × α) (r' : Bucle τ × α) : Prop :=
  BuclesParejos R r.1 r'.1 ∧ r.2 = r'.2

theorem correrQuery_pareja (h : Imita R P ej ej') (harchivos : ArchivosAdmitidos P archivos)
    (id pc : ℤ) (path : Bytes) (hst : BuclesParejos R s t) :
    TurnosParejos R (correrQuery ej archivos s id pc path)
      (correrQuery ej' archivos t id pc path) := by
  unfold correrQuery
  cases harchivo : archivos path with
  | none => exact ⟨hst, rfl⟩
  | some contenido =>
    obtain ⟨r, r', ⟨hparejos, hsucesos⟩, hr, hr'⟩ := procesarQuery_igualados h id
      s.queryCancelada (if s.desalojado then some 0 else none) (harchivos path contenido harchivo)
      (aSizeT pc) hst.interprete
    rw [hst.desalojado, hst.queryCancelada] at hr hr'
    simp only [hst.desalojado, hst.queryCancelada, hr, hr']
    exact ⟨⟨hparejos, rfl, rfl⟩, hsucesos⟩

variable {pathQueries : Bytes}

theorem BuclesParejos.conPaths (hst : BuclesParejos R s t) (paths : MasterMessages.Paths) :
    BuclesParejos R (conPaths s paths) (conPaths t paths) :=
  ⟨⟨rfl, hst.interprete.entorno⟩, hst.desalojado, hst.queryCancelada⟩

/-- Both variables are set to the same on both sides. -/
theorem BuclesParejos.conVariables (hst : BuclesParejos R s t) (d c : Bool) :
    BuclesParejos R { s with desalojado := d, queryCancelada := c }
      { t with desalojado := d, queryCancelada := c } :=
  ⟨hst.interprete, rfl, rfl⟩

theorem sameTurn_enviarPath (h : Imita R P ej ej') (harchivos : ArchivosAdmitidos P archivos)
    (hst : BuclesParejos R s t) (b : Bytes) :
    SameTurn (BuclesParejos R) (atenderEnviarPath ej archivos pathQueries s b)
      (atenderEnviarPath ej' archivos pathQueries t b) := by
  unfold atenderEnviarPath
  split
  · rfl
  · next idQuery pcInicial nombre campos b' _ =>
    split_ifs
    · rw [hst.interprete.paths]
      obtain ⟨hbucles, hsucesos⟩ := correrQuery_pareja h harchivos
        (enteroDe (idQuery.take 4)).toInt (enteroDe (pcInicial.take 4)).toInt
        (MasterMessages.generarPathQuery pathQueries (cString nombre))
        ((hst.conPaths _).conVariables false false)
      exact ⟨congrArg _ hsucesos, rfl, hbucles⟩
    · rfl
  · rfl

theorem sameTurn_reanudar (h : Imita R P ej ej') (harchivos : ArchivosAdmitidos P archivos)
    (hst : BuclesParejos R s t) (b : Bytes) :
    SameTurn (BuclesParejos R) (atenderReanudar ej archivos s b)
      (atenderReanudar ej' archivos t b) := by
  unfold atenderReanudar
  split
  · rfl
  · next qid b' _ =>
    split
    · rfl
    · next pc b'' _ =>
      rw [hst.interprete.paths]
      cases MasterMessages.getPathForQid t.interprete.paths qid.toInt with
      | none => exact ⟨rfl, rfl, hst⟩
      | some path =>
        obtain ⟨hbucles, hsucesos⟩ := correrQuery_pareja h harchivos qid.toInt pc.toInt path
          (hst.conVariables false false)
        dsimp only
        rw [hbucles.interprete.paths]
        exact ⟨congrArg _ hsucesos, rfl, hbucles.conPaths _⟩

/-- A turn gives the same event on both sides and leaves the same stream. -/
theorem sameTurn_turno (h : Imita R P ej ej') (harchivos : ArchivosAdmitidos P archivos)
    (s : Bucle σ) (t : Bucle τ) (b : Bytes) (hst : BuclesParejos R s t) :
    SameTurn (BuclesParejos R) (turno ej archivos pathQueries s b)
      (turno ej' archivos pathQueries t b) := by
  unfold turno
  cases recibirOperacion b with
  | none => rfl
  | some p =>
    obtain ⟨op, b'⟩ := p
    dsimp only
    split_ifs
    · exact sameTurn_enviarPath h harchivos hst b'
    · split
      · exact ⟨rfl, rfl, hst.interprete, hst.desalojado, rfl⟩
      · exact ⟨rfl, rfl, hst.interprete, hst.desalojado, rfl⟩
    · split
      · exact ⟨rfl, rfl, hst.interprete, rfl, hst.queryCancelada⟩
      · exact ⟨rfl, rfl, hst.interprete, rfl, hst.queryCancelada⟩
    · exact sameTurn_reanudar h harchivos hst b'
    · rfl
    · exact ⟨rfl, rfl, hst⟩

/-- Whatever the Master sends, the two Workers do the same. -/
theorem escuchar_eq (h : Imita R P ej ej') (harchivos : ArchivosAdmitidos P archivos)
    (hst : BuclesParejos R s t) (b : Bytes) :
    escuchar ej archivos pathQueries s b = escuchar ej' archivos pathQueries t b :=
  listen_eq_of_sameTurn (sameTurn_turno h harchivos) hst b

end Bucle

end MasterOfFiles.HandlerSimulation
