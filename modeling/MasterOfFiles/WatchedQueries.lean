import MasterOfFiles.CellQueries
import MasterOfFiles.StorageAnswers

/-!
Whole Queries in front of the Storage with its strings watched. Of a Storage that uses a
freed string, or leaves a request without an answer, nothing is known any more, so here it
answers nothing from then on. As long as no string has been freed and every block is on
disk, the requests that free none leave it so, and the Worker meets the Storage of the
values.
-/
namespace MasterOfFiles.WatchedQueries

open ByteBuffers StorageState StorageFiles StorageOperations ReachableStates
open BlockZero WatchedRuns PlainNames SharedStrings StorageAnswers
open AccessBounds HandlerSimulation TransparentQueries ServerMorphisms SharedCell CellQueries
open QueryText (Instruccion)
open WorkerLoop (escuchar)
open WorkerMemory (Ram Reloj Servidor)
open WorkerInstructions (procesoInicial separarFileTag)
open ReadReports (letras)
open StorageMessages (texto)
open TransparentPaging (ramChica relojParado)

variable {md5 : Bytes → String} {sb : Superbloque} {s : Storage} {p : Punteros} {c : Vigilado}
  {x : Solicitud} {f t : String}

section Liberadas

/-- Neither a DELETE nor a TRUNCATE to size 0. -/
def NoLibera : Solicitud → Prop
  | .truncate _ _ tamanio => tamanio ≠ 0
  | .delete .. => False
  | _ => True

theorem liberadas_rastroCrecer (p : Punteros) (f t : String) (blocks : List String) :
    (rastroCrecer p f t blocks).punteros.liberadas = p.liberadas := by
  unfold rastroCrecer fijarCeldas
  dsimp only
  split
  · rfl
  · rfl

/-- Only a size of 0 frees the strings of the array. -/
theorem rastroTruncate_noLibera {tamanio : ℤ} (hx : tamanio ≠ 0) :
    (rastroTruncate sb p s f t tamanio).sueltas = [] ∧
      (rastroTruncate sb p s f t tamanio).punteros.liberadas = p.liberadas := by
  unfold rastroTruncate rastroTerminar
  split
  · dsimp only
    split_ifs
    · exact ⟨rfl, liberadas_rastroCrecer p f t _⟩
    · exact ⟨rfl, rfl⟩
    · exact ⟨rfl, liberadas_rastroCrecer p f t _⟩
    · exact ⟨rfl, rfl⟩
  · exact ⟨rfl, rfl⟩

theorem rastro_noLibera (sb : Superbloque) (p : Punteros) (s : Storage) (hx : NoLibera x) :
    (rastro sb p s x).sueltas = [] ∧ (rastro sb p s x).punteros.liberadas = p.liberadas := by
  cases x with
  | create f t =>
    unfold rastro rastroCreate
    dsimp only
    split_ifs
    · exact ⟨rfl, rfl⟩
    · exact ⟨rfl, rfl⟩
  | truncate f t tamanio => exact rastroTruncate_noLibera hx
  | tag fo tgo fd td =>
    unfold rastro rastroTag
    dsimp only
    split_ifs
    · exact ⟨rfl, rfl⟩
    · exact ⟨rfl, rfl⟩
  | commit f t =>
    unfold rastro rastroCommit
    dsimp only
    split
    · exact ⟨rfl, rfl⟩
    · split_ifs
      · exact ⟨rfl, rfl⟩
      · exact ⟨rfl, rfl⟩
  | delete f t => exact hx.elim
  | _ => exact ⟨rfl, rfl⟩

/-- No string has been freed, every logical block is on disk, and nothing has gone wrong. -/
structure Cuidado (sb : Superbloque) (c : Vigilado) : Prop where
  known : c.known = true
  liberadas : c.ghost.liberadas = []
  coherente : Coherente sb c.state
  enlazada : Enlazada c.state

/-- Such a request is answered, as the values say, and frees no string. -/
theorem pasoVigilado_cuidado (md5 : Bytes → String) (h : Cuidado sb c) (hx : NoLibera x) :
    ∃ c', pasoVigilado md5 sb c x = .ok c' ∧ Cuidado sb c' ∧
      paso md5 sb c.state x = .ok c'.state := by
  have hresponde : ∃ s', paso md5 sb c.state x = .ok s' := exists_paso h.coherente h.enlazada x
  obtain ⟨s', hpaso⟩ := hresponde
  obtain ⟨hsueltas, hliberadas⟩ := rastro_noLibera sb c.ghost c.state hx
  have hharm : tocaLiberadas c.ghost (rastro sb c.ghost c.state x) = false := by
    unfold tocaLiberadas
    rw [hsueltas, h.liberadas]
    simp
  have hdelete : ∀ f t, x ≠ .delete f t := by
    rintro f t rfl
    exact hx
  obtain ⟨hcoherente, henlazada⟩ := (conserva_enlazada hdelete).paso h.coherente h.enlazada hpaso
  refine ⟨_, watchedStep_of_harmless h.known hpaso hharm, ⟨rfl, ?_, hcoherente, henlazada⟩, hpaso⟩
  change (rastro sb c.ghost c.state x).sueltas ++ _ = []
  rw [hsueltas, hliberadas, h.liberadas, List.nil_append]

end Liberadas

section Servidor

variable (md5 : Bytes → String) (sb : Superbloque)

/-- Nothing is known of a Storage that does not answer. -/
def pedirVigilado (c : Vigilado) (x : Solicitud) : Vigilado × Bool :=
  match pasoVigilado md5 sb c x with
  | .error _ => ({ c with known := false }, false)
  | .ok c' => (c', c'.known && (pedir md5 sb c.state x).2)

def pedirFileTagVigilado (c : Vigilado) (fileTag : String) (x : String → String → Solicitud) :
    Vigilado × Bool :=
  match separarFileTag fileTag with
  | none => (c, false)
  | some ft => pedirVigilado md5 sb c (x ft.1 ft.2)

/-- The Storage as the Worker's memory meets it, until nothing is known of it. -/
def servidorVigilado : Servidor Vigilado where
  readBlock := fun c fileTag nroPag =>
    (c, if c.known then leerBloque sb c.state fileTag nroPag else none)
  writeBlock := fun c file tag nroPag b => pedirVigilado md5 sb c (.writeBlock file tag nroPag b)
  create := fun c fileTag => pedirFileTagVigilado md5 sb c fileTag .create
  truncate := fun c fileTag tamanio =>
    pedirFileTagVigilado md5 sb c fileTag fun file tag => .truncate file tag tamanio
  tag := fun c origen destino => match separarFileTag origen with
    | none => (c, false)
    | some ft => pedirFileTagVigilado md5 sb c destino (.tag ft.1 ft.2)
  commit := fun c fileTag => pedirFileTagVigilado md5 sb c fileTag .commit
  flush := fun c file tag => pedirVigilado md5 sb c (.flush file tag)
  delete := fun c file tag => pedirVigilado md5 sb c (.delete file tag)

variable {sb}

/-- The Storage is still well, and has answered what that of the values does. -/
def Acompana {α : Type*} (sb : Superbloque) (r : Vigilado × α) (r' : Storage × α) : Prop :=
  Cuidado sb r.1 ∧ Prod.map Watched.state id r = r'

theorem Acompana.dentro {α : Type*} {r : Vigilado × α} {r' : Storage × α}
    (h : Acompana sb r r') (c : {c : Vigilado // Cuidado sb c}) :
    r' = Prod.map (fun d => d.1.state) id (ServerMorphisms.dentro c r) := by
  rw [dentro_eq c h.1]
  exact h.2.symm

theorem acompana_pedir (h : Cuidado sb c) (x : Solicitud) (hx : NoLibera x) :
    Acompana sb (pedirVigilado md5 sb c x) (pedir md5 sb c.state x) := by
  obtain ⟨c', hvigilado, hcuidado, hpaso⟩ := pasoVigilado_cuidado md5 h hx
  have hestado : (pedir md5 sb c.state x).1 = c'.state := by
    unfold pedir
    unfold paso at hpaso
    cases hres : atenderWorker md5 sb c.state x with
    | error e => simp [hres, Except.map] at hpaso
    | ok r => simpa [hres, Except.map] using hpaso
  have hpedido : pedirVigilado md5 sb c x = (c', (pedir md5 sb c.state x).2) := by
    simp [pedirVigilado, hvigilado, hcuidado.known]
  rw [hpedido]
  exact ⟨hcuidado, Prod.ext hestado.symm rfl⟩

theorem acompana_pedirFileTag (h : Cuidado sb c) (a : String)
    (x : String → String → Solicitud) (hx : ∀ file tag, NoLibera (x file tag)) :
    Acompana sb (pedirFileTagVigilado md5 sb c a x) (pedirFileTag md5 sb c.state a x) := by
  unfold pedirFileTagVigilado pedirFileTag
  cases separarFileTag a with
  | none => exact ⟨h, rfl⟩
  | some p => exact acompana_pedir md5 h (x p.1 p.2) (hx p.1 p.2)

theorem acompana_leer (h : Cuidado sb c) (a : String) (n : ℕ) :
    Acompana sb ((servidorVigilado md5 sb).readBlock c a n)
      ((servidorStorage md5 sb).readBlock c.state a n) := by
  refine ⟨h, ?_⟩
  change (c.state, if c.known then leerBloque sb c.state a n else none) = _
  rw [if_pos h.known]
  rfl

theorem acompana_tag (h : Cuidado sb c) (a a' : String) :
    Acompana sb ((servidorVigilado md5 sb).tag c a a')
      ((servidorStorage md5 sb).tag c.state a a') := by
  unfold servidorVigilado servidorStorage
  dsimp only
  cases separarFileTag a with
  | none => exact ⟨h, rfl⟩
  | some p => exact acompana_pedirFileTag md5 h a' (.tag p.1 p.2) fun _ _ => trivial

theorem cerrado_servidorVigilado : Cerrado (servidorVigilado md5 sb) (Cuidado sb)
    (fun _ tamanio => tamanio ≠ 0) fun _ => False where
  readBlock _ a n h := (acompana_leer md5 h a n).1
  writeBlock _ f t p b h := (acompana_pedir md5 h (.writeBlock f t p b) trivial).1
  create _ a h := (acompana_pedirFileTag md5 h a .create fun _ _ => trivial).1
  truncate _ a n hn h :=
    (acompana_pedirFileTag md5 h a (fun file tag => .truncate file tag n) fun _ _ => hn).1
  tag _ a a' h := (acompana_tag md5 h a a').1
  commit _ a h := (acompana_pedirFileTag md5 h a .commit fun _ _ => trivial).1
  flush _ f t h := (acompana_pedir md5 h (.flush f t) trivial).1
  delete _ _ _ hft _ := hft.elim

/-- While it is well, the watched Storage is that of the values. -/
theorem morfismo_valores : Morfismo (fun d : {c : Vigilado // Cuidado sb c} => d.1.state)
    (restringido (servidorVigilado md5 sb) (Cuidado sb)) (servidorStorage md5 sb)
    (fun _ tamanio => tamanio ≠ 0) fun _ => False where
  readBlock d a n := (acompana_leer md5 d.2 a n).dentro d
  writeBlock d f t p b := (acompana_pedir md5 d.2 (.writeBlock f t p b) trivial).dentro d
  create d a := (acompana_pedirFileTag md5 d.2 a .create fun _ _ => trivial).dentro d
  truncate d a n hn :=
    (acompana_pedirFileTag md5 d.2 a (fun file tag => .truncate file tag n) fun _ _ => hn).dentro d
  tag d a a' := (acompana_tag md5 d.2 a a').dentro d
  commit d a := (acompana_pedirFileTag md5 d.2 a .commit fun _ _ => trivial).dentro d
  flush d f t := (acompana_pedir md5 d.2 (.flush f t) trivial).dentro d
  delete _ _ _ hft := hft.elim

end Servidor

section Consultas

/-- An instruction that frees no string and whose File:Tags are plain. -/
@[mk_iff]
structure Sencilla (raiz : Bytes) (inst : Instruccion) : Prop where
  truncate : inst.comando = letras "TRUNCATE" → ConfigText.atoi (texto inst.arg2) ≠ 0
  delete : inst.comando ≠ letras "DELETE"
  llana : ∀ p ∈ separarFileTag (texto inst.arg1), Llano raiz p.1 p.2
  destino : inst.comando = letras "TAG" →
    ∀ p ∈ separarFileTag (texto inst.arg2), Llano raiz p.1 p.2

instance (raiz : Bytes) : DecidablePred (Sencilla raiz) := fun inst =>
  decidable_of_iff _ (sencilla_iff raiz inst).symm

theorem Sencilla.permitida {raiz : Bytes} {inst : Instruccion} (h : Sencilla raiz inst) :
    Permitida (fun _ tamanio => tamanio ≠ 0) (fun _ => False) inst where
  truncate := h.truncate
  delete hc := absurd hc h.delete

/-- A Worker alone does to the page of a Tag that is linked to block0000 what its Queries do
to an array of one block, for every stream from the Master, whatever the size of its
memory, its algorithm and its clock: from every state that plain requests lead to, as long
as no string has been freed and every block is on disk, by Queries that free none. -/
theorem escuchar_enCelda {raiz : Bytes} (ram : Ram) (reloj : Reloj)
    (hc : AlcanzableVigilado md5 sb raiz c) (hliberadas : c.ghost.liberadas = [])
    (henlazada : Enlazada c.state) (hf : ':' ∉ f.toList) (hcelda : EnCelda f t c.state)
    (hmarcos : 0 < (conBloques sb ram).frames) {archivos : Bytes → Option Bytes}
    (harchivos : ArchivosAdmitidos (fun inst => Sencilla raiz inst ∧
      Admitida (conBloques sb ram) (unaPagina f t) inst) archivos) (pathQueries b : Bytes) :
    escuchar (ejecutores (conBloques sb ram) reloj (servidorVigilado md5 sb)) archivos pathQueries
        (bucleInicial (procesoInicial (conBloques sb ram) c)) b =
      escuchar enPlano archivos pathQueries
        (bucleInicial (planoDeCelda f t (celda c.state))) b := by
  have hcuidado : Cuidado sb c :=
    ⟨hc.known, hliberadas, coherente_alcanzable hc.alcanzable, henlazada⟩
  have hsencillas := harchivos.mono fun inst h => h.1.permitida
  have hadmitidas := harchivos.mono fun inst h => h.2
  have hvigilada := escuchar_imagen (morfismo_restringido (cerrado_servidorVigilado md5))
    (conBloques sb ram) reloj hsencillas pathQueries ⟨c, hcuidado⟩ b
  have hvalores := escuchar_imagen (morfismo_valores md5) (conBloques sb ram) reloj hsencillas
    pathQueries ⟨c, hcuidado⟩ b
  calc escuchar (ejecutores (conBloques sb ram) reloj (servidorVigilado md5 sb)) archivos
        pathQueries (bucleInicial (procesoInicial (conBloques sb ram) c)) b
      = _ := hvigilada
    _ = _ := hvalores.symm
    _ = _ := escuchar_enCelda_valores md5 sb ram reloj hc.alcanzable hf hcelda hmarcos
        hadmitidas pathQueries b

theorem enCelda_freshStart (sb : Superbloque) :
    EnCelda "initial_file" "BASE" (freshStart sb) := by
  obtain ⟨mc, hmc⟩ := freshStart_eq sb
  rw [hmc]
  unfold EnCelda
  have hlink : Function.update (fun _ => none) rutaInicial (some BlockNames.bloqueFisicoInicial)
      rutaInicial = some BlockNames.bloqueFisicoInicial := Function.update_self ..
  exact hlink

theorem alcanzable_inicio (md5 : Bytes → String) (sb : Superbloque) (raiz : Bytes) :
    AlcanzableVigilado md5 sb raiz (inicio sb) := ⟨rfl, [], rfl⟩

/-- A byte written into the first Tag of the Storage beside another that grows, and the
block read back. -/
def escribeEnBase : Bytes :=
  letras ("CREATE a:b\nTRUNCATE a:b 2\nWRITE initial_file:BASE 1 x\n" ++
    "TAG initial_file:BASE c:d\nCOMMIT initial_file:BASE\nREAD initial_file:BASE 0 2\nEND\n")

theorem admite_escribeEnBase : Admite (fun inst => Sencilla raizChica inst ∧
    Admitida (conBloques superbloqueChico ramChica) (unaPagina "initial_file" "BASE") inst)
    escribeEnBase := by
  unfold Admite
  decide +kernel

theorem escuchar_enCelda_inicio :
    let mensaje := Packets.enviarPaquete Packets.opEnviarPath
      [Packets.bytesEntero 0, Packets.bytesEntero 0, [113, 0]]
    escuchar (ejecutores (conBloques superbloqueChico ramChica) relojParado
        (servidorVigilado hashLegible superbloqueChico)) (fun _ => some escribeEnBase) []
        (bucleInicial (procesoInicial (conBloques superbloqueChico ramChica)
          (inicio superbloqueChico))) mensaje =
      escuchar enPlano (fun _ => some escribeEnBase) []
        (bucleInicial (planoDeCelda "initial_file" "BASE" (celda (freshStart superbloqueChico))))
        mensaje := by
  refine escuchar_enCelda ramChica relojParado
    (alcanzable_inicio hashLegible superbloqueChico raizChica) rfl
    (enlazada_freshStart superbloqueChico) (by decide) (enCelda_freshStart superbloqueChico)
    (by decide) ?_ [] _
  intro path contenido h
  exact Option.some.inj h ▸ admite_escribeEnBase

end Consultas

end MasterOfFiles.WatchedQueries
