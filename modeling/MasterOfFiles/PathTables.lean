import MasterOfFiles.MasterMessages
import MasterOfFiles.RunTraces
import MasterOfFiles.SchedulerSteps

/-!
The paths the Workers keep for the Queries they may have to resume. Each Worker has a
table of its own: OP_ENVIAR_PATH adds an entry, and every END and every resumed run takes
one out. The Master sends a preempted Query to any free Worker and never sends its path a
second time. A Worker comes to its packets in the order they are sent and its table
depends on nothing else, so the table here is the one it has when it comes to the packet;
the fields of a packet are taken to be received as they were sent.
-/
namespace MasterOfFiles.PathTables

open KeyedLists SortedLists ByteBuffers PartialRuns RunTraces SchedulerState SchedulerSteps
open MasterMessages

section Sistema

def qidDe : Paquete → ℕ
  | .enviarPath qid _ _ | .reanudarQuery qid _ _ => qid

/-- The last packet about a Query: whom it went to, and how many END instructions the run
it started executes. -/
structure Entrega where
  worker : ℕ
  paquete : Paquete
  fines : ℕ
  deriving DecidableEq

/-- The Master, and the tables of the Workers, which are numbered by their connections. -/
structure Sistema where
  master : Master
  paths : ℕ → Paths
  ultima : ℕ → Option Entrega

def sistemaInicial : Sistema := ⟨inicial, fun _ => ⟨[], 0⟩, fun _ => none⟩

/-- What a step puts on the socket of a Worker. -/
def entregado (s : Master) : Evento → Option (ℕ × Paquete)
  | .planificador true => match s.planificador with
    | .enviar _ w p => some (w, p)
    | _ => none
  | _ => none

/-- The branches of the Worker's main loop; run `n` of the Worker `w` executes `fines w n`
END instructions. -/
def atender (fines : ℕ → ℕ) (pathQueries : Bytes) (p : Paths) : Paquete → Paths
  | .enviarPath qid _ path =>
    procesarQuery fines (addPathForQid p qid (generarPathQuery pathQueries path)) qid
  | .reanudarQuery qid _ _ => match getPathForQid p qid with
    | none => p
    | some _ => removePathForQid qid (procesarQuery fines p qid)

variable (fines : ℕ → ℕ → ℕ) (pathQueries : Bytes)

def entregar (s : Sistema) (w : ℕ) (p : Paquete) : Sistema :=
  { s with
    paths := Function.update s.paths w (atender (fines w) pathQueries (s.paths w) p)
    ultima := Function.update s.ultima (qidDe p) (some ⟨w, p, fines w (s.paths w).corridas⟩) }

variable (L : ListSort ℕ) (cfg : Config)

def pasoConPaths (s : Sistema) (e : Evento) : Except Fallo Sistema :=
  match paso L cfg s.master e with
  | .error f => .error f
  | .ok master => match entregado s.master e with
    | none => .ok { s with master := master }
    | some (w, p) => .ok { entregar fines pathQueries s w p with master := master }

end Sistema

section Propiedad

/-- A Worker that is asked to resume a Query finds its path. -/
def Reanuda (s : Sistema) (e : Evento) : Prop :=
  ∀ w qid pc path, entregado s.master e = some (w, .reanudarQuery qid pc path) →
    (getPathForQid (s.paths w) qid).isSome

/-- A Query is resumed once, by the Worker that got its path, whose run of it executed no
END. -/
def reanudaDondeEmpezo (s : Sistema) (e : Evento) : Bool :=
  match entregado s.master e with
  | some (w, .reanudarQuery qid _ _) => match s.ultima qid with
    | some ⟨w', .enviarPath _ _ _, 0⟩ => decide (w' = w)
    | _ => false
  | _ => true

end Propiedad

section Tablas

variable {p : Paths} {qid qid' : ℤ}

theorem getPathForQid_add_ne (h : qid' ≠ qid) (path : Bytes) :
    getPathForQid (addPathForQid p qid path) qid' = getPathForQid p qid' := by
  unfold getPathForQid addPathForQid
  rw [first_append, first, if_neg (Ne.symm h), first, Option.or_none]

theorem isSome_getPathForQid_add (p : Paths) (qid : ℤ) (path : Bytes) :
    (getPathForQid (addPathForQid p qid path) qid).isSome := by
  unfold getPathForQid addPathForQid
  rw [first_append, Option.isSome_map, Option.isSome_or]
  simp [first]

theorem getPathForQid_remove_ne (h : qid' ≠ qid) (p : Paths) :
    getPathForQid (removePathForQid qid p) qid' = getPathForQid p qid' := by
  unfold getPathForQid removePathForQid
  rw [first_eraseFirst_ne h]

theorem getPathForQid_procesarQuery_ne (h : qid' ≠ qid) (fines : ℕ → ℕ) (p : Paths) :
    getPathForQid (procesarQuery fines p qid) qid' = getPathForQid p qid' := by
  have hveces : ∀ n, getPathForQid ((removePathForQid qid)^[n] p) qid' =
      getPathForQid p qid' := by
    intro n
    induction n with
    | zero => rfl
    | succ n ih =>
      rw [Function.iterate_succ_apply', getPathForQid_remove_ne h]
      exact ih
  exact hveces (fines p.corridas)

/-- A packet changes the entries of its own Query only. -/
theorem getPathForQid_atender_ne (fines : ℕ → ℕ) (pathQueries : Bytes) (p : Paths)
    {paquete : Paquete} {n : ℕ} (h : n ≠ qidDe paquete) :
    getPathForQid (atender fines pathQueries p paquete) n = getPathForQid p n := by
  cases paquete with
  | enviarPath qid pc path =>
    have hne : (n : ℤ) ≠ qid := fun heq => h (Int.ofNat.inj heq)
    rw [atender, getPathForQid_procesarQuery_ne hne, getPathForQid_add_ne hne]
  | reanudarQuery qid pc path =>
    have hne : (n : ℤ) ≠ qid := fun heq => h (Int.ofNat.inj heq)
    unfold atender
    dsimp only
    cases getPathForQid p qid with
    | none => rfl
    | some path =>
      dsimp only
      rw [getPathForQid_remove_ne hne, getPathForQid_procesarQuery_ne hne]

/-- A path is kept until an END of its Query is executed. -/
theorem isSome_getPathForQid_atender {fines : ℕ → ℕ} (hfines : fines p.corridas = 0)
    (pathQueries : Bytes) (qid pc : ℕ) (path : Bytes) :
    (getPathForQid (atender fines pathQueries p (.enviarPath qid pc path)) qid).isSome := by
  have hprocesar : (procesarQuery fines (addPathForQid p qid
      (generarPathQuery pathQueries path)) qid).lista =
        (addPathForQid p qid (generarPathQuery pathQueries path)).lista := by
    unfold procesarQuery
    rw [show (addPathForQid p qid (generarPathQuery pathQueries path)).corridas = p.corridas
      from rfl, hfines]
    rfl
  rw [atender, getPathForQid, hprocesar]
  exact isSome_getPathForQid_add p qid _

end Tablas

section Corrida

variable {fines : ℕ → ℕ → ℕ} {pathQueries : Bytes} {s s' : Sistema} {e : Evento}

/-- A Query whose last packet was its OP_ENVIAR_PATH, with no END in its run, is in the
table of the Worker that got it. -/
def TablaAlDia (s : Sistema) : Prop :=
  ∀ n w qid pc path, s.ultima n = some ⟨w, .enviarPath qid pc path, 0⟩ →
    (getPathForQid (s.paths w) n).isSome

theorem tablaAlDia_inicial : TablaAlDia sistemaInicial :=
  fun _ _ _ _ _ h => absurd h (Option.some_ne_none _).symm

theorem tablaAlDia_entregar (h : TablaAlDia s) (w : ℕ) (p : Paquete) :
    TablaAlDia (entregar fines pathQueries s w p) := by
  intro n w' qid pc path hultima
  change Function.update s.ultima (qidDe p) _ n = _ at hultima
  change (getPathForQid (Function.update s.paths w _ w') n).isSome
  by_cases hn : n = qidDe p
  · obtain rfl := hn
    rw [Function.update_self] at hultima
    obtain ⟨rfl, rfl, hfines⟩ := Entrega.mk.inj (Option.some.inj hultima)
    rw [Function.update_self]
    exact isSome_getPathForQid_atender hfines pathQueries qid pc path
  · rw [Function.update_of_ne hn] at hultima
    have hentrada := h n w' qid pc path hultima
    by_cases hw : w' = w
    · obtain rfl := hw
      rw [Function.update_self, getPathForQid_atender_ne _ _ _ hn]
      exact hentrada
    · rw [Function.update_of_ne hw]
      exact hentrada

theorem tablaAlDia_paso {L : ListSort ℕ} {cfg : Config} (h : TablaAlDia s)
    (hop : pasoConPaths fines pathQueries L cfg s e = .ok s') : TablaAlDia s' := by
  unfold pasoConPaths at hop
  cases hpaso : paso L cfg s.master e with
  | error f => simp [hpaso] at hop
  | ok master =>
    rw [hpaso] at hop
    cases hentrega : entregado s.master e with
    | none =>
      rw [hentrega] at hop
      obtain rfl := Except.ok.inj hop
      exact h
    | some wp =>
      rw [hentrega] at hop
      obtain rfl := Except.ok.inj hop
      exact tablaAlDia_entregar h wp.1 wp.2

theorem reanuda_of_tablaAlDia (h : TablaAlDia s) (he : reanudaDondeEmpezo s e = true) :
    Reanuda s e := by
  intro w qid pc path hentrega
  unfold reanudaDondeEmpezo at he
  rw [hentrega] at he
  dsimp only at he
  split at he
  · next w' qid' pc' path' hultima =>
    obtain rfl := of_decide_eq_true he
    exact h qid w' qid' pc' path' hultima
  · exact absurd he Bool.false_ne_true

/-- Where every Query is resumed once and where it was begun, each resumption finds its
path. -/
theorem reanuda_run (fines : ℕ → ℕ → ℕ) (pathQueries : Bytes) (L : ListSort ℕ) (cfg : Config)
    {xs : List Evento} (hxs : EachStep (pasoConPaths fines pathQueries L cfg)
      (fun s e => reanudaDondeEmpezo s e = true) sistemaInicial xs) :
    EachStep (pasoConPaths fines pathQueries L cfg) Reanuda sistemaInicial xs :=
  eachStep_of_invariant (fun _ _ _ h _ hop => tablaAlDia_paso h hop)
    (fun _ _ _ h he _ => reanuda_of_tablaAlDia h he) tablaAlDia_inicial hxs

/-- The planner, from one Query to the next. -/
def planifica : List Evento := List.replicate 6 (.planificador true)

/-- Query 0 runs on the first Worker, which is asked to give it back for Query 1. -/
def desalojo : List Evento :=
  .conectaQuery [97] 5 :: List.replicate 7 (.hilo 2 true) ++ planifica ++
    .conectaQuery [98] 1 :: List.replicate 8 (.hilo 3 true) ++
    .mensaje 0 (.queryDesalojada 0 2) :: List.replicate 9 (.hilo 0 true) ++ planifica

/-- The second Worker is not listed yet, and Query 0 waits until Query 1 has ended. -/
def enElMismo : List Evento :=
  [.conectaWorker 7, .hilo 0 true, .hilo 0 true, .conectaWorker 8] ++ desalojo ++
    .mensaje 0 (.finQuery (some 1)) :: List.replicate 7 (.hilo 0 true) ++ planifica

theorem reanuda_enElMismo : EachStep (pasoConPaths (fun _ _ => 0) [] (insertionSort ℕ)
    ⟨.prioridades, 0⟩) Reanuda sistemaInicial enElMismo :=
  reanuda_run _ _ _ _ (by decide +kernel)

/-- The second Worker is free, and gets Query 0 next. -/
def enOtro : List Evento :=
  [.conectaWorker 7, .hilo 0 true, .hilo 0 true, .conectaWorker 8, .hilo 1 true, .hilo 1 true] ++
    desalojo ++ List.replicate 5 (.planificador true)

theorem not_reanuda_enOtro : ¬EachStep (pasoConPaths (fun _ _ => 0) [] (insertionSort ℕ)
    ⟨.prioridades, 0⟩) Reanuda sistemaInicial (enOtro ++ [.planificador true]) := by
  intro h
  have hreanuda := eachStep_last h (run_eq_after (by decide)) (by decide)
  exact absurd (hreanuda 1 0 2 [97] (by decide)) (by decide)

end Corrida

end MasterOfFiles.PathTables
