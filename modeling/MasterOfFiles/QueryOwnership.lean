import MasterOfFiles.ListSums
import MasterOfFiles.WorkerRecords

/-!
Where each query is. Ownership moves from READY to the planner, from it to a listed
Worker's record, and back through the thread that serves the Worker's answer, which
holds the query by itself until it is in READY again or freed. Places are counted,
and every step takes as much from one as it gives to another.
-/
namespace MasterOfFiles.QueryOwnership

open PartialRuns RunTraces ListSums SortedLists SchedulerState SchedulerSteps SchedulerMoves
open ReadyQueue QueryHolders WorkerRecords

variable {L : ListSort ℕ} {cfg : Config} {s s' : Master} {e : Evento}

section Lugares

/-- The query that the planner has dequeued and not yet assigned. -/
def sinAsignar : Planificador → List ℕ
  | .buscarWorker q => [q]
  | .asignar q _ => [q]
  | .reencolar q => [q]
  | _ => []

def deTramite : Tramite → ℕ
  | .desalojada q => q
  | .fin q => q

/-- The query that a thread has taken back from its Worker. -/
def enManos : Hilo → List ℕ
  | .registrarLibre _ t => [deTramite t]
  | .avisarLibre t => [deTramite t]
  | .enviarFin q => [q]
  | .liberarQuery q => [q]
  | .encolar q .worker => [q]
  | _ => []

/-- The query that its own connection is about to put into READY for the first time. -/
def porEntrar : Hilo → List ℕ
  | .encolar q .query => [q]
  | _ => []

def ejecuta (q : ℕ) (y : Option Worker) : ℕ := if y.bind Worker.ejecutando = some q then 1 else 0

/-- How often the query is in READY. -/
def enCola (s : Master) (q : ℕ) : ℕ := s.colaReadyFIFO.count q

def conPlanificador (s : Master) (q : ℕ) : ℕ := (sinAsignar s.planificador).count q

/-- How many Workers of listaWorkersConectados are executing the query. -/
def enWorkers (s : Master) (q : ℕ) : ℕ :=
  total (fun w => ejecuta q (s.memWorkers w)) s.listaWorkersConectados

def enHilos (s : Master) (q : ℕ) : ℕ := total (fun hl => (enManos hl).count q) s.hilos

def entrando (s : Master) (q : ℕ) : ℕ := total (fun hl => (porEntrar hl).count q) s.hilos

def vive (s : Master) (q : ℕ) : ℕ := if (s.memQueries q).isSome then 1 else 0

def lugares (s : Master) (q : ℕ) : ℕ :=
  enCola s q + conPlanificador s q + enWorkers s q + enHilos s q + entrando s q

/-- The query is in as many places as there are queries of that address. -/
def Ubicada (s : Master) (q : ℕ) : Prop := lugares s q = vive s q

theorem enManos_bucle (v : Rol) : enManos (bucle v) = [] := by
  cases v <;> rfl

theorem porEntrar_bucle (v : Rol) : porEntrar (bucle v) = [] := by
  cases v <;> rfl

theorem enManos_continuar (t : Tramite) : enManos (continuar t) = [deTramite t] := by
  cases t <;> rfl

theorem porEntrar_continuar (t : Tramite) : porEntrar (continuar t) = [] := by
  cases t <;> rfl

theorem vive_of_update {p : ℕ} {x y : Query} (hp : s.memQueries p = some x)
    (hmem : s'.memQueries = Function.update s.memQueries p (some y)) (q : ℕ) :
    vive s' q = vive s q := by
  unfold vive
  rw [hmem]
  by_cases hqp : q = p
  · subst hqp
    simp [hp]
  · rw [Function.update_of_ne hqp]

variable (s') in
theorem vive_of_libera {p : ℕ} {x : Query} (hp : s.memQueries p = some x)
    (hmem : s'.memQueries = Function.update s.memQueries p none) (q : ℕ) :
    vive s' q + [p].count q = vive s q := by
  unfold vive
  rw [hmem]
  by_cases hqp : q = p
  · subst hqp
    simp [hp]
  · rw [Function.update_of_ne hqp, List.count_singleton]
    simp [Ne.symm hqp]

variable (s') in
theorem vive_of_registra {k : ℕ} {x : Query} (hk : s.memQueries k = none)
    (hmem : s'.memQueries = Function.update s.memQueries k (some x)) (q : ℕ) :
    vive s' q = vive s q + [k].count q := by
  unfold vive
  rw [hmem]
  by_cases hqk : q = k
  · subst hqk
    simp [hk]
  · rw [Function.update_of_ne hqk, List.count_singleton]
    simp [Ne.symm hqk]

theorem isSome_envejecer_iff (m : ℕ → Option Query) (l : List ℕ) (q : ℕ) :
    (envejecer m l q).isSome = (m q).isSome := by
  induction l generalizing m with
  | nil => rfl
  | cons a l ih =>
    refine (ih _).trans ?_
    by_cases hqa : q = a
    · subst hqa
      simp
    · simp [Function.update_of_ne hqa]

variable (s') in
/-- A thread's move changes the two counts of threads by what it holds. -/
theorem hilos_mueve {k : ℕ} {hl hl' : Hilo} (hk : s.hilos[k]? = some hl)
    (hh : s'.hilos = s.hilos.set k hl') (q : ℕ) :
    enHilos s' q + (enManos hl).count q = enHilos s q + (enManos hl').count q ∧
      entrando s' q + (porEntrar hl).count q = entrando s q + (porEntrar hl').count q := by
  unfold enHilos entrando
  rw [hh]
  exact ⟨total_set (fun hl => (enManos hl).count q) hk hl',
    total_set (fun hl => (porEntrar hl).count q) hk hl'⟩

theorem enWorkers_of_update {w : ℕ} {o : Option Worker} {q : ℕ}
    (hlista : s'.listaWorkersConectados = s.listaWorkersConectados)
    (hmem : s'.memWorkers = Function.update s.memWorkers w o)
    (ho : ejecuta q o = ejecuta q (s.memWorkers w)) : enWorkers s' q = enWorkers s q := by
  unfold enWorkers
  rw [hlista, hmem]
  exact total_update_eq (ejecuta q) s.memWorkers ho _

variable (s') in
/-- A listed Worker is given a query to execute, or it is taken from it. -/
theorem enWorkers_escribe (hs : Fichas s) {w : ℕ} {o : Option Worker} (q : ℕ)
    (hw : w ∈ s.listaWorkersConectados)
    (hlista : s'.listaWorkersConectados = s.listaWorkersConectados)
    (hmem : s'.memWorkers = Function.update s.memWorkers w o) :
    enWorkers s' q + ejecuta q (s.memWorkers w) = enWorkers s q + ejecuta q o := by
  unfold enWorkers
  rw [hlista, hmem]
  exact total_update (ejecuta q) s.memWorkers o hs.nodup hw

variable (s') in
theorem enWorkers_baja {k : ℕ} (q : ℕ) (hin : k ∈ s.listaWorkersConectados)
    (hlista : s'.listaWorkersConectados = s.listaWorkersConectados.erase k)
    (hmem : s'.memWorkers = s.memWorkers) :
    enWorkers s' q + ejecuta q (s.memWorkers k) = enWorkers s q := by
  unfold enWorkers
  rw [hlista, hmem]
  exact total_erase (fun w => ejecuta q (s.memWorkers w)) hin

theorem ejecuta_some {y : Worker} {p : ℕ} (hy : y.ejecutando = some p) (q : ℕ) :
    ejecuta q (some y) = [p].count q := by
  simp [ejecuta, hy, List.count_singleton]

theorem ejecuta_none {y : Worker} (hy : y.ejecutando = none) (q : ℕ) :
    ejecuta q (some y) = 0 := by
  simp [ejecuta, hy]

end Lugares

section Pasos

/-- The step moves a query from one place to another, or makes or frees one. -/
def Equilibrio (s s' : Master) (q : ℕ) : Prop :=
  lugares s' q + vive s q = lugares s q + vive s' q

/-- No thread moves, and READY, the planner and the listed Workers together hold what
they held. -/
theorem equilibrio_quietos {q : ℕ} (hh : s'.hilos = s.hilos)
    (hw : enCola s' q + conPlanificador s' q + enWorkers s' q =
      enCola s q + conPlanificador s q + enWorkers s q) (hv : vive s' q = vive s q) :
    Equilibrio s s' q := by
  unfold Equilibrio lugares enHilos entrando
  rw [hh, hv]
  omega

/-- The planner moves on with what it held. -/
theorem equilibrio_turno {q : ℕ} (hh : s'.hilos = s.hilos)
    (hcola : s'.colaReadyFIFO = s.colaReadyFIFO)
    (hlista : s'.listaWorkersConectados = s.listaWorkersConectados)
    (hworkers : s'.memWorkers = s.memWorkers) (hqueries : s'.memQueries = s.memQueries)
    (hp : sinAsignar s'.planificador = sinAsignar s.planificador) : Equilibrio s s' q := by
  apply equilibrio_quietos hh
  · rw [enCola, enCola, conPlanificador, conPlanificador, enWorkers, enWorkers, hcola, hp, hlista,
      hworkers]
  · rw [vive, vive, hqueries]

/-- A thread moves on with what it held. -/
theorem equilibrio_mueve {k q : ℕ} {hl hl' : Hilo} (hk : s.hilos[k]? = some hl)
    (hh : s'.hilos = s.hilos.set k hl')
    (hm : enManos hl' = enManos hl) (he : porEntrar hl' = porEntrar hl)
    (hcola : s'.colaReadyFIFO = s.colaReadyFIFO) (hplan : s'.planificador = s.planificador)
    (hw : enWorkers s' q = enWorkers s q) (hv : vive s' q = vive s q) : Equilibrio s s' q := by
  obtain ⟨hmanos, hentra⟩ := hilos_mueve _ hk hh q
  rw [hm] at hmanos
  rw [he] at hentra
  unfold Equilibrio lugares enCola conPlanificador
  rw [hcola, hplan, hw, hv]
  omega

/-- A thread takes a query from its Worker's record, which is listed. -/
theorem equilibrio_toma (hs : Fichas s) {k p : ℕ} {hl hl' : Hilo} {y : Worker} (q : ℕ)
    (hk : s.hilos[k]? = some hl) (hin : k ∈ s.listaWorkersConectados)
    (hw : s.memWorkers k = some y) (hy : y.ejecutando = some p)
    (hh : s'.hilos = s.hilos.set k hl') (hm : enManos hl = []) (hm' : enManos hl' = [p])
    (he : porEntrar hl' = porEntrar hl) (hcola : s'.colaReadyFIFO = s.colaReadyFIFO)
    (hplan : s'.planificador = s.planificador)
    (hlista : s'.listaWorkersConectados = s.listaWorkersConectados)
    (hmem : s'.memWorkers = Function.update s.memWorkers k (some { y with ejecutando := none }))
    (hv : vive s' q = vive s q) : Equilibrio s s' q := by
  obtain ⟨hmanos, hentra⟩ := hilos_mueve _ hk hh q
  have hworkers := enWorkers_escribe _ hs q hin hlista hmem
  rw [hw, ejecuta_some hy, ejecuta_none rfl] at hworkers
  rw [hm, hm', List.count_nil] at hmanos
  rw [he] at hentra
  unfold Equilibrio lugares enCola conPlanificador
  rw [hcola, hplan, hv]
  omega

theorem count_ordenar {m : ℕ → Option Query} {l l' : List ℕ} (h : ordenar L cfg m l = .ok l')
    (q : ℕ) : l'.count q = l.count q := (ordenar_perm h).count_eq q

/-- No send of the planner fails in this step, and no Worker that the planner has taken
begins to disconnect. -/
def SinDesliz (s : Master) : Evento → Prop
  | .planificador false => match s.planificador with
    | .enviar _ _ _ => False
    | _ => True
  | .hilo k _ => match s.planificador with
    | .asignar _ w => s.hilos[k]? ≠ some (.atender .desconexion (some w))
    | _ => True
  | _ => True

instance (s : Master) (e : Evento) : Decidable (SinDesliz s e) := by
  unfold SinDesliz
  split
  · split <;> infer_instance
  · split <;> infer_instance
  · infer_instance

/-- The Worker that the planner has taken is still on the list. -/
def TomadaEnLista (s : Master) : Prop :=
  ∀ q w, s.planificador = .asignar q w → w ∈ s.listaWorkersConectados

/-- Queries belong to connections that have registered them. -/
def VivasEstablecidas (s : Master) : Prop :=
  ∀ q, (s.memQueries q).isSome → Establecida s q

theorem equilibrio_movimiento (hs : Fichas s) (htom : TomadaEnLista s)
    (hviv : VivasEstablecidas s) (hC : SinDesliz s e) (hcorrer : s'.correr = true)
    (hm : Movimiento L cfg s e s') (q : ℕ) : Equilibrio s s' q := by
  cases hm with
  | conectaQuery path prioridad =>
    simp [Equilibrio, lugares, enCola, conPlanificador, enWorkers, enHilos, entrando, vive,
      enManos, porEntrar]
  | conectaWorker id =>
    simp [Equilibrio, lugares, enCola, conPlanificador, enWorkers, enHilos, entrando, vive,
      enManos, porEntrar]
  | esperaQuery envio hp hsem =>
    exact equilibrio_turno rfl rfl rfl rfl rfl (by rw [hp]; rfl)
  | esperaWorker envio hp hsem =>
    exact equilibrio_turno rfl rfl rfl rfl rfl (by rw [hp]; rfl)
  | colaVacia envio hp hcola =>
    exact equilibrio_turno rfl rfl rfl rfl rfl (by rw [hp]; rfl)
  | sinWorker envio p hp hlibre =>
    exact equilibrio_turno rfl rfl rfl rfl rfl (by rw [hp]; rfl)
  | envia p w paq hp =>
    exact equilibrio_turno rfl rfl rfl rfl rfl (by rw [hp]; rfl)
  | postQuery envio hp =>
    exact equilibrio_turno rfl rfl rfl rfl rfl (by rw [hp]; rfl)
  | postWorker envio hp =>
    exact equilibrio_turno rfl rfl rfl rfl rfl (by rw [hp]; rfl)
  | desencola envio p l hp hcola =>
    refine equilibrio_quietos rfl ?_ rfl
    simp only [enCola, conPlanificador, enWorkers, hp, hcola, sinAsignar, List.count_nil,
      List.count_cons]
    omega
  | reencola envio p hp =>
    refine equilibrio_quietos rfl ?_ rfl
    simp only [enCola, conPlanificador, enWorkers, hp, sinAsignar, List.count_nil,
      List.count_cons]
    omega
  | envioFallido p w paq hp => exact absurd hC (by simp [SinDesliz, hp])
  | tomaWorker envio p w hp hmutex hlibre =>
    obtain ⟨hw, y, hy, hfree⟩ := mem_of_obtenerWorkerLibre hlibre
    refine equilibrio_quietos rfl ?_ rfl
    simp only [enCola, conPlanificador, enWorkers, hp, sinAsignar]
    rw [total_update_eq (ejecuta q) s.memWorkers]
    simp [hy, ejecuta]
  | asigna envio p w x y hp hq hw =>
    have hin := htom p w hp
    obtain ⟨⟨z, hz, _, hnone⟩, _⟩ := hs.asignado p w hp hin
    obtain rfl := Option.some.inj (hw.symm.trans hz)
    refine equilibrio_quietos rfl ?_ (vive_of_update hq rfl q)
    have hworkers := enWorkers_escribe { s with
      memQueries := Function.update s.memQueries p
        (some { x with estadoActual := .exec, workerAsignado := some w })
      memWorkers := Function.update s.memWorkers w (some { y with ejecutando := some p })
      planificador := .enviar p w (armarPaquete x) } hs q hin rfl rfl
    rw [hw, ejecuta_none hnone, ejecuta_some rfl] at hworkers
    simp only [enCola, conPlanificador, hp, sinAsignar, List.count_nil]
    omega
  | tick envio l hag ha hvivas hl =>
    refine equilibrio_quietos rfl ?_ ?_
    · simp only [enCola, conPlanificador, enWorkers, count_ordenar hl]
    · simp only [vive, isSome_envejecer_iff]
  | verificaAging envio d d' ha hd => exact equilibrio_quietos rfl rfl rfl
  | sigint m hm => cases hcorrer
  | registraQuery envio k path prioridad qid hk =>
    have hnone : s.memQueries k = none := by
      by_contra hne
      exact not_establecida_of_reciente hk trivial (hviv k (Option.isSome_iff_ne_none.mpr hne))
    have hvive := vive_of_registra { s with
      memQueries := Function.update s.memQueries k (some (crearQuery path prioridad qid k))
      queriesActivas := s.queriesActivas ++ [k]
      hilos := s.hilos.set k (.encolar k .query) } hnone rfl q
    obtain ⟨hmanos, hentra⟩ := hilos_mueve { s with
      memQueries := Function.update s.memQueries k (some (crearQuery path prioridad qid k))
      queriesActivas := s.queriesActivas ++ [k]
      hilos := s.hilos.set k (.encolar k .query) } hk rfl q
    simp only [enManos, porEntrar, List.count_nil] at hmanos hentra
    simp only [Equilibrio, lugares, enCola, conPlanificador, enWorkers]
    omega
  | altaWorker envio k id hk hmutex =>
    refine equilibrio_mueve hk rfl rfl rfl rfl rfl ?_ rfl
    simp only [enWorkers, total_append, total_cons, total_nil, Function.update_self, ejecuta_none,
      total_update_of_notMem (ejecuta q) _ _ (hs.nueva hk), Nat.add_zero]
  | desaloja envio k pc w p x y hk hw hy hq =>
    obtain ⟨rfl, hin⟩ := hs.hilos k _ hk
    exact equilibrio_toma hs q hk hin hw hy rfl rfl rfl rfl rfl rfl rfl rfl
      (vive_of_update hq rfl q)
  | termina envio k w p x y hk hq hw =>
    obtain ⟨rfl, hin, z, hz, _, _, hy⟩ := hs.hilos k _ hk
    obtain rfl := Option.some.inj (hw.symm.trans hz)
    exact equilibrio_toma hs q hk hin hw hy rfl rfl rfl rfl rfl rfl rfl rfl rfl
  | registraLibre envio k w t y hk hmutex hw =>
    obtain ⟨rfl, hin, z, hz, _, _, hy⟩ := hs.hilos k _ hk
    obtain rfl := Option.some.inj (hw.symm.trans hz)
    refine equilibrio_mueve hk rfl rfl rfl rfl rfl ?_ rfl
    exact enWorkers_of_update rfl rfl (by rw [hw, ejecuta_none hy, ejecuta_none rfl])
  | avisaLibre envio k t hk =>
    exact equilibrio_mueve hk rfl (enManos_continuar t) (porEntrar_continuar t) rfl rfl rfl rfl
  | enviaFin envio k p x hk hq =>
    exact equilibrio_mueve hk rfl rfl rfl rfl rfl rfl (vive_of_update hq rfl q)
  | liberaQuery envio k p x hk hq =>
    have hvive := vive_of_libera { s with
      memQueries := Function.update s.memQueries p none
      hilos := s.hilos.set k .bucleWorker } hq rfl q
    obtain ⟨hmanos, hentra⟩ := hilos_mueve { s with
      memQueries := Function.update s.memQueries p none
      hilos := s.hilos.set k .bucleWorker } hk rfl q
    simp only [enManos, porEntrar, List.count_nil] at hmanos hentra
    simp only [Equilibrio, lugares, enCola, conPlanificador, enWorkers]
    omega
  | desconectaLibre envio k w y hk hmutex hw hy =>
    obtain ⟨rfl, hin⟩ := hs.hilos k _ hk
    refine equilibrio_mueve hk rfl rfl rfl rfl rfl ?_ rfl
    have hworkers := enWorkers_baja { s with
      listaWorkersConectados := s.listaWorkersConectados.erase w
      hilos := s.hilos.set w (.liberarWorker w) } q hin rfl rfl
    rw [hw, ejecuta_none hy] at hworkers
    exact hworkers
  | desconectaOcupado envio k w p x y hk hmutex hw hy hq =>
    exact equilibrio_mueve hk rfl rfl rfl rfl rfl rfl (vive_of_update hq rfl q)
  | finDesconexion envio k w p x hk hq =>
    obtain ⟨rfl, hin, y, hw, _, _, hy⟩ := hs.hilos k _ hk
    have hvive := vive_of_libera { s with
      memQueries := Function.update s.memQueries p none
      listaWorkersConectados := s.listaWorkersConectados.erase w
      mutexWorkersConectados := false
      hilos := s.hilos.set w (.liberarWorker w) } hq rfl q
    obtain ⟨hmanos, hentra⟩ := hilos_mueve { s with
      memQueries := Function.update s.memQueries p none
      listaWorkersConectados := s.listaWorkersConectados.erase w
      mutexWorkersConectados := false
      hilos := s.hilos.set w (.liberarWorker w) } hk rfl q
    have hworkers := enWorkers_baja { s with
      memQueries := Function.update s.memQueries p none
      listaWorkersConectados := s.listaWorkersConectados.erase w
      mutexWorkersConectados := false
      hilos := s.hilos.set w (.liberarWorker w) } q hin rfl rfl
    rw [hw, ejecuta_some hy] at hworkers
    simp only [enManos, porEntrar, List.count_nil] at hmanos hentra
    simp only [Equilibrio, lugares, enCola, conPlanificador]
    omega
  | liberaWorker envio k w hk =>
    obtain ⟨rfl, hout⟩ := hs.hilos k _ hk
    refine equilibrio_mueve hk rfl rfl rfl rfl rfl ?_ rfl
    exact total_update_of_notMem (ejecuta q) s.memWorkers none hout
  | encola envio k p v l hk hl =>
    obtain ⟨hmanos, hentra⟩ := hilos_mueve { s with
      colaReadyFIFO := l
      hilos := s.hilos.set k (.avisarQuery v) } hk rfl q
    have hcount := count_ordenar hl q
    rw [List.count_append] at hcount
    simp only [Equilibrio, lugares, enCola, conPlanificador, enWorkers, vive]
    cases v with
    | query =>
      simp only [enManos, porEntrar, List.count_nil] at hmanos hentra
      omega
    | worker =>
      simp only [enManos, porEntrar, List.count_nil] at hmanos hentra
      omega
  | avisaQuery envio k v hk =>
    refine equilibrio_mueve hk rfl ?_ ?_ rfl rfl rfl rfl
    · split_ifs
      · rfl
      · exact enManos_bucle v
    · split_ifs
      · rfl
      · exact porEntrar_bucle v
  | terminaVerificar envio k d v hk hd =>
    exact equilibrio_mueve hk rfl (enManos_bucle v) (porEntrar_bucle v) rfl rfl rfl rfl
  | _ =>
    -- a thread that holds no query before or after
    refine equilibrio_mueve (by assumption) rfl ?_ ?_ rfl rfl rfl rfl
    · rfl
    · rfl

theorem isSome_of_update {m : ℕ → Option Query} {p q : ℕ} {x : Query} {o : Option Query}
    (hp : m p = some x) (h : (Function.update m p o q).isSome) : (m q).isSome := by
  by_cases hqp : q = p
  · subst hqp
    rw [hp]
    rfl
  · rwa [Function.update_of_ne hqp] at h

theorem vivasEstablecidas_movimiento (hs : VivasEstablecidas s) (hcorrer : s'.correr = true)
    (hm : Movimiento L cfg s e s') : VivasEstablecidas s' := by
  intro q hq
  have hold : (s.memQueries q).isSome → Establecida s' q := fun h =>
    establecida_of_movimiento hm (hs q h)
  have hm' := hm
  cases hm' with
  | asigna envio p w x y hp hx hy => exact hold (isSome_of_update hx hq)
  | desaloja envio k pc w p x y hk hw hy hx => exact hold (isSome_of_update hx hq)
  | enviaFin envio k p x hk hx => exact hold (isSome_of_update hx hq)
  | liberaQuery envio k p x hk hx => exact hold (isSome_of_update hx hq)
  | desconectaOcupado envio k w p x y hk hmutex hw hy hx => exact hold (isSome_of_update hx hq)
  | finDesconexion envio k w p x hk hx => exact hold (isSome_of_update hx hq)
  | tick envio l hag ha hvivas hl => exact hold ((isSome_envejecer_iff ..).symm.trans hq)
  | registraQuery envio k path prioridad qid hk =>
    by_cases hqk : q = k
    · subst hqk
      exact ⟨_, List.getElem?_set_self (List.getElem?_eq_some_iff.mp hk).1, id⟩
    · exact hold ((congrArg Option.isSome (Function.update_of_ne hqk _ _)).symm.trans hq)
  | sigint m hm => cases hcorrer
  | _ => exact hold hq

theorem tomadaEnLista_movimiento (hf : Fichas s) (hs : TomadaEnLista s) (hC : SinDesliz s e)
    (hm : Movimiento L cfg s e s') : TomadaEnLista s' := by
  intro q w hp
  cases hm with
  | tomaWorker envio p v hplan hmutex hlibre =>
    obtain ⟨rfl, rfl⟩ := Planificador.asignar.inj hp
    exact (mem_of_obtenerWorkerLibre hlibre).1
  | altaWorker envio k id hk hmutex => exact List.mem_append_left _ (hs q w hp)
  | desconectaLibre envio k v y hk hmutex hv hy =>
    have hne : w ≠ v := by
      intro heq
      simp only [SinDesliz] at hC
      rw [hp, heq] at hC
      exact hC hk
    exact (List.mem_erase_of_ne hne).mpr (hs q w hp)
  | finDesconexion envio k v p x hk hx =>
    obtain ⟨rfl, hin, _⟩ := hf.hilos k _ hk
    have hne : w ≠ v := fun heq => hf.no_tomada_of_ocupa hin hk trivial q (heq ▸ hp)
    exact (List.mem_erase_of_ne hne).mpr (hs q w hp)
  | esperaQuery envio hplan hsem => cases hp
  | esperaWorker envio hplan hsem => cases hp
  | colaVacia envio hplan hcola => cases hp
  | desencola envio p l hplan hcola => cases hp
  | sinWorker envio p hplan hlibre => cases hp
  | asigna envio p v x y hplan hx hy => cases hp
  | envia p v paq hplan => cases hp
  | envioFallido p v paq hplan => cases hp
  | reencola envio p hplan => cases hp
  | postQuery envio hplan => cases hp
  | postWorker envio hplan => cases hp
  | _ => exact hs q w hp

end Pasos

section Corridas

/-- What is known of queries and Workers between two steps. -/
structure Custodia (s : Master) : Prop where
  fichas : Fichas s
  tomada : TomadaEnLista s
  vivas : s.correr = true → VivasEstablecidas s
  ubicadas : s.correr = true → ∀ q, Ubicada s q

theorem custodia_inicial : Custodia inicial where
  fichas := fichas_inicial
  tomada _ _ hp := nomatch hp
  vivas _ _ hq := nomatch hq
  ubicadas _ _ := rfl

theorem custodia_paso (hs : Custodia s) (hC : SinDesliz s e) (h : paso L cfg s e = .ok s') :
    Custodia s' := by
  obtain ⟨hcorrer, hm⟩ := movimiento_of_paso h
  have hvivas := hs.vivas hcorrer
  refine ⟨fichas_paso hs.fichas hm, tomadaEnLista_movimiento hs.fichas hs.tomada hC hm, ?_, ?_⟩
  · exact fun hcorrer' => vivasEstablecidas_movimiento hvivas hcorrer' hm
  · intro hcorrer' q
    have hstep := equilibrio_movimiento hs.fichas hs.tomada hvivas hC hcorrer' hm q
    have hold := hs.ubicadas hcorrer q
    unfold Equilibrio at hstep
    unfold Ubicada at hold ⊢
    omega

/-- A query that has been in READY and is not freed is in one place: READY, the planner,
one listed Worker, or the thread that serves its Worker's answer. -/
def UnSoloLugar (s : Master) : Prop :=
  s.correr = true → ∀ q, (s.memQueries q).isSome → Hilo.encolar q .query ∉ s.hilos →
    enCola s q + conPlanificador s q + enWorkers s q + enHilos s q = 1

theorem entrando_eq_zero {q : ℕ} (h : Hilo.encolar q .query ∉ s.hilos) : entrando s q = 0 := by
  refine total_eq_zero fun hl hin => ?_
  rw [List.count_eq_zero]
  intro hq
  cases hl with
  | encolar p v =>
    cases v with
    | query =>
      obtain rfl := List.mem_singleton.mp hq
      exact h hin
    | worker => exact absurd hq List.not_mem_nil
  | _ => exact absurd hq List.not_mem_nil

theorem unSoloLugar_of_custodia (hs : Custodia s) : UnSoloLugar s := by
  intro hcorrer q hq hentro
  have hub := hs.ubicadas hcorrer q
  unfold Ubicada lugares at hub
  rw [entrando_eq_zero hentro, vive, if_pos hq] at hub
  omega

/-- While no send of the planner fails and no Worker disconnects between being taken and
being given its query, no query is lost and none is in two places. -/
theorem unSoloLugar_run (L : ListSort ℕ) (cfg : Config) {xs : List Evento}
    (hC : EachStep (paso L cfg) SinDesliz inicial xs) :
    AlongRun (paso L cfg) UnSoloLugar inicial xs :=
  alongRun_of_eachStep (A := fun _ => True) (fun _ _ _ _ hs hC h => custodia_paso hs hC h)
    (fun _ => unSoloLugar_of_custodia) custodia_inicial (fun _ _ => trivial) hC

/-- A query is dispatched and its Worker gives it back. -/
def corridaDesalojada : List Evento :=
  [.conectaQuery [] 0, .hilo 0 true, .hilo 0 true, .hilo 0 true, .hilo 0 true,
    .conectaWorker 7, .hilo 1 true, .hilo 1 true, .planificador true, .planificador true,
    .planificador true, .planificador true, .planificador true, .planificador true,
    .mensaje 1 (.queryDesalojada 0 5), .hilo 1 true, .hilo 1 true]

theorem unSoloLugar_run_desalojada :
    AlongRun (paso (insertionSort ℕ) ⟨.fifo, 0⟩) UnSoloLugar inicial corridaDesalojada :=
  unSoloLugar_run (insertionSort ℕ) ⟨.fifo, 0⟩ (by decide)

/-- Each query that has been in READY and is not freed is in READY, with the planner, or
with one listed Worker. -/
def EnLasListas (s : Master) : Prop :=
  s.correr = true → ∀ q, (s.memQueries q).isSome → Hilo.encolar q .query ∉ s.hilos →
    enCola s q + conPlanificador s q + enWorkers s q = 1

/-- Once its Worker has given a query back, and until the thread that serves the answer
puts it into READY, the query is in none of the lists. -/
theorem not_enLasListas_corridaDesalojada :
    ¬ AlongRun (paso (insertionSort ℕ) ⟨.fifo, 0⟩) EnLasListas inicial corridaDesalojada := by
  intro h
  have hs := alongRun_last h (run_eq_after (by decide))
  exact absurd (hs (by decide) 0 (by decide) (by decide)) (by decide)

end Corridas

end MasterOfFiles.QueryOwnership
