import MasterOfFiles.ListSums
import MasterOfFiles.WorkerRecords

/-!
What the two semaphores count. A unit is in the semaphore, with the planner, or with
a thread that has yet to post it. Counted so, the queries pending are the length of
READY in every state. The free Workers agree with their semaphore until a send fails
or a free Worker is taken off the list, and each of these leaves one unit too many.
-/
namespace MasterOfFiles.SemaphoreCounts

open PartialRuns RunTraces ListSums SortedLists SchedulerState SchedulerSteps SchedulerMoves
open ReadyQueue QueryHolders WorkerRecords

variable {L : ListSort ℕ} {cfg : Config} {s s' : Master} {e : Evento}

section Cuentas

/-- The unit of semQueriesPendientes that the planner has. -/
def unidadQuery : Planificador → ℕ
  | .esperaWorker => 1
  | .desencolar => 1
  | .postQuery => 1
  | _ => 0

/-- The unit of semWorkersDisponibles that the planner has. -/
def unidadWorker : Planificador → ℕ
  | .desencolar => 1
  | .buscarWorker _ => 1
  | .reencolar _ => 1
  | .postQuery => 1
  | .postWorker => 1
  | _ => 0

def avisoQuery : Hilo → ℕ
  | .avisarQuery _ => 1
  | _ => 0

def avisoWorker : Hilo → ℕ
  | .avisarWorker => 1
  | .avisarLibre _ => 1
  | _ => 0

def cuentaLibre : Option Worker → ℕ
  | some y => if y.libre then 1 else 0
  | none => 0

/-- The Workers of listaWorkersConectados that are free. -/
def libres (s : Master) : ℕ :=
  total (fun w => cuentaLibre (s.memWorkers w)) s.listaWorkersConectados

def unidadesQuery (s : Master) : ℕ :=
  s.semQueriesPendientes + unidadQuery s.planificador + total avisoQuery s.hilos

def unidadesWorker (s : Master) : ℕ :=
  s.semWorkersDisponibles + unidadWorker s.planificador + total avisoWorker s.hilos

/-- The units that a step leaves over: one when the planner's send fails, one when a
free Worker is taken off the list. -/
def deriva (s : Master) : Evento → ℕ
  | .planificador false => match s.planificador with
    | .enviar _ _ _ => 1
    | _ => 0
  | .hilo k _ => match s.hilos[k]? with
    | some (.atender .desconexion (some w)) => cuentaLibre (s.memWorkers w)
    | _ => 0
  | _ => 0

theorem deriva_planificador {envio : Bool} (h : ∀ q w p, s.planificador ≠ .enviar q w p) :
    deriva s (.planificador envio) = 0 := by
  cases envio with
  | true => rfl
  | false => simp only [deriva]

theorem deriva_hilo {k : ℕ} {envio : Bool} {hl : Hilo} (hk : s.hilos[k]? = some hl)
    (h : ∀ w, hl ≠ .atender .desconexion (some w)) : deriva s (.hilo k envio) = 0 := by
  simp only [deriva, hk]
  split
  · rename_i w heq
    exact absurd (Option.some.inj heq) (h w)
  · rfl

theorem avisoQuery_bucle (v : Rol) : avisoQuery (bucle v) = 0 := by
  cases v <;> rfl

theorem avisoWorker_bucle (v : Rol) : avisoWorker (bucle v) = 0 := by
  cases v <;> rfl

theorem avisoQuery_continuar (t : Tramite) : avisoQuery (continuar t) = 0 := by
  cases t <;> rfl

theorem avisoWorker_continuar (t : Tramite) : avisoWorker (continuar t) = 0 := by
  cases t <;> rfl

end Cuentas

section Queries

theorem unidadesQuery_mueve {k : ℕ} {hl hl' : Hilo} (hk : s.hilos[k]? = some hl)
    (ha : avisoQuery hl' = avisoQuery hl) (hh : s'.hilos = s.hilos.set k hl')
    (hsem : s'.semQueriesPendientes = s.semQueriesPendientes)
    (hplan : s'.planificador = s.planificador)
    (hcola : s'.colaReadyFIFO.length = s.colaReadyFIFO.length) :
    s'.semQueriesPendientes + unidadQuery s'.planificador + total avisoQuery s'.hilos +
        s.colaReadyFIFO.length =
      s.semQueriesPendientes + unidadQuery s.planificador + total avisoQuery s.hilos +
        s'.colaReadyFIFO.length := by
  rw [hh, hsem, hplan, hcola, total_set_eq avisoQuery hk ha]

/-- READY loses and gains a query with the unit that stands for it. -/
theorem unidadesQuery_movimiento (hm : Movimiento L cfg s e s') :
    unidadesQuery s' + s.colaReadyFIFO.length = unidadesQuery s + s'.colaReadyFIFO.length := by
  unfold unidadesQuery
  cases hm with
  | conectaQuery path prioridad => simp [avisoQuery]
  | conectaWorker id => simp [avisoQuery]
  | esperaQuery envio hp hsem =>
    simp only [hp, unidadQuery]
    omega
  | esperaWorker envio hp hsem => simp only [hp, unidadQuery]
  | colaVacia envio hp hcola => simp only [hp, unidadQuery]
  | desencola envio q l hp hcola =>
    simp only [hp, hcola, unidadQuery, List.length_cons]
    omega
  | sinWorker envio q hp hlibre => simp only [hp, unidadQuery]
  | tomaWorker envio q w hp hmutex hlibre => simp only [hp, unidadQuery]
  | asigna envio q w x y hp hq hw => simp only [hp, unidadQuery]
  | envia q w p hp => simp only [hp, unidadQuery]
  | envioFallido q w p hp => simp only [hp, unidadQuery]
  | reencola envio q hp =>
    simp only [hp, unidadQuery, List.length_cons]
    omega
  | postQuery envio hp => simp only [hp, unidadQuery]
  | postWorker envio hp => simp only [hp, unidadQuery]
  | tick envio l hag ha hvivas hl => simp only [(ordenar_perm hl).length_eq]
  | avisaQuery envio k v hk =>
    have hset := total_set avisoQuery hk (if cfg.algoritmoPlanificacion = .prioridades then
      .verificar .leerReady v else bucle v)
    have hnew : avisoQuery (if cfg.algoritmoPlanificacion = .prioridades then
        .verificar .leerReady v else bucle v) = 0 := by
      split_ifs
      · rfl
      · exact avisoQuery_bucle v
    have hold : avisoQuery (.avisarQuery v) = 1 := rfl
    simp only
    omega
  | encola envio k q v l hk hl =>
    have hset := total_set avisoQuery hk (.avisarQuery v)
    have hnew : avisoQuery (.avisarQuery v) = 1 := rfl
    have hold : avisoQuery (.encolar q v) = 0 := rfl
    simp only [(ordenar_perm hl).length_eq, List.length_append, List.length_singleton]
    omega
  | avisaLibre envio k t hk => rw [total_set_eq avisoQuery hk (avisoQuery_continuar t)]
  | terminaVerificar envio k d v hk hd =>
    rw [total_set_eq avisoQuery hk (avisoQuery_bucle v)]
  | _ =>
    -- no thread posts, and READY is left alone
    first
    | rfl
    | refine unidadesQuery_mueve (by assumption) ?_ rfl rfl rfl rfl
      rfl

/-- In every state the units of semQueriesPendientes are as many as the queries of READY. -/
def CuentaQueries (s : Master) : Prop := unidadesQuery s = s.colaReadyFIFO.length

theorem cuentaQueries_movimiento (hs : CuentaQueries s) (hm : Movimiento L cfg s e s') :
    CuentaQueries s' := by
  have hstep := unidadesQuery_movimiento hm
  unfold CuentaQueries at hs ⊢
  omega

end Queries

section Workers

theorem libres_of_memWorkers {w : ℕ} {o : Option Worker}
    (hlista : s'.listaWorkersConectados = s.listaWorkersConectados)
    (hmem : s'.memWorkers = Function.update s.memWorkers w o)
    (ho : cuentaLibre o = cuentaLibre (s.memWorkers w)) : libres s' = libres s := by
  unfold libres
  rw [hlista, hmem]
  exact total_update_eq cuentaLibre s.memWorkers ho _

/-- A thread moves on without posting, and the free Workers stay as they are. -/
theorem unidadesWorker_mueve {k : ℕ} {hl hl' : Hilo} {envio : Bool} (hk : s.hilos[k]? = some hl)
    (hd : ∀ w, hl ≠ .atender .desconexion (some w)) (hh : s'.hilos = s.hilos.set k hl')
    (hsem : s'.semWorkersDisponibles = s.semWorkersDisponibles)
    (hplan : s'.planificador = s.planificador) (hlibres : libres s' = libres s)
    (ha : avisoWorker hl' = avisoWorker hl) :
    unidadesWorker s' + libres s =
      unidadesWorker s + libres s' + deriva s (.hilo k envio) := by
  rw [deriva_hilo hk hd, hlibres]
  unfold unidadesWorker
  rw [hh, hsem, hplan, total_set_eq avisoWorker hk ha]
  rfl

/-- The planner goes on, and the free Workers stay as they are. -/
theorem unidadesWorker_planificador {envio : Bool} (hd : ∀ q w p, s.planificador ≠ .enviar q w p)
    (hh : s'.hilos = s.hilos)
    (hsem : s'.semWorkersDisponibles + unidadWorker s'.planificador =
      s.semWorkersDisponibles + unidadWorker s.planificador) (hlibres : libres s' = libres s) :
    unidadesWorker s' + libres s =
      unidadesWorker s + libres s' + deriva s (.planificador envio) := by
  rw [deriva_planificador hd, hlibres]
  unfold unidadesWorker
  rw [hh, hsem]
  rfl

variable (s') in
theorem libres_toma (hs : Fichas s) {w : ℕ} (hlibre : obtenerWorkerLibre s = some w)
    (hlista : s'.listaWorkersConectados = s.listaWorkersConectados)
    (hmem : s'.memWorkers = Function.update s.memWorkers w
      ((s.memWorkers w).map fun y => { y with libre := false })) :
    libres s' + 1 = libres s := by
  obtain ⟨hw, y, hy, hfree⟩ := mem_of_obtenerWorkerLibre hlibre
  have hupd := total_update cuentaLibre s.memWorkers
    ((s.memWorkers w).map fun y => { y with libre := false }) hs.nodup hw
  have hold : cuentaLibre (s.memWorkers w) = 1 := by simp [hy, cuentaLibre, hfree]
  have hnew : cuentaLibre ((s.memWorkers w).map fun y => { y with libre := false }) = 0 := by
    simp [hy, cuentaLibre]
  unfold libres
  rw [hlista, hmem]
  omega

variable (s') in
theorem libres_registra (hs : Fichas s) {k : ℕ} {y : Worker}
    (hin : k ∈ s.listaWorkersConectados) (hy : s.memWorkers k = some y) (hno : y.libre = false)
    (hlista : s'.listaWorkersConectados = s.listaWorkersConectados)
    (hmem : s'.memWorkers = Function.update s.memWorkers k
      (some { y with libre := true, ejecutando := none })) : libres s' = libres s + 1 := by
  have hupd := total_update cuentaLibre s.memWorkers
    (some { y with libre := true, ejecutando := none }) hs.nodup hin
  have hold : cuentaLibre (s.memWorkers k) = 0 := by simp [hy, cuentaLibre, hno]
  have hnew : cuentaLibre (some { y with libre := true, ejecutando := none }) = 1 := rfl
  unfold libres
  rw [hlista, hmem]
  omega

variable (s') in
theorem libres_alta (hs : Fichas s) {k id : ℕ} (hk : s.hilos[k]? = some (.altaWorker id))
    (hlista : s'.listaWorkersConectados = s.listaWorkersConectados ++ [k])
    (hmem : s'.memWorkers = Function.update s.memWorkers k (some ⟨k, id, true, none⟩)) :
    libres s' = libres s + 1 := by
  unfold libres
  rw [hlista, hmem, total_append, total_update_of_notMem cuentaLibre _ _ (hs.nueva hk), total_cons,
    total_nil, Function.update_self]
  rfl

variable (s') in
theorem libres_baja {k : ℕ} (hin : k ∈ s.listaWorkersConectados)
    (hlista : s'.listaWorkersConectados = s.listaWorkersConectados.erase k)
    (hmem : s'.memWorkers = s.memWorkers) :
    libres s' + cuentaLibre (s.memWorkers k) = libres s := by
  unfold libres
  rw [hlista, hmem]
  exact total_erase (fun w => cuentaLibre (s.memWorkers w)) hin

/-- A free Worker comes and goes with the unit that stands for it, but for the units
that a step leaves over. -/
theorem unidadesWorker_movimiento (hs : Fichas s) (hm : Movimiento L cfg s e s') :
    unidadesWorker s' + libres s = unidadesWorker s + libres s' + deriva s e := by
  cases hm with
  | conectaQuery path prioridad => simp [unidadesWorker, libres, avisoWorker, deriva]
  | conectaWorker id => simp [unidadesWorker, libres, avisoWorker, deriva]
  | mensaje k m hk =>
    simp only [unidadesWorker, libres, deriva]
    rw [total_set_eq avisoWorker (b := .buscar m) hk rfl]
    rfl
  | desconectaQc k hk =>
    simp only [unidadesWorker, libres, deriva]
    rw [total_set_eq avisoWorker (b := .finQuery) hk rfl]
    rfl
  | esperaQuery envio hp hsem =>
    exact unidadesWorker_planificador (by simp [hp]) rfl (by simp [hp, unidadWorker]) rfl
  | esperaWorker envio hp hsem =>
    refine unidadesWorker_planificador (by simp [hp]) rfl ?_ rfl
    simp only [hp, unidadWorker]
    omega
  | colaVacia envio hp hcola =>
    exact unidadesWorker_planificador (by simp [hp]) rfl (by simp [hp, unidadWorker]) rfl
  | desencola envio q l hp hcola =>
    exact unidadesWorker_planificador (by simp [hp]) rfl (by simp [hp, unidadWorker]) rfl
  | sinWorker envio q hp hlibre =>
    exact unidadesWorker_planificador (by simp [hp]) rfl (by simp [hp, unidadWorker]) rfl
  | reencola envio q hp =>
    exact unidadesWorker_planificador (by simp [hp]) rfl (by simp [hp, unidadWorker]) rfl
  | postQuery envio hp =>
    exact unidadesWorker_planificador (by simp [hp]) rfl (by simp [hp, unidadWorker]) rfl
  | postWorker envio hp =>
    exact unidadesWorker_planificador (by simp [hp]) rfl (by simp [hp, unidadWorker]) rfl
  | tomaWorker envio q w hp hmutex hlibre =>
    have hlib := libres_toma { s with
      memWorkers := Function.update s.memWorkers w
        ((s.memWorkers w).map fun y => { y with libre := false })
      planificador := .asignar q w } hs hlibre rfl rfl
    rw [deriva_planificador (by simp [hp])]
    simp only [unidadesWorker, hp, unidadWorker]
    omega
  | asigna envio q w x y hp hq hw =>
    refine unidadesWorker_planificador (by simp [hp]) rfl (by simp [hp, unidadWorker]) ?_
    exact libres_of_memWorkers rfl rfl (by rw [hw]; rfl)
  | envia q w p hp => simp [unidadesWorker, libres, deriva, hp, unidadWorker]
  | envioFallido q w p hp =>
    simp only [unidadesWorker, libres, deriva, hp, unidadWorker]
    omega
  | tick envio l hag ha hvivas hl => rfl
  | verificaAging envio d d' ha hd => rfl
  | sigint m hm => rfl
  | altaWorker envio k id hk hmutex =>
    have hlib := libres_alta { s with
      memWorkers := Function.update s.memWorkers k (some ⟨k, id, true, none⟩)
      listaWorkersConectados := s.listaWorkersConectados ++ [k]
      hilos := s.hilos.set k .avisarWorker } hs hk rfl rfl
    have hset := total_set avisoWorker hk .avisarWorker
    have hold : avisoWorker (.altaWorker id) = 0 := rfl
    have hnew : avisoWorker .avisarWorker = 1 := rfl
    rw [deriva_hilo hk (by simp)]
    simp only [unidadesWorker]
    omega
  | avisaWorker envio k hk =>
    have hset := total_set avisoWorker hk .bucleWorker
    have hold : avisoWorker .avisarWorker = 1 := rfl
    have hnew : avisoWorker .bucleWorker = 0 := rfl
    rw [deriva_hilo hk (by simp)]
    simp only [unidadesWorker, libres]
    omega
  | desaloja envio k pc w q x y hk hw hy hq =>
    refine unidadesWorker_mueve hk (by simp) rfl rfl rfl ?_ rfl
    exact libres_of_memWorkers rfl rfl (by rw [hw]; rfl)
  | termina envio k w q x y hk hq hw =>
    refine unidadesWorker_mueve hk (by simp) rfl rfl rfl ?_ rfl
    exact libres_of_memWorkers rfl rfl (by rw [hw]; rfl)
  | registraLibre envio k w t y hk hmutex hw =>
    obtain ⟨rfl, hin, z, hz, _, hno, _⟩ := hs.hilos k _ hk
    obtain rfl := Option.some.inj (hw.symm.trans hz)
    have hlib := libres_registra { s with
      memWorkers := Function.update s.memWorkers w
        (some { y with libre := true, ejecutando := none })
      hilos := s.hilos.set w (.avisarLibre t) } hs hin hw hno rfl rfl
    have hset := total_set avisoWorker hk (.avisarLibre t)
    have hold : avisoWorker (.registrarLibre w t) = 0 := rfl
    have hnew : avisoWorker (.avisarLibre t) = 1 := rfl
    rw [deriva_hilo hk (by simp)]
    simp only [unidadesWorker]
    omega
  | avisaLibre envio k t hk =>
    have hset := total_set avisoWorker hk (continuar t)
    have hold : avisoWorker (.avisarLibre t) = 1 := rfl
    have hnew := avisoWorker_continuar t
    rw [deriva_hilo hk (by simp)]
    simp only [unidadesWorker, libres]
    omega
  | desconectaLibre envio k w y hk hmutex hw hy =>
    obtain ⟨rfl, hin⟩ := hs.hilos k _ hk
    have hlib := libres_baja { s with
      listaWorkersConectados := s.listaWorkersConectados.erase w
      hilos := s.hilos.set w (.liberarWorker w) } hin rfl rfl
    have hset := total_set_eq avisoWorker (b := .liberarWorker w) hk rfl
    simp only [unidadesWorker, deriva, hk]
    omega
  | desconectaOcupado envio k w q x y hk hmutex hw hy hq =>
    obtain ⟨rfl, hin⟩ := hs.hilos k _ hk
    have hzero : cuentaLibre (s.memWorkers w) = 0 := by
      simp [hw, cuentaLibre, hs.ocupado hin hw hy]
    have hset := total_set_eq avisoWorker (b := .finDesconexion w q) hk rfl
    simp only [unidadesWorker, libres, deriva, hk]
    omega
  | finDesconexion envio k w q x hk hq =>
    obtain ⟨rfl, hin, y, hy, _, hno, _⟩ := hs.hilos k _ hk
    have hzero : cuentaLibre (s.memWorkers w) = 0 := by simp [hy, cuentaLibre, hno]
    have hlib := libres_baja { s with
      memQueries := Function.update s.memQueries q none
      listaWorkersConectados := s.listaWorkersConectados.erase w
      mutexWorkersConectados := false
      hilos := s.hilos.set w (.liberarWorker w) } hin rfl rfl
    exact unidadesWorker_mueve hk (by simp) rfl rfl rfl (by omega) rfl
  | liberaWorker envio k w hk =>
    obtain ⟨rfl, hout⟩ := hs.hilos k _ hk
    refine unidadesWorker_mueve hk (by simp) rfl rfl rfl ?_ rfl
    exact total_update_of_notMem cuentaLibre s.memWorkers none hout
  | terminaVerificar envio k d v hk hd =>
    exact unidadesWorker_mueve hk (by simp) rfl rfl rfl rfl (avisoWorker_bucle v)
  | avisaQuery envio k v hk =>
    refine unidadesWorker_mueve hk (by simp) rfl rfl rfl rfl ?_
    split_ifs
    · rfl
    · exact avisoWorker_bucle v
  | descarta envio k m w hk hm =>
    exact unidadesWorker_mueve hk (by simp [hm]) rfl rfl rfl rfl rfl
  | _ =>
    -- a thread that neither posts nor touches its record
    refine unidadesWorker_mueve (by assumption) ?_ rfl rfl rfl rfl ?_
    · simp
    · rfl

/-- The units of semWorkersDisponibles are as many as the free Workers. -/
def CuentaWorkers (s : Master) : Prop := unidadesWorker s = libres s

theorem cuentaWorkers_movimiento (hs : Fichas s) (hc : CuentaWorkers s)
    (hm : Movimiento L cfg s e s') : CuentaWorkers s' ↔ deriva s e = 0 := by
  have hstep := unidadesWorker_movimiento hs hm
  unfold CuentaWorkers at hc ⊢
  omega

end Workers

section Corridas

/-- No unit is left over in this step. -/
def SinDeriva (s : Master) (e : Evento) : Prop := deriva s e = 0

instance (s : Master) (e : Evento) : Decidable (SinDeriva s e) :=
  inferInstanceAs (Decidable (_ = _))

structure Contado (s : Master) : Prop where
  fichas : Fichas s
  queries : CuentaQueries s
  workers : CuentaWorkers s

theorem contado_inicial : Contado inicial := ⟨fichas_inicial, rfl, rfl⟩

theorem contado_paso (hs : Contado s) (hC : SinDeriva s e) (h : paso L cfg s e = .ok s') :
    Contado s' := by
  have hm := (movimiento_of_paso h).2
  exact ⟨fichas_paso hs.fichas hm, cuentaQueries_movimiento hs.queries hm,
    (cuentaWorkers_movimiento hs.fichas hs.workers hm).mpr hC⟩

/-- The free Workers are counted right along a run exactly when no step leaves a unit over. -/
theorem cuentaWorkers_run_iff (L : ListSort ℕ) (cfg : Config) (xs : List Evento) :
    AlongRun (paso L cfg) CuentaWorkers inicial xs ↔ EachStep (paso L cfg) SinDeriva inicial xs :=
  alongRun_iff_eachStep (I := Fichas) (A := fun _ => True)
    (fun _ _ _ _ hs hc h => cuentaWorkers_movimiento hs hc (movimiento_of_paso h).2)
    (fun _ _ _ _ hs _ _ h => fichas_paso hs (movimiento_of_paso h).2) fichas_inicial rfl xs
    (fun _ _ => trivial)

/-- A thread that waits for a message, or is done. -/
def inactivo : Hilo → Bool
  | .bucleQuery => true
  | .finQuery => true
  | .bucleWorker => true
  | .finWorker => true
  | _ => false

/-- The planner waits on a semaphore and no handler is half way. -/
def EnReposo (s : Master) : Prop :=
  (s.planificador = .esperaQuery ∨ s.planificador = .esperaWorker) ∧
    ∀ hl ∈ s.hilos, inactivo hl = true

/-- At rest the semaphores count the free Workers and READY, the planner's unit
included, and the planner never finds READY or the list of free Workers empty. -/
structure SemaforosExactos (s : Master) : Prop where
  workers : EnReposo s → s.semWorkersDisponibles + unidadWorker s.planificador = libres s
  queries : EnReposo s →
    s.semQueriesPendientes + unidadQuery s.planificador = s.colaReadyFIFO.length
  hayWorker : ∀ q, s.planificador = .buscarWorker q → obtenerWorkerLibre s ≠ none
  hayQuery : s.planificador = .desencolar → s.colaReadyFIFO ≠ []

theorem exists_libre_of_libres_pos (h : 0 < libres s) : obtenerWorkerLibre s ≠ none := by
  obtain ⟨w, hw, hpos⟩ := exists_of_total_pos h
  intro hnone
  unfold obtenerWorkerLibre at hnone
  have hno := List.find?_eq_none.mp hnone w hw
  cases hy : s.memWorkers w with
  | none => simp [hy, cuentaLibre] at hpos
  | some y =>
    have hfalse : y.libre = false := by simpa [hy] using hno
    simp [hy, cuentaLibre, hfalse] at hpos

theorem semaforosExactos_of_contado (hs : Contado s) : SemaforosExactos s := by
  have hq := hs.queries
  have hw := hs.workers
  unfold CuentaQueries unidadesQuery at hq
  unfold CuentaWorkers unidadesWorker at hw
  constructor
  · intro hrest
    have hzero : total avisoWorker s.hilos = 0 := total_eq_zero fun hl hin => by
      have hin := hrest.2 hl hin
      cases hl <;> first | rfl | cases hin
    omega
  · intro hrest
    have hzero : total avisoQuery s.hilos = 0 := total_eq_zero fun hl hin => by
      have hin := hrest.2 hl hin
      cases hl <;> first | rfl | cases hin
    omega
  · intro q hp
    simp only [hp, unidadWorker] at hw
    exact exists_libre_of_libres_pos (by omega)
  · intro hp hnil
    simp only [hp, hnil, unidadQuery, List.length_nil] at hq
    omega

/-- In a run without failed sends in which only busy Workers are taken off the list,
the semaphores are exact in every state. -/
theorem semaforosExactos_run (L : ListSort ℕ) (cfg : Config) {xs : List Evento}
    (hC : EachStep (paso L cfg) SinDeriva inicial xs) :
    AlongRun (paso L cfg) SemaforosExactos inicial xs :=
  alongRun_of_eachStep (A := fun _ => True) (fun _ _ _ _ hs hC h => contado_paso hs hC h)
    (fun _ => semaforosExactos_of_contado) contado_inicial (fun _ _ => trivial) hC

theorem semaforosExactos_run_completa :
    AlongRun (paso (insertionSort ℕ) ⟨.fifo, 0⟩) SemaforosExactos inicial corridaTerminada :=
  semaforosExactos_run (insertionSort ℕ) ⟨.fifo, 0⟩ (by decide)

/-- A Worker that comes and goes without a query leaves its unit in the semaphore. -/
def corridaWorkerPerdido : List Evento :=
  [.conectaWorker 7, .hilo 0 true, .hilo 0 true, .mensaje 0 .desconexion, .hilo 0 true,
    .hilo 0 true, .hilo 0 true]

theorem not_semaforosExactos_corridaWorkerPerdido :
    ¬ AlongRun (paso (insertionSort ℕ) ⟨.fifo, 0⟩) SemaforosExactos inicial
      corridaWorkerPerdido := by
  intro h
  have hs := (alongRun_last h (run_eq_after (by decide))).workers ⟨by decide, by decide⟩
  exact absurd hs (by decide)

end Corridas

end MasterOfFiles.SemaphoreCounts
