import MasterOfFiles.SchedulerSteps

/-!
What a step of the Master can do, one constructor for each way a step is taken. The
results are those of the step functions; the hypotheses say where the thread is and
what it has read. Invariants go through these cases and never unfold a step.
-/
namespace MasterOfFiles.SchedulerMoves

open ByteBuffers PartialRuns SortedLists SchedulerState SchedulerSteps

variable {L : ListSort ℕ} {cfg : Config}

inductive Movimiento (L : ListSort ℕ) (cfg : Config) (s : Master) : Evento → Master → Prop
  | conectaQuery (path : Bytes) (prioridad : ℤ) :
    Movimiento L cfg s (.conectaQuery path prioridad)
      { s with hilos := s.hilos ++ [.crearQuery path prioridad] }
  | conectaWorker (id : ℕ) :
    Movimiento L cfg s (.conectaWorker id) { s with hilos := s.hilos ++ [.altaWorker id] }
  | mensaje (k : ℕ) (m : Mensaje) (hk : s.hilos[k]? = some .bucleWorker) :
    Movimiento L cfg s (.mensaje k m) { s with hilos := s.hilos.set k (.buscar m) }
  | desconectaQc (k : ℕ) (hk : s.hilos[k]? = some .bucleQuery) :
    Movimiento L cfg s (.mensaje k .desconexion) { s with hilos := s.hilos.set k .finQuery }
  | esperaQuery (envio : Bool) (hp : s.planificador = .esperaQuery)
    (hsem : s.semQueriesPendientes ≠ 0) :
    Movimiento L cfg s (.planificador envio) { s with
      semQueriesPendientes := s.semQueriesPendientes - 1
      planificador := .esperaWorker }
  | esperaWorker (envio : Bool) (hp : s.planificador = .esperaWorker)
    (hsem : s.semWorkersDisponibles ≠ 0) :
    Movimiento L cfg s (.planificador envio) { s with
      semWorkersDisponibles := s.semWorkersDisponibles - 1
      planificador := .desencolar }
  | colaVacia (envio : Bool) (hp : s.planificador = .desencolar) (hcola : s.colaReadyFIFO = []) :
    Movimiento L cfg s (.planificador envio) { s with planificador := .postQuery }
  | desencola (envio : Bool) (q : ℕ) (l : List ℕ) (hp : s.planificador = .desencolar)
    (hcola : s.colaReadyFIFO = q :: l) :
    Movimiento L cfg s (.planificador envio)
      { s with colaReadyFIFO := l, planificador := .buscarWorker q }
  | sinWorker (envio : Bool) (q : ℕ) (hp : s.planificador = .buscarWorker q)
    (hlibre : obtenerWorkerLibre s = none) :
    Movimiento L cfg s (.planificador envio) { s with planificador := .reencolar q }
  | tomaWorker (envio : Bool) (q w : ℕ) (hp : s.planificador = .buscarWorker q)
    (hmutex : s.mutexWorkersConectados = false) (hlibre : obtenerWorkerLibre s = some w) :
    Movimiento L cfg s (.planificador envio) { s with
      memWorkers := Function.update s.memWorkers w
        ((s.memWorkers w).map fun y => { y with libre := false })
      planificador := .asignar q w }
  | asigna (envio : Bool) (q w : ℕ) (x : Query) (y : Worker)
    (hp : s.planificador = .asignar q w) (hq : s.memQueries q = some x)
    (hw : s.memWorkers w = some y) :
    Movimiento L cfg s (.planificador envio) { s with
      memQueries := Function.update s.memQueries q
        (some { x with estadoActual := .exec, workerAsignado := some w })
      memWorkers := Function.update s.memWorkers w (some { y with ejecutando := some q })
      planificador := .enviar q w (armarPaquete x) }
  | envia (q w : ℕ) (p : Paquete) (hp : s.planificador = .enviar q w p) :
    Movimiento L cfg s (.planificador true) { s with planificador := .esperaQuery }
  | envioFallido (q w : ℕ) (p : Paquete) (hp : s.planificador = .enviar q w p) :
    Movimiento L cfg s (.planificador false) { s with planificador := .reencolar q }
  | reencola (envio : Bool) (q : ℕ) (hp : s.planificador = .reencolar q) :
    Movimiento L cfg s (.planificador envio) { s with
      colaReadyFIFO := q :: s.colaReadyFIFO
      planificador := .postQuery }
  | postQuery (envio : Bool) (hp : s.planificador = .postQuery) :
    Movimiento L cfg s (.planificador envio) { s with
      semQueriesPendientes := s.semQueriesPendientes + 1
      planificador := .postWorker }
  | postWorker (envio : Bool) (hp : s.planificador = .postWorker) :
    Movimiento L cfg s (.planificador envio) { s with
      semWorkersDisponibles := s.semWorkersDisponibles + 1
      planificador := .esperaQuery }
  | tick (envio : Bool) (l : List ℕ) (hag : HayAging cfg) (ha : s.aging = none)
    (hvivas : ∀ q ∈ s.colaReadyFIFO, (s.memQueries q).isSome)
    (hl : ordenar L cfg (envejecer s.memQueries s.colaReadyFIFO) s.colaReadyFIFO = .ok l) :
    Movimiento L cfg s (.aging envio) { s with
      memQueries := envejecer s.memQueries s.colaReadyFIFO
      colaReadyFIFO := l
      aging := some .leerReady }
  | verificaAging (envio : Bool) (d : Desalojo) (d' : Option Desalojo) (ha : s.aging = some d)
    (hd : verificarDesalojo cfg s d = .ok d') :
    Movimiento L cfg s (.aging envio) { s with aging := d' }
  | creaQuery (envio : Bool) (k : ℕ) (path : Bytes) (prioridad : ℤ)
    (hk : s.hilos[k]? = some (.crearQuery path prioridad)) :
    Movimiento L cfg s (.hilo k envio) { s with
      nextQid := (s.nextQid + 1) % 2 ^ 32
      hilos := s.hilos.set k (.registrarQuery path prioridad s.nextQid) }
  | registraQuery (envio : Bool) (k : ℕ) (path : Bytes) (prioridad : ℤ) (qid : ℕ)
    (hk : s.hilos[k]? = some (.registrarQuery path prioridad qid)) :
    Movimiento L cfg s (.hilo k envio) { s with
      memQueries := Function.update s.memQueries k (some (crearQuery path prioridad qid k))
      queriesActivas := s.queriesActivas ++ [k]
      hilos := s.hilos.set k (.encolar k .query) }
  | altaWorker (envio : Bool) (k id : ℕ) (hk : s.hilos[k]? = some (.altaWorker id))
    (hmutex : s.mutexWorkersConectados = false) :
    Movimiento L cfg s (.hilo k envio) { s with
      memWorkers := Function.update s.memWorkers k (some ⟨k, id, true, none⟩)
      listaWorkersConectados := s.listaWorkersConectados ++ [k]
      hilos := s.hilos.set k .avisarWorker }
  | avisaWorker (envio : Bool) (k : ℕ) (hk : s.hilos[k]? = some .avisarWorker) :
    Movimiento L cfg s (.hilo k envio) { s with
      semWorkersDisponibles := s.semWorkersDisponibles + 1
      hilos := s.hilos.set k .bucleWorker }
  | busca (envio : Bool) (k : ℕ) (m : Mensaje) (hk : s.hilos[k]? = some (.buscar m)) :
    Movimiento L cfg s (.hilo k envio)
      { s with hilos := s.hilos.set k (.atender m (buscarWorkerPorSocket s k)) }
  | sinFicha (envio : Bool) (k : ℕ) (hk : s.hilos[k]? = some (.atender .desconexion none)) :
    Movimiento L cfg s (.hilo k envio) { s with hilos := s.hilos.set k .finWorker }
  | descarta (envio : Bool) (k : ℕ) (m : Mensaje) (w : Option ℕ)
    (hk : s.hilos[k]? = some (.atender m w)) (hm : m ≠ .desconexion) :
    Movimiento L cfg s (.hilo k envio) { s with hilos := s.hilos.set k .bucleWorker }
  | desaloja (envio : Bool) (k pc w q : ℕ) (x : Query) (y : Worker)
    (hk : s.hilos[k]? = some (.atender (.queryDesalojada x.qid pc) (some w)))
    (hw : s.memWorkers w = some y) (hy : y.ejecutando = some q) (hq : s.memQueries q = some x) :
    Movimiento L cfg s (.hilo k envio) { s with
      memQueries := Function.update s.memQueries q
        (some { x with pc := pc, estadoActual := .ready, workerAsignado := none })
      memWorkers := Function.update s.memWorkers w (some { y with ejecutando := none })
      hilos := s.hilos.set k (.registrarLibre w (.desalojada q)) }
  | esperaFin (envio : Bool) (k w q : ℕ) (qid : Option ℕ) (y : Worker)
    (hk : s.hilos[k]? = some (.atender (.finQuery qid) (some w)))
    (hw : s.memWorkers w = some y) (hy : y.ejecutando = some q) :
    Movimiento L cfg s (.hilo k envio)
      { s with hilos := s.hilos.set k (.recibirFin qid q w) }
  | descartaFin (envio : Bool) (k w q : ℕ) (qid : Option ℕ)
    (hk : s.hilos[k]? = some (.recibirFin qid q w)) :
    Movimiento L cfg s (.hilo k envio) { s with hilos := s.hilos.set k .bucleWorker }
  | termina (envio : Bool) (k w q : ℕ) (x : Query) (y : Worker)
    (hk : s.hilos[k]? = some (.recibirFin (some x.qid) q w))
    (hq : s.memQueries q = some x) (hw : s.memWorkers w = some y) :
    Movimiento L cfg s (.hilo k envio) { s with
      memWorkers := Function.update s.memWorkers w (some { y with ejecutando := none })
      hilos := s.hilos.set k (.registrarLibre w (.fin q)) }
  | registraLibre (envio : Bool) (k w : ℕ) (t : Tramite) (y : Worker)
    (hk : s.hilos[k]? = some (.registrarLibre w t)) (hmutex : s.mutexWorkersConectados = false)
    (hw : s.memWorkers w = some y) :
    Movimiento L cfg s (.hilo k envio) { s with
      memWorkers := Function.update s.memWorkers w
        (some { y with libre := true, ejecutando := none })
      hilos := s.hilos.set k (.avisarLibre t) }
  | avisaLibre (envio : Bool) (k : ℕ) (t : Tramite) (hk : s.hilos[k]? = some (.avisarLibre t)) :
    Movimiento L cfg s (.hilo k envio) { s with
      semWorkersDisponibles := s.semWorkersDisponibles + 1
      hilos := s.hilos.set k (continuar t) }
  | enviaFin (envio : Bool) (k q : ℕ) (x : Query) (hk : s.hilos[k]? = some (.enviarFin q))
    (hq : s.memQueries q = some x) :
    Movimiento L cfg s (.hilo k envio) { s with
      memQueries := Function.update s.memQueries q (some { x with estadoActual := .exit })
      hilos := s.hilos.set k (.liberarQuery q) }
  | liberaQuery (envio : Bool) (k q : ℕ) (x : Query) (hk : s.hilos[k]? = some (.liberarQuery q))
    (hq : s.memQueries q = some x) :
    Movimiento L cfg s (.hilo k envio) { s with
      memQueries := Function.update s.memQueries q none
      hilos := s.hilos.set k .bucleWorker }
  | desconectaLibre (envio : Bool) (k w : ℕ) (y : Worker)
    (hk : s.hilos[k]? = some (.atender .desconexion (some w)))
    (hmutex : s.mutexWorkersConectados = false) (hw : s.memWorkers w = some y)
    (hy : y.ejecutando = none) :
    Movimiento L cfg s (.hilo k envio) { s with
      listaWorkersConectados := s.listaWorkersConectados.erase w
      hilos := s.hilos.set k (.liberarWorker w) }
  | desconectaOcupado (envio : Bool) (k w q : ℕ) (x : Query) (y : Worker)
    (hk : s.hilos[k]? = some (.atender .desconexion (some w)))
    (hmutex : s.mutexWorkersConectados = false) (hw : s.memWorkers w = some y)
    (hy : y.ejecutando = some q) (hq : s.memQueries q = some x) :
    Movimiento L cfg s (.hilo k envio) { s with
      memQueries := Function.update s.memQueries q
        (some { x with estadoActual := .exit, workerAsignado := none })
      mutexWorkersConectados := true
      hilos := s.hilos.set k (.finDesconexion w q) }
  | finDesconexion (envio : Bool) (k w q : ℕ) (x : Query)
    (hk : s.hilos[k]? = some (.finDesconexion w q)) (hq : s.memQueries q = some x) :
    Movimiento L cfg s (.hilo k envio) { s with
      memQueries := Function.update s.memQueries q none
      listaWorkersConectados := s.listaWorkersConectados.erase w
      mutexWorkersConectados := false
      hilos := s.hilos.set k (.liberarWorker w) }
  | liberaWorker (envio : Bool) (k w : ℕ) (hk : s.hilos[k]? = some (.liberarWorker w)) :
    Movimiento L cfg s (.hilo k envio) { s with
      memWorkers := Function.update s.memWorkers w none
      hilos := s.hilos.set k .finWorker }
  | encola (envio : Bool) (k q : ℕ) (v : Rol) (l : List ℕ)
    (hk : s.hilos[k]? = some (.encolar q v))
    (hl : ordenar L cfg s.memQueries (s.colaReadyFIFO ++ [q]) = .ok l) :
    Movimiento L cfg s (.hilo k envio)
      { s with colaReadyFIFO := l, hilos := s.hilos.set k (.avisarQuery v) }
  | avisaQuery (envio : Bool) (k : ℕ) (v : Rol) (hk : s.hilos[k]? = some (.avisarQuery v)) :
    Movimiento L cfg s (.hilo k envio) { s with
      semQueriesPendientes := s.semQueriesPendientes + 1
      hilos := s.hilos.set k
        (if cfg.algoritmoPlanificacion = .prioridades then .verificar .leerReady v else bucle v) }
  | verifica (envio : Bool) (k : ℕ) (d d' : Desalojo) (v : Rol)
    (hk : s.hilos[k]? = some (.verificar d v)) (hd : verificarDesalojo cfg s d = .ok (some d')) :
    Movimiento L cfg s (.hilo k envio) { s with hilos := s.hilos.set k (.verificar d' v) }
  | terminaVerificar (envio : Bool) (k : ℕ) (d : Desalojo) (v : Rol)
    (hk : s.hilos[k]? = some (.verificar d v)) (hd : verificarDesalojo cfg s d = .ok none) :
    Movimiento L cfg s (.hilo k envio) { s with hilos := s.hilos.set k (bucle v) }
  | sigint (m : ℕ → Option Query)
    (hm : run destruirQuery s.memQueries s.queriesActivas = .ok m) :
    Movimiento L cfg s .sigint { s with memQueries := m, queriesActivas := [], correr := false }

section Inversion

variable {s s' : Master}

theorem movimiento_of_planificadorFifo {envio : Bool}
    (h : planificadorFifo s envio = .ok s') : Movimiento L cfg s (.planificador envio) s' := by
  unfold planificadorFifo at h
  cases hp : s.planificador with
  | esperaQuery =>
    simp only [hp] at h
    split at h
    · cases h
    · cases h
      exact .esperaQuery envio hp ‹_›
  | esperaWorker =>
    simp only [hp] at h
    split at h
    · cases h
    · cases h
      exact .esperaWorker envio hp ‹_›
  | desencolar =>
    simp only [hp] at h
    split at h
    · rename_i hcola
      cases h
      exact .colaVacia envio hp hcola
    · rename_i q l hcola
      cases h
      exact .desencola envio q l hp hcola
  | buscarWorker q =>
    simp only [hp] at h
    split at h
    · cases h
    · rename_i hmutex
      cases hlibre : obtenerWorkerLibre s with
      | none =>
        simp only [hlibre] at h
        cases h
        exact .sinWorker envio q hp hlibre
      | some w =>
        simp only [hlibre] at h
        cases h
        exact .tomaWorker envio q w hp (Bool.eq_false_iff.mpr hmutex) hlibre
  | asignar q w =>
    simp only [hp] at h
    cases hq : s.memQueries q with
    | none => simp [hq] at h
    | some x =>
      cases hw : s.memWorkers w with
      | none => simp [hq, hw] at h
      | some y =>
        simp only [hq, hw] at h
        cases h
        exact .asigna envio q w x y hp hq hw
  | enviar q w p =>
    simp only [hp] at h
    cases envio with
    | true =>
      cases h
      exact .envia q w p hp
    | false =>
      cases h
      exact .envioFallido q w p hp
  | reencolar q =>
    simp only [hp] at h
    cases h
    exact .reencola envio q hp
  | postQuery =>
    simp only [hp] at h
    cases h
    exact .postQuery envio hp
  | postWorker =>
    simp only [hp] at h
    cases h
    exact .postWorker envio hp

theorem movimiento_of_agingReady {envio : Bool} (hag : HayAging cfg)
    (h : agingReady L cfg s = .ok s') : Movimiento L cfg s (.aging envio) s' := by
  unfold agingReady at h
  cases ha : s.aging with
  | none =>
    simp only [ha] at h
    split at h
    · rename_i hvivas
      split at h
      · rename_i l hl
        cases h
        exact .tick envio l hag ha hvivas hl
      · cases h
    · cases h
  | some d =>
    simp only [ha] at h
    split at h
    · rename_i d' hd
      cases h
      exact .verificaAging envio d d' ha hd
    · cases h

variable {k : ℕ} {envio : Bool}

theorem movimiento_of_queryDesalojada {qid pc w : ℕ}
    (hk : s.hilos[k]? = some (.atender (.queryDesalojada qid pc) (some w)))
    (h : queryDesalojada s k qid pc w = .ok s') : Movimiento L cfg s (.hilo k envio) s' := by
  unfold queryDesalojada at h
  cases hw : s.memWorkers w with
  | none => simp [hw] at h
  | some y =>
    cases hy : y.ejecutando with
    | none =>
      simp only [hw, hy] at h
      cases h
      exact .descarta envio k _ _ hk (by simp)
    | some q =>
      cases hq : s.memQueries q with
      | none => simp [hw, hy, hq] at h
      | some x =>
        simp only [hw, hy, hq] at h
        split at h
        · rename_i hqid
          subst hqid
          cases h
          exact .desaloja envio k pc w q x y hk hw hy hq
        · cases h
          exact .descarta envio k _ _ hk (by simp)

theorem movimiento_of_finQuery {qid : Option ℕ} {w : ℕ}
    (hk : s.hilos[k]? = some (.atender (.finQuery qid) (some w)))
    (h : finQuery s k qid w = .ok s') : Movimiento L cfg s (.hilo k envio) s' := by
  unfold finQuery at h
  cases hw : s.memWorkers w with
  | none => simp [hw] at h
  | some y =>
    cases hy : y.ejecutando with
    | none =>
      simp only [hw, hy] at h
      cases h
      exact .descarta envio k _ _ hk (by simp)
    | some q =>
      simp only [hw, hy] at h
      cases h
      exact .esperaFin envio k w q qid y hk hw hy

theorem movimiento_of_recibirFin {qid : Option ℕ} {q w : ℕ}
    (hk : s.hilos[k]? = some (.recibirFin qid q w)) (h : recibirFin s k qid q w = .ok s') :
    Movimiento L cfg s (.hilo k envio) s' := by
  unfold recibirFin at h
  cases qid with
  | none =>
    cases h
    exact .descartaFin envio k w q none hk
  | some n =>
    cases hq : s.memQueries q with
    | none => simp [hq] at h
    | some x =>
      cases hw : s.memWorkers w with
      | none => simp [hq, hw] at h
      | some y =>
        simp only [hq, hw] at h
        split at h
        · rename_i hqid
          subst hqid
          cases h
          exact .termina envio k w q x y hk hq hw
        · cases h
          exact .descartaFin envio k w q (some n) hk

theorem movimiento_of_manejarDesconexionWorker {w : ℕ}
    (hk : s.hilos[k]? = some (.atender .desconexion (some w)))
    (h : manejarDesconexionWorker s k w = .ok s') : Movimiento L cfg s (.hilo k envio) s' := by
  unfold manejarDesconexionWorker at h
  split at h
  · cases h
  · rename_i hmutex
    have hfree : s.mutexWorkersConectados = false := Bool.eq_false_iff.mpr hmutex
    cases hw : s.memWorkers w with
    | none => simp [hw] at h
    | some y =>
      cases hy : y.ejecutando with
      | none =>
        simp only [hw, hy] at h
        cases h
        exact .desconectaLibre envio k w y hk hfree hw hy
      | some q =>
        cases hq : s.memQueries q with
        | none => simp [hw, hy, hq] at h
        | some x =>
          simp only [hw, hy, hq] at h
          cases h
          exact .desconectaOcupado envio k w q x y hk hfree hw hy hq

theorem movimiento_of_atender {m : Mensaje} {w : Option ℕ}
    (hk : s.hilos[k]? = some (.atender m w))
    (h : atenderCliente L cfg s k (.atender m w) = .ok s') :
    Movimiento L cfg s (.hilo k envio) s' := by
  cases w with
  | none =>
    cases m with
    | queryDesalojada qid pc =>
      cases h
      exact .descarta envio k _ _ hk (by simp)
    | finQuery qid =>
      cases h
      exact .descarta envio k _ _ hk (by simp)
    | desconexion =>
      cases h
      exact .sinFicha envio k hk
  | some w =>
    cases m with
    | queryDesalojada qid pc => exact movimiento_of_queryDesalojada hk h
    | finQuery qid => exact movimiento_of_finQuery hk h
    | desconexion => exact movimiento_of_manejarDesconexionWorker hk h

theorem movimiento_of_verificar {d : Desalojo} {v : Rol}
    (hk : s.hilos[k]? = some (.verificar d v))
    (h : atenderCliente L cfg s k (.verificar d v) = .ok s') :
    Movimiento L cfg s (.hilo k envio) s' := by
  simp only [atenderCliente] at h
  split at h
  · rename_i d' hd
    cases h
    exact .verifica envio k d d' v hk hd
  · rename_i hd
    cases h
    exact .terminaVerificar envio k d v hk hd
  · cases h

theorem movimiento_of_atenderCliente {hl : Hilo} (hk : s.hilos[k]? = some hl)
    (h : atenderCliente L cfg s k hl = .ok s') : Movimiento L cfg s (.hilo k envio) s' := by
  cases hl with
  | crearQuery path prioridad =>
    cases h
    exact .creaQuery envio k path prioridad hk
  | registrarQuery path prioridad qid =>
    cases h
    exact .registraQuery envio k path prioridad qid hk
  | altaWorker id =>
    simp only [atenderCliente] at h
    split at h
    · cases h
    · rename_i hmutex
      cases h
      exact .altaWorker envio k id hk (Bool.eq_false_iff.mpr hmutex)
  | avisarWorker =>
    cases h
    exact .avisaWorker envio k hk
  | buscar m =>
    simp only [atenderCliente] at h
    split at h
    · cases h
    · cases h
      exact .busca envio k m hk
  | atender m w => exact movimiento_of_atender hk h
  | recibirFin qid q w => exact movimiento_of_recibirFin hk h
  | registrarLibre w t =>
    simp only [atenderCliente] at h
    split at h
    · cases h
    · rename_i hmutex
      split at h
      · cases h
      · rename_i y hw
        cases h
        exact .registraLibre envio k w t y hk (Bool.eq_false_iff.mpr hmutex) hw
  | avisarLibre t =>
    cases h
    exact .avisaLibre envio k t hk
  | enviarFin q =>
    simp only [atenderCliente] at h
    split at h
    · cases h
    · rename_i x hq
      cases h
      exact .enviaFin envio k q x hk hq
  | liberarQuery q =>
    simp only [atenderCliente] at h
    split at h
    · cases h
    · rename_i x hq
      cases h
      exact .liberaQuery envio k q x hk hq
  | finDesconexion w q =>
    simp only [atenderCliente] at h
    split at h
    · cases h
    · rename_i x hq
      cases h
      exact .finDesconexion envio k w q x hk hq
  | liberarWorker w =>
    cases h
    exact .liberaWorker envio k w hk
  | encolar q v =>
    simp only [atenderCliente] at h
    split at h
    · rename_i l hl
      cases h
      exact .encola envio k q v l hk hl
    · cases h
  | avisarQuery v =>
    cases h
    exact .avisaQuery envio k v hk
  | verificar d v => exact movimiento_of_verificar hk h
  | bucleQuery => cases h
  | finQuery => cases h
  | bucleWorker => cases h
  | finWorker => cases h

theorem movimiento_of_recibirOperacion {m : Mensaje} {hl : Hilo} (hk : s.hilos[k]? = some hl)
    (h : recibirOperacion s k m hl = .ok s') : Movimiento L cfg s (.mensaje k m) s' := by
  unfold recibirOperacion at h
  split at h
  · cases h
    exact .mensaje k m hk
  · split at h
    · rename_i hm
      subst hm
      rw [manejarDesconexionQc_eq] at h
      cases h
      exact .desconectaQc k hk
    · cases h
  · cases h

theorem movimiento_of_sigint (h : sigint s = .ok s') : Movimiento L cfg s .sigint s' := by
  unfold sigint at h
  split at h
  · rename_i m hm
    cases h
    exact .sigint m hm
  · cases h

/-- A step that is taken is one of the listed moves, and the Master is running. -/
theorem movimiento_of_paso {e : Evento} (h : paso L cfg s e = .ok s') :
    s.correr = true ∧ Movimiento L cfg s e s' := by
  unfold paso at h
  split at h
  · rename_i hcorrer
    refine ⟨hcorrer, ?_⟩
    cases e with
    | conectaQuery path prioridad =>
      cases h
      exact .conectaQuery path prioridad
    | conectaWorker id =>
      cases h
      exact .conectaWorker id
    | mensaje k m =>
      simp only at h
      split at h
      · exact movimiento_of_recibirOperacion ‹_› h
      · cases h
    | planificador envio => exact movimiento_of_planificadorFifo h
    | aging envio =>
      simp only at h
      split at h
      · exact movimiento_of_agingReady ‹_› h
      · cases h
    | hilo k envio =>
      simp only at h
      split at h
      · exact movimiento_of_atenderCliente ‹_› h
      · cases h
    | sigint => exact movimiento_of_sigint h
  · cases h

end Inversion

end MasterOfFiles.SchedulerMoves
