import MasterOfFiles.ReadyQueue

/-!
Records at addresses that were freed before, and connections at numbers that were
closed. malloc may give a new Query, or a new Worker, the address of a freed one, and a
pointer to the old record that nobody has cleared then points to the new one. Records
keep the names of their connections, so what changes when an address is handed out again
are the pointers: those to the old record become pointers to the new one. Under FIFO the
queries sent are a prefix of the queries appended as long as READY and the planner hold
no pointer to the old record. What is proved of what the Master writes on a socket is
proved of runs that hand out no address and no number again: all connections are opened
and registered before a party reports an end or leaves.
-/
namespace MasterOfFiles.ReusedRecords

open PartialRuns RunTraces SortedLists SchedulerState SchedulerSteps ReadyQueue

variable {L : ListSort ℕ} {s s' : Master}

section Punteros

variable (f g : ℕ → ℕ)

/-- Pointers to Queries go through `f`, pointers to Workers through `g`. -/
def apuntarDesalojo : Desalojo → Desalojo
  | .leerReady => .leerReady
  | .leerPeor m => .leerPeor (f m)
  | .comparar m peor => .comparar (f m) (peor.map (Prod.map f g))
  | .enviar e w qid => .enviar (f e) (g w) qid

def apuntarPlanificador : Planificador → Planificador
  | .buscarWorker q => .buscarWorker (f q)
  | .asignar q w => .asignar (f q) (g w)
  | .enviar q w p => .enviar (f q) (g w) p
  | .reencolar q => .reencolar (f q)
  | p => p

def apuntarTramite : Tramite → Tramite
  | .desalojada q => .desalojada (f q)
  | .fin q => .fin (f q)

def apuntarHilo : Hilo → Hilo
  | .atender m w => .atender m (w.map g)
  | .recibirFin qid q w => .recibirFin qid (f q) (g w)
  | .registrarLibre w t => .registrarLibre (g w) (apuntarTramite f t)
  | .avisarLibre t => .avisarLibre (apuntarTramite f t)
  | .enviarFin q => .enviarFin (f q)
  | .liberarQuery q => .liberarQuery (f q)
  | .finDesconexion w q => .finDesconexion (g w) (f q)
  | .liberarWorker w => .liberarWorker (g w)
  | .encolar q v => .encolar (f q) v
  | .verificar d v => .verificar (apuntarDesalojo f g d) v
  | h => h

def apuntar (s : Master) : Master where
  nextQid := s.nextQid
  queriesActivas := s.queriesActivas.map f
  memQueries q := (s.memQueries q).map fun x => { x with workerAsignado := x.workerAsignado.map g }
  colaReadyFIFO := s.colaReadyFIFO.map f
  memWorkers w := (s.memWorkers w).map fun y => { y with ejecutando := y.ejecutando.map f }
  listaWorkersConectados := s.listaWorkersConectados.map g
  mutexWorkersConectados := s.mutexWorkersConectados
  semQueriesPendientes := s.semQueriesPendientes
  semWorkersDisponibles := s.semWorkersDisponibles
  planificador := apuntarPlanificador f g s.planificador
  aging := s.aging.map (apuntarDesalojo f g)
  hilos := s.hilos.map (apuntarHilo f g)
  correr := s.correr

theorem pendientes_apuntar (s : Master) : pendientes (apuntar f g s) = (pendientes s).map f := by
  unfold pendientes
  rw [List.map_append]
  congr 1
  change retenida (apuntarPlanificador f g s.planificador) = _
  cases s.planificador <;> rfl

end Punteros

section Direcciones

/-- A step, and the freed record whose address malloc hands out in it. -/
structure Suceso where
  evento : Evento
  direccion : Option ℕ

/-- The Query, or the Worker, that a step allocates. -/
def queryNueva (s : Master) : Evento → Option ℕ
  | .hilo k _ => match s.hilos[k]? with
    | some (.registrarQuery _ _ _) => some k
    | _ => none
  | _ => none

def workerNuevo (s : Master) : Evento → Option ℕ
  | .hilo k _ => match s.hilos[k]? with
    | some (.altaWorker _) => some k
    | _ => none
  | _ => none

/-- What pointed to `j` points to `k`. -/
def mudar (j k : ℕ) (q : ℕ) : ℕ := if q = j then k else q

/-- A step in which malloc hands out the address of the freed record `j`, if any. -/
def pasoReusa (L : ListSort ℕ) (cfg : Config) (s : Master) (x : Suceso) : Except Fallo Master :=
  match paso L cfg s x.evento with
  | .error e => .error e
  | .ok s' => match x.direccion with
    | none => .ok s'
    | some j => match queryNueva s x.evento, workerNuevo s x.evento with
      | some k, _ =>
        if s.memQueries j = none then .ok (apuntar (mudar j k) id s') else .error .bloqueado
      | none, some k =>
        if s.memWorkers j = none then .ok (apuntar id (mudar j k) s') else .error .bloqueado
      | none, none => .error .bloqueado

/-- The address of a new Query is none that READY or the planner still holds. -/
def SinPendiente (s : Master) (x : Suceso) : Prop :=
  queryNueva s x.evento ≠ none → ∀ j ∈ x.direccion, j ∉ pendientes s

instance (s : Master) (x : Suceso) : Decidable (SinPendiente s x) :=
  inferInstanceAs (Decidable (_ → ∀ j ∈ x.direccion, _))

/-- The queries sent to Workers in a run, in order. -/
def enviadas (L : ListSort ℕ) (cfg : Config) (xs : List Suceso) : List ℕ :=
  outputs (pasoReusa L cfg) (fun s x => enviada s x.evento) inicial xs

/-- The queries appended to READY in a run, in order. -/
def agregadas (L : ListSort ℕ) (cfg : Config) (xs : List Suceso) : List ℕ :=
  outputs (pasoReusa L cfg) (fun s x => agregada s x.evento) inicial xs

theorem map_mudar {j k : ℕ} {l : List ℕ} (h : j ∉ l) : l.map (mudar j k) = l := by
  refine (List.map_congr_left fun q hq => ?_).trans (List.map_id l)
  exact if_neg (ne_of_mem_of_not_mem hq h)

/-- A step that registers a Query appends and sends none. -/
theorem agregada_queryNueva {e : Evento} {k : ℕ} (h : queryNueva s e = some k) :
    agregada s e = [] ∧ enviada s e = [] := by
  cases e with
  | hilo k' envio =>
    refine ⟨?_, rfl⟩
    unfold queryNueva at h
    unfold agregada
    dsimp only at h ⊢
    split at h
    · next hk => rw [hk]
    · cases h
  | _ => cases h

theorem pendientes_pasoReusa {t : ℤ} {x : Suceso} (hC : SinPendiente s x)
    (h : pasoReusa L ⟨.fifo, t⟩ s x = .ok s') :
    pendientes s ++ agregada s x.evento = enviada s x.evento ++ pendientes s' := by
  unfold pasoReusa at h
  cases hpaso : paso L ⟨.fifo, t⟩ s x.evento with
  | error e => simp [hpaso] at h
  | ok m =>
    have hley := pendientes_paso hpaso
    simp only [hpaso] at h
    cases hdir : x.direccion with
    | none =>
      simp only [hdir, Except.ok.injEq] at h
      exact h ▸ hley
    | some j =>
      simp only [hdir] at h
      cases hquery : queryNueva s x.evento with
      | some k =>
        obtain ⟨hagrega, henvia⟩ := agregada_queryNueva hquery
        have hno : j ∉ pendientes s := hC (by simp [hquery]) j hdir
        rw [hagrega, henvia, List.append_nil, List.nil_append] at hley ⊢
        simp only [hquery] at h
        split_ifs at h
        obtain rfl := Except.ok.inj h
        rw [pendientes_apuntar, ← hley]
        exact (map_mudar hno).symm
      | none =>
        simp only [hquery] at h
        cases hworker : workerNuevo s x.evento with
        | none => simp [hworker] at h
        | some k =>
          simp only [hworker] at h
          split_ifs at h
          obtain rfl := Except.ok.inj h
          rw [pendientes_apuntar, List.map_id]
          exact hley

end Direcciones

section Numeros

def abre : Evento → Bool
  | .conectaQuery _ _ => true
  | .conectaWorker _ => true
  | _ => false

/-- The step opens a connection or allocates the record of one. -/
def Estrena (s : Master) (e : Evento) : Prop :=
  abre e = true ∨ queryNueva s e ≠ none ∨ workerNuevo s e ≠ none

instance (s : Master) (e : Evento) : Decidable (Estrena s e) := inferInstanceAs (Decidable (_ ∨ _))

/-- A party reports an end or leaves, or the Master is stopped. -/
def Despide : Evento → Bool
  | .mensaje _ (.finQuery _) => true
  | .mensaje _ .desconexion => true
  | .sigint => true
  | _ => false

/-- All connections are opened and registered before any is closed and any record freed. -/
def SinReuso (L : ListSort ℕ) (cfg : Config) (xs : List Evento) : Prop :=
  ∃ ys zs, xs = ys ++ zs ∧ (∀ e ∈ ys, Despide e = false) ∧
    EachStep (paso L cfg) (fun s e => ¬ Estrena s e) (after (paso L cfg) inicial ys) zs

end Numeros

section Fifo

/-- Under FIFO the queries sent to Workers are the first ones appended, each once for each
time it was appended, whatever the threads do, as long as no new Query gets an address that
READY or the planner still holds. -/
theorem enviadas_prefix_agregadas (L : ListSort ℕ) (t : ℤ) {xs : List Suceso}
    (hC : EachStep (pasoReusa L ⟨.fifo, t⟩) SinPendiente inicial xs) :
    enviadas L ⟨.fifo, t⟩ xs <+: agregadas L ⟨.fifo, t⟩ xs :=
  outputs_prefix (fun _ _ _ hC h => pendientes_pasoReusa hC h) rfl hC

/-- Steps in which malloc hands out no address of a freed record. -/
def sinReuso (xs : List Evento) : List Suceso := xs.map fun e => ⟨e, none⟩

/-- A Query and a Worker connect, the send to the Worker fails, and the Worker leaves: the
Query is freed as the one it executes and is still in READY. -/
def liberadaEnReady : List Evento :=
  [.conectaQuery [97] 0, .conectaWorker 7] ++ List.replicate 4 (.hilo 0 true) ++
    List.replicate 2 (.hilo 1 true) ++ List.replicate 5 (.planificador true) ++
    List.replicate 4 (.planificador false) ++
    .mensaje 1 .desconexion :: List.replicate 4 (.hilo 1 true)

/-- Two Workers connect and two Queries are handed over. -/
def dosEntregas : List Evento :=
  [.conectaWorker 8, .conectaWorker 9] ++ List.replicate 2 (.hilo 3 true) ++
    List.replicate 2 (.hilo 4 true) ++ List.replicate 12 (.planificador true)

/-- The next Query is registered at the address `d`. -/
def otraQuery (d : Option ℕ) : List Suceso :=
  sinReuso [.conectaQuery [98] 0, .hilo 2 true] ++ ⟨.hilo 2 true, d⟩ ::
    sinReuso (List.replicate 2 (.hilo 2 true))

/-- A Query that has ended is freed, and the next one gets its address. -/
def reusoLimpio : List Suceso :=
  sinReuso ([.conectaQuery [97] 0, .conectaWorker 7] ++ List.replicate 4 (.hilo 0 true) ++
    List.replicate 2 (.hilo 1 true) ++ List.replicate 6 (.planificador true) ++
    .mensaje 1 (.finQuery (some 0)) :: List.replicate 7 (.hilo 1 true)) ++
  otraQuery (some 0) ++ sinReuso (List.replicate 6 (.planificador true))

theorem enviadas_prefix_agregadas_reusoLimpio :
    enviadas (insertionSort ℕ) ⟨.fifo, 0⟩ reusoLimpio <+:
      agregadas (insertionSort ℕ) ⟨.fifo, 0⟩ reusoLimpio :=
  enviadas_prefix_agregadas (insertionSort ℕ) 0 (by decide)

/-- The Query freed in READY is never sent, and the one that gets its address is sent twice. -/
theorem not_enviadas_prefix_agregadas : ¬ ∀ (L : ListSort ℕ) t xs,
    enviadas L ⟨.fifo, t⟩ xs <+: agregadas L ⟨.fifo, t⟩ xs := by
  intro h
  have hprefix := h (insertionSort ℕ) 0
    (sinReuso liberadaEnReady ++ otraQuery (some 0) ++ sinReuso dosEntregas)
  have henviadas : enviadas (insertionSort ℕ) ⟨.fifo, 0⟩
      (sinReuso liberadaEnReady ++ otraQuery (some 0) ++ sinReuso dosEntregas) = [2, 2] := by
    decide
  have hagregadas : agregadas (insertionSort ℕ) ⟨.fifo, 0⟩
      (sinReuso liberadaEnReady ++ otraQuery (some 0) ++ sinReuso dosEntregas) = [0, 2] := by
    decide
  rw [henviadas, hagregadas] at hprefix
  exact absurd hprefix (by decide)

end Fifo

end MasterOfFiles.ReusedRecords
