import MasterOfFiles.AgingBounds
import MasterOfFiles.DanglingQueries
import MasterOfFiles.QueryOwnership

/-!
What a thread inside verificar_desalojo has read, and which steps of other threads
leave it true. The head of READY is read under one mutex and the worst executing
query under another, and both are used after the mutexes are released. A reading
stays good until the planner touches READY or a Worker's record changes.
-/
namespace MasterOfFiles.EvictionReads

open PartialRuns SortedLists SchedulerState SchedulerSteps SchedulerMoves QueryHolders
open PriorityOrder AgingBounds DanglingQueries WorkerRecords QueryOwnership

variable {L : ListSort ℕ} {cfg : Config} {s s' : Master} {e : Evento}

section Etapas

def deHilo : Hilo → Option Desalojo
  | .verificar d _ => some d
  | _ => none

/-- Where each thread is in verificar_desalojo, the aging thread first. -/
def etapas (s : Master) : List (Option Desalojo) := s.aging :: s.hilos.map deHilo

/-- Where the thread that takes the step is in verificar_desalojo. -/
def etapa (s : Master) : Evento → Option Desalojo
  | .aging _ => s.aging
  | .hilo k _ => s.hilos[k]?.bind deHilo
  | _ => none

/-- The place of the thread that takes the step. -/
def quien : Evento → Option ℕ
  | .aging _ => some 0
  | .hilo k _ => some (k + 1)
  | _ => none

/-- A step, as the calls of verificar_desalojo see it. -/
inductive PasoEtapas (cfg : Config) (s : Master) (e : Evento) (s' : Master) : Prop
  | igual (h : etapas s' = etapas s) (hno : etapa s e = none)
  | nueva (h : etapas s' = etapas s ++ [none]) (hno : etapa s e = none)
  | empieza (i : ℕ) (hi : (etapas s)[i]? = some none)
    (h : etapas s' = (etapas s).set i (some .leerReady)) (hno : etapa s e = none)
  | sigue (i : ℕ) (d : Desalojo) (d' : Option Desalojo) (hi : (etapas s)[i]? = some (some d))
    (hquien : quien e = some i) (he : etapa s e = some d) (hd : verificarDesalojo cfg s d = .ok d')
    (h : etapas s' = (etapas s).set i d')

theorem deHilo_bucle (v : Rol) : deHilo (bucle v) = none := by
  cases v <;> rfl

theorem etapas_of_set {k : ℕ} (hl' : Hilo) (hh : s'.hilos = s.hilos.set k hl')
    (ha : s'.aging = s.aging) : etapas s' = (etapas s).set (k + 1) (deHilo hl') := by
  rw [etapas, etapas, hh, ha, List.map_set, List.set_cons_succ]

theorem etapas_getElem? {k : ℕ} {hl : Hilo} (hk : s.hilos[k]? = some hl) :
    (etapas s)[k + 1]? = some (deHilo hl) := by
  rw [etapas, List.getElem?_cons_succ, List.getElem?_map, hk]
  rfl

theorem etapa_hilo {k : ℕ} {hl : Hilo} (hk : s.hilos[k]? = some hl) (envio : Bool) :
    etapa s (.hilo k envio) = deHilo hl := by
  rw [etapa, hk]
  rfl

theorem etapa_of_quien {i : ℕ} (h : quien e = some i) : etapa s e = (etapas s)[i]?.join := by
  cases e with
  | aging envio =>
    cases h
    rfl
  | hilo k envio =>
    cases h
    rw [etapa, etapas, List.getElem?_cons_succ, List.getElem?_map]
    cases s.hilos[k]? <;> rfl
  | _ => cases h

theorem quien_of_etapa {d : Desalojo} (h : etapa s e = some d) :
    ∃ i, quien e = some i ∧ (etapas s)[i]? = some (some d) := by
  have hquien : ∃ i, quien e = some i := by
    cases e with
    | aging envio => exact ⟨0, rfl⟩
    | hilo k envio => exact ⟨k + 1, rfl⟩
    | _ => cases h
  obtain ⟨i, hi⟩ := hquien
  rw [etapa_of_quien hi] at h
  exact ⟨i, hi, Option.join_eq_some_iff.mp h⟩

/-- A thread that is not in verificar_desalojo moves and does not enter it. -/
theorem etapas_fuera {k : ℕ} {hl hl' : Hilo} (hk : s.hilos[k]? = some hl)
    (hh : s'.hilos = s.hilos.set k hl') (ha : s'.aging = s.aging) (hno : deHilo hl = none)
    (hno' : deHilo hl' = none) : etapas s' = etapas s := by
  obtain ⟨hlt, hget⟩ := List.getElem?_eq_some_iff.mp (etapas_getElem? hk)
  rw [hno] at hget
  have hset := List.set_getElem_self hlt
  rw [hget] at hset
  rw [etapas_of_set hl' hh ha, hno', hset]

theorem pasoEtapas_of_movimiento (h : Movimiento L cfg s e s') : PasoEtapas cfg s e s' := by
  cases h with
  | conectaQuery path prioridad => exact .nueva (by simp [etapas, deHilo]) rfl
  | conectaWorker id => exact .nueva (by simp [etapas, deHilo]) rfl
  | mensaje k m hk => exact .igual (etapas_fuera hk rfl rfl rfl rfl) rfl
  | desconectaQc k hk => exact .igual (etapas_fuera hk rfl rfl rfl rfl) rfl
  | tick envio l hag ha hvivas hl =>
    refine .empieza 0 ?_ ?_ ha
    · rw [etapas, ha]
      rfl
    · rfl
  | verificaAging envio d d' ha hd =>
    refine .sigue 0 d d' ?_ rfl ha hd rfl
    rw [etapas, ha]
    rfl
  | avisaQuery envio k v hk =>
    by_cases hprio : cfg.algoritmoPlanificacion = .prioridades
    · refine .empieza (k + 1) (etapas_getElem? hk) ?_ (etapa_hilo hk envio)
      rw [if_pos hprio]
      exact etapas_of_set (.verificar .leerReady v) rfl rfl
    · rw [if_neg hprio]
      exact .igual (etapas_fuera hk rfl rfl rfl (deHilo_bucle v)) (etapa_hilo hk envio)
  | verifica envio k d d' v hk hd =>
    exact .sigue (k + 1) d (some d') (etapas_getElem? hk) rfl (etapa_hilo hk envio) hd
      (etapas_of_set (.verificar d' v) rfl rfl)
  | terminaVerificar envio k d v hk hd =>
    refine .sigue (k + 1) d none (etapas_getElem? hk) rfl (etapa_hilo hk envio) hd ?_
    rw [← deHilo_bucle v]
    exact etapas_of_set (bucle v) rfl rfl
  | avisaLibre envio k t hk =>
    have hno : deHilo (continuar t) = none := by cases t <;> rfl
    exact .igual (etapas_fuera hk rfl rfl rfl hno) (etapa_hilo hk envio)
  | _ =>
    first
    | exact .igual rfl rfl
    | exact .igual (etapas_fuera (by assumption) rfl rfl rfl rfl) (etapa_hilo (by assumption) _)

end Etapas

section Lecturas

/-- `a` is `b`, or both are there and `a` has no larger priority number. -/
def NoMayor (m : ℕ → Option Query) (a b : ℕ) : Prop :=
  a = b ∨ ∃ x y, m a = some x ∧ m b = some y ∧ x.prioridad ≤ y.prioridad

def Menor (m : ℕ → Option Query) (a b : ℕ) : Prop :=
  ∃ x y, m a = some x ∧ m b = some y ∧ x.prioridad < y.prioridad

/-- A listed Worker is executing the query. -/
def Ejecutando (s : Master) (q : ℕ) : Prop :=
  ∃ w ∈ s.listaWorkersConectados, (s.memWorkers w).bind Worker.ejecutando = some q

instance (s : Master) (q : ℕ) : Decidable (Ejecutando s q) :=
  inferInstanceAs (Decidable (∃ w ∈ s.listaWorkersConectados, _))

/-- The query is in READY, whose head goes no later than it. -/
def EnCabeza (s : Master) (q : ℕ) : Prop :=
  q ∈ s.colaReadyFIFO ∧ ∃ h, s.colaReadyFIFO.head? = some h ∧ NoMayor s.memQueries h q

/-- `w` is executing `e`, a worst one of the queries being executed. -/
structure PeorEn (s : Master) (e w : ℕ) : Prop where
  listado : w ∈ s.listaWorkersConectados
  ejecuta : (s.memWorkers w).bind Worker.ejecutando = some e
  peor : ∀ q, Ejecutando s q → NoMayor s.memQueries q e

/-- What a thread inside verificar_desalojo goes by is true, and no listed Worker is free. -/
def Leida (s : Master) : Desalojo → Prop
  | .leerReady => True
  | .leerPeor m => EnCabeza s m
  | .comparar _ none => True
  | .comparar m (some (e, w)) => EnCabeza s m ∧ PeorEn s e w ∧ obtenerWorkerLibre s = none
  | .enviar e w _ => PeorEn s e w ∧ obtenerWorkerLibre s = none ∧
    ∃ m, EnCabeza s m ∧ Menor s.memQueries m e

theorem NoMayor.trans {m : ℕ → Option Query} {a b c : ℕ} (hab : NoMayor m a b)
    (hbc : NoMayor m b c) : NoMayor m a c := by
  rcases hab with rfl | ⟨x, y, hx, hy, hxy⟩
  · exact hbc
  · rcases hbc with rfl | ⟨y', z, hy', hz, hyz⟩
    · exact Or.inr ⟨x, y, hx, hy, hxy⟩
    · obtain rfl := Option.some.inj (hy.symm.trans hy')
      exact Or.inr ⟨x, z, hx, hz, hxy.trans hyz⟩

theorem NoMayor.trans_menor {m : ℕ → Option Query} {a b c : ℕ} (hab : NoMayor m a b)
    (hbc : Menor m b c) : Menor m a c := by
  rcases hab with rfl | ⟨x, y, hx, hy, hxy⟩
  · exact hbc
  · obtain ⟨y', z, hy', hz, hyz⟩ := hbc
    obtain rfl := Option.some.inj (hy.symm.trans hy')
    exact ⟨x, z, hx, hz, hxy.trans_lt hyz⟩

/-- What the loop has found after the Workers of `l`. -/
def PeorDe (s : Master) (l : List ℕ) : Option (ℕ × ℕ) → Prop
  | none => ∀ v ∈ l, (s.memWorkers v).bind Worker.ejecutando = none
  | some (e, w) => w ∈ l ∧ (s.memWorkers w).bind Worker.ejecutando = some e ∧
    ∀ v ∈ l, ∀ q, (s.memWorkers v).bind Worker.ejecutando = some q → NoMayor s.memQueries q e

theorem noMayor_append {l : List ℕ} {w e : ℕ}
    (hmax : ∀ v ∈ l, ∀ q, (s.memWorkers v).bind Worker.ejecutando = some q →
      NoMayor s.memQueries q e)
    (hw : ∀ q, (s.memWorkers w).bind Worker.ejecutando = some q → NoMayor s.memQueries q e) :
    ∀ v ∈ l ++ [w], ∀ q, (s.memWorkers v).bind Worker.ejecutando = some q →
      NoMayor s.memQueries q e := by
  intro v hv
  rcases List.mem_append.mp hv with hv | hv
  · exact hmax v hv
  · rw [List.mem_singleton.mp hv]
    exact hw

theorem PeorDe.ocioso {l : List ℕ} {peor : Option (ℕ × ℕ)} {w : ℕ} (hpeor : PeorDe s l peor)
    (hw : (s.memWorkers w).bind Worker.ejecutando = none) : PeorDe s (l ++ [w]) peor := by
  cases peor with
  | none => exact List.forall_mem_append.mpr ⟨hpeor, List.forall_mem_singleton.mpr hw⟩
  | some p =>
    obtain ⟨hin, hej, hmax⟩ := hpeor
    refine ⟨List.mem_append_left _ hin, hej, noMayor_append hmax ?_⟩
    intro q hq
    rw [hw] at hq
    cases hq

/-- A Worker that executes `e` is passed, and no query found so far is worse than `e`. -/
theorem peorDe_nuevo {l : List ℕ} {w e : ℕ}
    (hw : (s.memWorkers w).bind Worker.ejecutando = some e)
    (hmax : ∀ v ∈ l, ∀ q, (s.memWorkers v).bind Worker.ejecutando = some q →
      NoMayor s.memQueries q e) : PeorDe s (l ++ [w]) (some (e, w)) := by
  refine ⟨List.mem_append_right _ (List.mem_singleton_self w), hw, noMayor_append hmax ?_⟩
  intro q hq
  rw [hw] at hq
  exact Or.inl (Option.some.inj hq).symm

theorem PeorDe.sigue {l : List ℕ} {p wp w e : ℕ} (hpeor : PeorDe s l (some (p, wp)))
    (hw : (s.memWorkers w).bind Worker.ejecutando = some e) (hep : NoMayor s.memQueries e p) :
    PeorDe s (l ++ [w]) (some (p, wp)) := by
  obtain ⟨hin, hej, hmax⟩ := hpeor
  refine ⟨List.mem_append_left _ hin, hej, noMayor_append hmax ?_⟩
  intro q hq
  rw [hw] at hq
  obtain rfl := Option.some.inj hq
  exact hep

/-- One round of buscar_peor_query_en_ejecucion, at a listed Worker. -/
theorem peorDe_ronda (hs : Fichas s) {l : List ℕ} {peor peor' : Option (ℕ × ℕ)} {w : ℕ}
    (hw : w ∈ s.listaWorkersConectados) (hpeor : PeorDe s l peor)
    (h : peorDe s peor w = .ok peor') : PeorDe s (l ++ [w]) peor' := by
  obtain ⟨⟨socket, id, libre, ejecutando⟩, hy, _, hlibre⟩ := hs.vivas w hw
  have hbind : (s.memWorkers w).bind Worker.ejecutando = ejecutando := by
    rw [hy]
    rfl
  unfold peorDe at h
  rw [hy] at h
  cases ejecutando with
  | none =>
    obtain rfl : peor = peor' := by
      cases libre <;> exact Except.ok.inj h
    exact hpeor.ocioso hbind
  | some e =>
    obtain rfl : libre = false := by
      cases libre with
      | false => rfl
      | true => exact absurd (hlibre rfl) (by simp)
    cases peor with
    | none =>
      cases h
      refine peorDe_nuevo hbind fun v hv q hq => ?_
      rw [hpeor v hv] at hq
      cases hq
    | some p =>
      simp only at h
      split at h
      · rename_i x y hx hy
        cases h
        split_ifs with hlt
        · refine peorDe_nuevo hbind fun v hv q hq => ?_
          exact (hpeor.2.2 v hv q hq).trans (Or.inr ⟨y, x, hy, hx, hlt.le⟩)
        · exact hpeor.sigue hbind (Or.inr ⟨x, y, hx, hy, not_lt.mp hlt⟩)
      · cases h

theorem peorDe_run (hs : Fichas s) {l xs : List ℕ} {peor peor' : Option (ℕ × ℕ)}
    (hxs : ∀ w ∈ xs, w ∈ s.listaWorkersConectados) (hpeor : PeorDe s l peor)
    (h : run (peorDe s) peor xs = .ok peor') : PeorDe s (l ++ xs) peor' := by
  induction xs generalizing l peor with
  | nil =>
    cases h
    rw [List.append_nil]
    exact hpeor
  | cons w xs ih =>
    cases hw : peorDe s peor w with
    | error f => simp [run, hw] at h
    | ok t =>
      rw [run_cons xs hw] at h
      have hstep := peorDe_ronda hs (hxs w (List.mem_cons_self ..)) hpeor hw
      have hrest := ih (fun v hv => hxs v (List.mem_cons_of_mem w hv)) hstep h
      rwa [List.append_assoc] at hrest

theorem peorEn_of_buscarPeor (hs : Fichas s) {e w : ℕ}
    (h : buscarPeorQueryEnEjecucion s = .ok (some (e, w))) : PeorEn s e w := by
  have hnil : PeorDe s [] none := fun v hv => absurd hv List.not_mem_nil
  obtain ⟨hw, hej, hpeor⟩ := peorDe_run hs (fun v hv => hv) hnil h
  exact ⟨hw, hej, fun q ⟨v, hv, hq⟩ => hpeor v hv q hq⟩

end Lecturas

section Cambios

/-- The query that a step frees. -/
def liberada (s : Master) : Evento → List ℕ
  | .hilo k _ => match s.hilos[k]? with
    | some hl => porLiberar hl
    | none => []
  | _ => []

/-- The queries whose priority a tick changes. -/
def envejecida (s : Master) : Evento → List ℕ
  | .aging _ => if s.aging = none then s.colaReadyFIFO else []
  | _ => []

/-- The planner takes a query off READY or puts one back. -/
def mueveReady (s : Master) : Evento → Bool
  | .planificador _ => match s.planificador with
    | .desencolar => true
    | .reencolar _ => true
    | _ => false
  | _ => false

/-- The thread's next step lists a Worker, takes its query or frees it. -/
def escribeFicha : Hilo → Bool
  | .altaWorker _ => true
  | .atender (.queryDesalojada _ _) (some _) => true
  | .recibirFin _ _ _ => true
  | .registrarLibre _ _ => true
  | _ => false

def escribeWorkers (s : Master) : Evento → Bool
  | .planificador _ => match s.planificador with
    | .asignar _ _ => true
    | _ => false
  | .hilo k _ => (s.hilos[k]?).any escribeFicha
  | _ => false

/-- The step may undo what was read of READY. -/
def TocaReady (s : Master) (e : Evento) : Prop :=
  mueveReady s e = true ∨ ∃ q ∈ liberada s e, q ∈ s.colaReadyFIFO

/-- The step may undo what was read of the Workers and their queries. -/
def TocaWorkers (s : Master) (e : Evento) : Prop :=
  escribeWorkers s e = true ∨ ∃ q ∈ liberada s e ++ envejecida s e, Ejecutando s q

theorem liberada_hilo {k : ℕ} {hl : Hilo} (hk : s.hilos[k]? = some hl) (envio : Bool) :
    liberada s (.hilo k envio) = porLiberar hl := by
  rw [liberada, hk]

theorem prioridad_update {m : ℕ → Option Query} {p q : ℕ} {x y z : Query} (hp : m p = some y)
    (hz : z.prioridad = y.prioridad) (hq : m q = some x) :
    ∃ x', Function.update m p (some z) q = some x' ∧ x'.prioridad = x.prioridad := by
  by_cases hqp : q = p
  · subst hqp
    obtain rfl := Option.some.inj (hp.symm.trans hq)
    exact ⟨z, Function.update_self .., hz⟩
  · exact ⟨x, by rw [Function.update_of_ne hqp, hq], rfl⟩

theorem envejecer_some {m : ℕ → Option Query} {q : ℕ} {x : Query} (l : List ℕ)
    (hq : m q = some x) : ∃ x', envejecer m l q = some x' ∧ x'.prioridad ≤ x.prioridad ∧
      (q ∉ l → x'.prioridad = x.prioridad) := by
  induction l generalizing m x with
  | nil => exact ⟨x, hq, le_refl _, fun _ => rfl⟩
  | cons a l ih =>
    by_cases hqa : q = a
    · subst hqa
      have hhead : Function.update m q ((m q).map bajarPrioridad) q = some (bajarPrioridad x) := by
        rw [Function.update_self, hq]
        rfl
      obtain ⟨x', hx', hle, _⟩ := ih hhead
      exact ⟨x', hx', hle.trans (envejecida_bajarPrioridad x).le,
        fun hno => absurd (List.mem_cons_self ..) hno⟩
    · have hhead : Function.update m a ((m a).map bajarPrioridad) q = some x := by
        rw [Function.update_of_ne hqa, hq]
      obtain ⟨x', hx', hle, heq⟩ := ih hhead
      exact ⟨x', hx', hle, fun hno => heq fun hin => hno (List.mem_cons_of_mem a hin)⟩

/-- A query that is not freed keeps its priority, but for a tick while it is in READY. -/
theorem prioridad_movimiento (hv : VivasEstablecidas s) (hcorrer : s'.correr = true)
    (hm : Movimiento L cfg s e s') {q : ℕ} {x : Query} (hq : s.memQueries q = some x)
    (hno : q ∉ liberada s e) : ∃ x', s'.memQueries q = some x' ∧ x'.prioridad ≤ x.prioridad ∧
      (q ∉ envejecida s e → x'.prioridad = x.prioridad) := by
  have hsame : (∃ x', s'.memQueries q = some x' ∧ x'.prioridad = x.prioridad) →
      ∃ x', s'.memQueries q = some x' ∧ x'.prioridad ≤ x.prioridad ∧
        (q ∉ envejecida s e → x'.prioridad = x.prioridad) := by
    rintro ⟨x', hx', heq⟩
    exact ⟨x', hx', heq.le, fun _ => heq⟩
  cases hm with
  | asigna envio p w y z hp hy hw => exact hsame (prioridad_update hy rfl hq)
  | desaloja envio k pc w p y z hk hw hz hy => exact hsame (prioridad_update hy rfl hq)
  | enviaFin envio k p y hk hy => exact hsame (prioridad_update hy rfl hq)
  | desconectaOcupado envio k w p y z hk hmutex hw hz hy =>
    exact hsame (prioridad_update hy rfl hq)
  | registraQuery envio k path prioridad qid hk =>
    have hqk : q ≠ k := by
      rintro rfl
      exact not_establecida_of_reciente hk trivial (hv q (Option.isSome_of_eq_some hq))
    exact hsame ⟨x, (Function.update_of_ne hqk ..).trans hq, rfl⟩
  | liberaQuery envio k p y hk hy =>
    rw [liberada_hilo hk envio] at hno
    have hqp : q ≠ p := fun h => hno (h ▸ List.mem_singleton_self p)
    exact hsame ⟨x, (Function.update_of_ne hqp ..).trans hq, rfl⟩
  | finDesconexion envio k w p y hk hy =>
    rw [liberada_hilo hk envio] at hno
    have hqp : q ≠ p := fun h => hno (h ▸ List.mem_singleton_self p)
    exact hsame ⟨x, (Function.update_of_ne hqp ..).trans hq, rfl⟩
  | tick envio l hag ha hvivas hl =>
    rw [envejecida, if_pos ha]
    exact envejecer_some s.colaReadyFIFO hq
  | sigint m hm => cases hcorrer
  | _ => exact hsame ⟨x, hq, rfl⟩

/-- READY stays as it is, or it is sorted again. -/
theorem cola_movimiento {t : ℤ} (hm : Movimiento L ⟨.prioridades, t⟩ s e s')
    (hno : mueveReady s e ≠ true) :
    (s'.colaReadyFIFO = s.colaReadyFIFO ∧ envejecida s e = []) ∨
      ∃ l, ordenar L ⟨.prioridades, t⟩ s'.memQueries (s.colaReadyFIFO ++ l) =
        .ok s'.colaReadyFIFO := by
  cases hm with
  | desencola envio q l hp hcola =>
    refine absurd ?_ hno
    simp only [mueveReady, hp]
  | reencola envio q hp =>
    refine absurd ?_ hno
    simp only [mueveReady, hp]
  | encola envio k q v l hk hl => exact Or.inr ⟨[q], hl⟩
  | tick envio l hag ha hvivas hl => exact Or.inr ⟨[], by rw [List.append_nil]; exact hl⟩
  | verificaAging envio d d' ha hd => exact Or.inl ⟨rfl, by rw [envejecida, ha, if_neg (by simp)]⟩
  | _ => exact Or.inl ⟨rfl, rfl⟩

/-- A step, as the list of Workers sees it. -/
inductive PasoFichas (s : Master) (e : Evento) (s' : Master) : Prop
  | igual (hlista : s'.listaWorkersConectados = s.listaWorkersConectados)
    (hmem : s'.memWorkers = s.memWorkers)
  | escribe (h : escribeWorkers s e = true)
  | toma (w : ℕ) (hlibre : obtenerWorkerLibre s = some w)
    (hlista : s'.listaWorkersConectados = s.listaWorkersConectados)
    (hmem : s'.memWorkers = Function.update s.memWorkers w
      ((s.memWorkers w).map fun y => { y with libre := false }))
  | baja (w : ℕ) (hno : (s.memWorkers w).bind Worker.ejecutando = none)
    (hlista : s'.listaWorkersConectados = s.listaWorkersConectados.erase w)
    (hmem : s'.memWorkers = s.memWorkers)
  | termina (q : ℕ) (hq : q ∈ liberada s e) (hej : Ejecutando s q)
  | libera (w : ℕ) (hout : w ∉ s.listaWorkersConectados)
    (hlista : s'.listaWorkersConectados = s.listaWorkersConectados)
    (hmem : s'.memWorkers = Function.update s.memWorkers w none)

theorem escribeWorkers_hilo {k : ℕ} {hl : Hilo} (hk : s.hilos[k]? = some hl)
    (h : escribeFicha hl = true) (envio : Bool) : escribeWorkers s (.hilo k envio) = true := by
  rw [escribeWorkers, hk]
  exact h

theorem pasoFichas_of_movimiento (hs : Fichas s) (hm : Movimiento L cfg s e s') :
    PasoFichas s e s' := by
  cases hm with
  | tomaWorker envio q w hp hmutex hlibre => exact .toma w hlibre rfl rfl
  | asigna envio q w x y hp hq hw =>
    refine .escribe ?_
    simp only [escribeWorkers, hp]
  | altaWorker envio k id hk hmutex => exact .escribe (escribeWorkers_hilo hk rfl envio)
  | desaloja envio k pc w q x y hk hw hy hq =>
    exact .escribe (escribeWorkers_hilo hk rfl envio)
  | termina envio k w q x y hk hq hw => exact .escribe (escribeWorkers_hilo hk rfl envio)
  | registraLibre envio k w t y hk hmutex hw =>
    exact .escribe (escribeWorkers_hilo hk rfl envio)
  | desconectaLibre envio k w y hk hmutex hw hy => exact .baja w (by rw [hw]; exact hy) rfl rfl
  | finDesconexion envio k w q x hk hq =>
    obtain ⟨rfl, hin, y, hw, _, _, hy⟩ := hs.hilos k _ hk
    refine .termina q ?_ ⟨w, hin, by rw [hw]; exact hy⟩
    rw [liberada_hilo hk envio]
    exact List.mem_singleton_self q
  | liberaWorker envio k w hk =>
    obtain ⟨rfl, hout⟩ := hs.hilos k _ hk
    exact .libera w hout rfl rfl
  | _ => exact .igual rfl rfl

/-- A step that leaves the readings of the Workers alone gives no Worker a query. -/
theorem ejecutando_of_paso (h : PasoFichas s e s') (hno : ¬ TocaWorkers s e) {w q : ℕ}
    (hin : w ∈ s'.listaWorkersConectados)
    (hq : (s'.memWorkers w).bind Worker.ejecutando = some q) :
    w ∈ s.listaWorkersConectados ∧ (s.memWorkers w).bind Worker.ejecutando = some q := by
  cases h with
  | igual hlista hmem => exact ⟨hlista ▸ hin, hmem ▸ hq⟩
  | escribe h => exact absurd (Or.inl h) hno
  | toma v hlibre hlista hmem =>
    refine ⟨hlista ▸ hin, ?_⟩
    rw [hmem] at hq
    by_cases hwv : w = v
    · subst hwv
      rw [Function.update_self] at hq
      cases hw : s.memWorkers w with
      | none => simp [hw] at hq
      | some y => simpa [hw] using hq
    · rwa [Function.update_of_ne hwv] at hq
  | baja v hnone hlista hmem => exact ⟨List.mem_of_mem_erase (hlista ▸ hin), hmem ▸ hq⟩
  | termina p hp hej => exact absurd (Or.inr ⟨p, List.mem_append_left _ hp, hej⟩) hno
  | libera v hout hlista hmem =>
    rw [hlista] at hin
    rw [hmem, Function.update_of_ne (ne_of_mem_of_not_mem hin hout)] at hq
    exact ⟨hin, hq⟩

/-- Nor does it take one from a Worker. -/
theorem ejecutando_paso (h : PasoFichas s e s') (hno : ¬ TocaWorkers s e) {w q : ℕ}
    (hin : w ∈ s.listaWorkersConectados)
    (hq : (s.memWorkers w).bind Worker.ejecutando = some q) :
    w ∈ s'.listaWorkersConectados ∧ (s'.memWorkers w).bind Worker.ejecutando = some q := by
  cases h with
  | igual hlista hmem => exact ⟨hlista ▸ hin, hmem ▸ hq⟩
  | escribe h => exact absurd (Or.inl h) hno
  | toma v hlibre hlista hmem =>
    refine ⟨hlista ▸ hin, ?_⟩
    rw [hmem]
    by_cases hwv : w = v
    · subst hwv
      rw [Function.update_self]
      cases hw : s.memWorkers w with
      | none => simp [hw] at hq
      | some y => simpa [hw] using hq
    · rwa [Function.update_of_ne hwv]
  | baja v hnone hlista hmem =>
    have hwv : w ≠ v := by
      rintro rfl
      rw [hnone] at hq
      cases hq
    rw [hlista, hmem]
    exact ⟨(List.mem_erase_of_ne hwv).mpr hin, hq⟩
  | termina p hp hej => exact absurd (Or.inr ⟨p, List.mem_append_left _ hp, hej⟩) hno
  | libera v hout hlista hmem =>
    rw [hlista, hmem, Function.update_of_ne (ne_of_mem_of_not_mem hin hout)]
    exact ⟨hin, hq⟩

theorem obtenerWorkerLibre_eq_none_iff : obtenerWorkerLibre s = none ↔
    ∀ w ∈ s.listaWorkersConectados, (s.memWorkers w).any Worker.libre = false := by
  unfold obtenerWorkerLibre
  rw [List.find?_eq_none]
  simp only [Bool.not_eq_true]

theorem sinLibres_paso (h : PasoFichas s e s') (hno : ¬ TocaWorkers s e)
    (hs : obtenerWorkerLibre s = none) : obtenerWorkerLibre s' = none := by
  cases h with
  | escribe h => exact absurd (Or.inl h) hno
  | toma v hlibre hlista hmem => exact nomatch hs.symm.trans hlibre
  | termina p hp hej => exact absurd (Or.inr ⟨p, List.mem_append_left _ hp, hej⟩) hno
  | igual hlista hmem =>
    rw [obtenerWorkerLibre_eq_none_iff] at hs ⊢
    rwa [hlista, hmem]
  | baja v hnone hlista hmem =>
    rw [obtenerWorkerLibre_eq_none_iff] at hs ⊢
    rw [hlista, hmem]
    exact fun w hw => hs w (List.mem_of_mem_erase hw)
  | libera v hout hlista hmem =>
    rw [obtenerWorkerLibre_eq_none_iff] at hs ⊢
    rw [hlista, hmem]
    intro w hw
    rw [Function.update_of_ne (ne_of_mem_of_not_mem hw hout)]
    exact hs w hw

end Cambios

section Vigencia

theorem legible_of_ordenar {t : ℤ} {m : ℕ → Option Query} {l l' : List ℕ}
    (h : ordenar L ⟨.prioridades, t⟩ m l = .ok l') : Legible m l' := by
  have hperm := ordenar_perm h
  rw [ordenar, if_pos rfl] at h
  split_ifs at h with hleg
  rcases hleg with hlen | hvivas
  · exact Or.inl (hperm.length_eq.trans_le hlen)
  · exact Or.inr fun q hq => hvivas q (hperm.mem_iff.mp hq)

theorem noMayor_of_ordenar {t : ℤ} {m : ℕ → Option Query} {l l' : List ℕ} {h q : ℕ}
    (hl : ordenar L ⟨.prioridades, t⟩ m l = .ok l') (hh : l'.head? = some h) (hq : q ∈ l') :
    NoMayor m h q := by
  obtain ⟨r, rfl⟩ := List.head?_eq_some_iff.mp hh
  rcases List.mem_cons.mp hq with rfl | hr
  · exact Or.inl rfl
  · have hnoantes := (List.pairwise_cons.mp (pairwise_ordenar hl)).1 q hr
    have hpos := List.length_pos_of_mem hr
    rcases legible_of_ordenar hl with hlen | hvivas
    · rw [List.length_cons] at hlen
      omega
    · obtain ⟨x, hx⟩ := Option.isSome_iff_exists.mp (hvivas h (List.mem_cons_self ..))
      obtain ⟨y, hy⟩ := Option.isSome_iff_exists.mp (hvivas q (List.mem_cons_of_mem h hr))
      have hcomp := (compararPrioridad_eq_false_iff y x).mp (hnoantes x y hx hy)
      refine Or.inr ⟨x, y, hx, hy, ?_⟩
      omega

variable {t : ℤ}

theorem enCabeza_movimiento (hv : VivasEstablecidas s) (hcorrer : s'.correr = true)
    (hm : Movimiento L ⟨.prioridades, t⟩ s e s') (hno : ¬ TocaReady s e) {q : ℕ}
    (h : EnCabeza s q) : EnCabeza s' q := by
  obtain ⟨hq, p, hp, hpq⟩ := h
  have hviva : ∀ a ∈ s.colaReadyFIFO, a ∉ liberada s e := fun a ha hlib =>
    hno (Or.inr ⟨a, hlib, ha⟩)
  rcases cola_movimiento hm fun hmueve => hno (Or.inl hmueve) with ⟨hcola, henv⟩ | ⟨l, hl⟩
  · have hnada : ∀ a, a ∉ envejecida s e := fun a => henv ▸ List.not_mem_nil
    rw [EnCabeza, hcola]
    refine ⟨hq, p, hp, ?_⟩
    rcases hpq with rfl | ⟨x, y, hx, hy, hxy⟩
    · exact Or.inl rfl
    · have hpin := List.mem_of_head? hp
      obtain ⟨x', hx', _, hxx⟩ := prioridad_movimiento hv hcorrer hm hx (hviva p hpin)
      obtain ⟨y', hy', _, hyy⟩ := prioridad_movimiento hv hcorrer hm hy (hviva q hq)
      refine Or.inr ⟨x', y', hx', hy', ?_⟩
      rw [hxx (hnada p), hyy (hnada q)]
      exact hxy
  · have hin : q ∈ s'.colaReadyFIFO :=
      (ordenar_perm hl).mem_iff.mpr (List.mem_append_left l hq)
    obtain ⟨b, hb⟩ := Option.ne_none_iff_exists'.mp (mt List.head?_eq_none_iff.mp
      (List.ne_nil_of_mem hin))
    exact ⟨hin, b, hb, noMayor_of_ordenar hl hb hin⟩

theorem peorEn_movimiento (hs : Fichas s) (hv : VivasEstablecidas s) (hcorrer : s'.correr = true)
    (hm : Movimiento L cfg s e s') (hno : ¬ TocaWorkers s e) {q w : ℕ} (h : PeorEn s q w) :
    PeorEn s' q w := by
  have hpaso := pasoFichas_of_movimiento hs hm
  have hqueda : ∀ a, Ejecutando s a → a ∉ liberada s e ∧ a ∉ envejecida s e := fun a ha =>
    ⟨fun hlib => hno (Or.inr ⟨a, List.mem_append_left _ hlib, ha⟩),
      fun henv => hno (Or.inr ⟨a, List.mem_append_right _ henv, ha⟩)⟩
  obtain ⟨hin, hej⟩ := ejecutando_paso hpaso hno h.listado h.ejecuta
  refine ⟨hin, hej, fun a ⟨v, hv', ha⟩ => ?_⟩
  obtain ⟨hvin, hva⟩ := ejecutando_of_paso hpaso hno hv' ha
  have haej : Ejecutando s a := ⟨v, hvin, hva⟩
  rcases h.peor a haej with rfl | ⟨x, y, hx, hy, hxy⟩
  · exact Or.inl rfl
  · obtain ⟨halib, haenv⟩ := hqueda a haej
    obtain ⟨hqlib, hqenv⟩ := hqueda q ⟨w, h.listado, h.ejecuta⟩
    obtain ⟨x', hx', _, hxx⟩ := prioridad_movimiento hv hcorrer hm hx halib
    obtain ⟨y', hy', _, hyy⟩ := prioridad_movimiento hv hcorrer hm hy hqlib
    refine Or.inr ⟨x', y', hx', hy', ?_⟩
    rw [hxx haenv, hyy hqenv]
    exact hxy

/-- The thread has read READY, and will use what it read. -/
def leyoReady : Desalojo → Bool
  | .leerReady => false
  | .comparar _ none => false
  | _ => true

/-- The thread has read the Workers too. -/
def leyoWorkers : Desalojo → Bool
  | .comparar _ (some _) => true
  | .enviar _ _ _ => true
  | _ => false

/-- Steps that leave alone what a thread has read leave it true. -/
theorem leida_movimiento (hs : Fichas s) (hv : VivasEstablecidas s) (hcorrer : s'.correr = true)
    (hm : Movimiento L ⟨.prioridades, t⟩ s e s') {d : Desalojo}
    (hready : leyoReady d = true → ¬ TocaReady s e)
    (hworkers : leyoWorkers d = true → ¬ TocaWorkers s e) (h : Leida s d) : Leida s' d := by
  cases d with
  | leerReady => trivial
  | leerPeor m => exact enCabeza_movimiento hv hcorrer hm (hready rfl) h
  | comparar m peor =>
    cases peor with
    | none => trivial
    | some p =>
      obtain ⟨hcab, hpeor, hlibres⟩ := h
      exact ⟨enCabeza_movimiento hv hcorrer hm (hready rfl) hcab,
        peorEn_movimiento hs hv hcorrer hm (hworkers rfl) hpeor,
        sinLibres_paso (pasoFichas_of_movimiento hs hm) (hworkers rfl) hlibres⟩
  | enviar a w qid =>
    obtain ⟨hpeor, hlibres, m, hcab, x, y, hx, hy, hxy⟩ := h
    have htoca := hworkers rfl
    refine ⟨peorEn_movimiento hs hv hcorrer hm htoca hpeor,
      sinLibres_paso (pasoFichas_of_movimiento hs hm) htoca hlibres, m,
      enCabeza_movimiento hv hcorrer hm (hready rfl) hcab, ?_⟩
    have hmlib : m ∉ liberada s e := fun hlib => hready rfl (Or.inr ⟨m, hlib, hcab.1⟩)
    have haej : Ejecutando s a := ⟨w, hpeor.listado, hpeor.ejecuta⟩
    have halib : a ∉ liberada s e := fun hlib =>
      htoca (Or.inr ⟨a, List.mem_append_left _ hlib, haej⟩)
    have haenv : a ∉ envejecida s e := fun henv =>
      htoca (Or.inr ⟨a, List.mem_append_right _ henv, haej⟩)
    obtain ⟨x', hx', hle, _⟩ := prioridad_movimiento hv hcorrer hm hx hmlib
    obtain ⟨y', hy', _, hyy⟩ := prioridad_movimiento hv hcorrer hm hy halib
    refine ⟨x', y', hx', hy', ?_⟩
    rw [hyy haenv]
    exact hle.trans_lt hxy

/-- A thread inside verificar_desalojo only reads. -/
theorem not_toca_of_etapa {d : Desalojo} (h : etapa s e = some d) :
    ¬ TocaReady s e ∧ ¬ TocaWorkers s e := by
  cases e with
  | aging envio =>
    have ha : s.aging = some d := h
    have henv : envejecida s (.aging envio) = [] := by rw [envejecida, ha, if_neg (by simp)]
    constructor
    · rintro (hmueve | ⟨q, hq, _⟩)
      · cases hmueve
      · exact absurd hq List.not_mem_nil
    · rintro (hescribe | ⟨q, hq, _⟩)
      · cases hescribe
      · rw [henv] at hq
        exact absurd hq List.not_mem_nil
  | hilo k envio =>
    obtain ⟨hl, hk, hd⟩ := Option.bind_eq_some_iff.mp h
    cases hl with
    | verificar d v =>
      constructor
      · rintro (hmueve | ⟨q, hq, _⟩)
        · cases hmueve
        · rw [liberada_hilo hk envio] at hq
          exact absurd hq List.not_mem_nil
      · rintro (hescribe | ⟨q, hq, _⟩)
        · rw [escribeWorkers, hk] at hescribe
          cases hescribe
        · rw [liberada_hilo hk envio] at hq
          exact absurd hq List.not_mem_nil
    | _ => cases hd
  | _ => cases h

/-- What a thread reads in verificar_desalojo is true when it reads it, if no listed Worker
is free when it reads the Workers. -/
theorem leida_verificar (hs : Fichas s) {d d' : Desalojo}
    (hd : verificarDesalojo cfg s d = .ok (some d')) (h : Leida s d)
    (hlibres : ∀ m, d = .leerPeor m → obtenerWorkerLibre s = none) : Leida s d' := by
  cases d with
  | leerReady =>
    simp only [verificarDesalojo] at hd
    split at hd
    · split at hd
      · cases hd
      · rename_i m l hcola
        cases hd
        refine ⟨?_, m, ?_, Or.inl rfl⟩
        · rw [hcola]
          exact List.mem_cons_self ..
        · rw [hcola]
          rfl
    · cases hd
  | leerPeor m =>
    simp only [verificarDesalojo] at hd
    split_ifs at hd
    split at hd
    · rename_i peor hpeor
      cases hd
      cases peor with
      | none => trivial
      | some p => exact ⟨h, peorEn_of_buscarPeor hs hpeor, hlibres m rfl⟩
    · cases hd
  | comparar m peor =>
    cases peor with
    | none => cases hd
    | some p =>
      obtain ⟨a, w⟩ := p
      simp only [verificarDesalojo] at hd
      split at hd
      · rename_i x y hx hy
        split at hd
        · rename_i hlt
          have hmenor : Menor s.memQueries m a := ⟨x, y, hx, hy, hlt⟩
          split at hd
          · cases hd
            exact ⟨h.2.1, h.2.2, m, h.1, hmenor⟩
          · cases hd
        · cases hd
      · cases hd
  | enviar a w qid => cases hd

end Vigencia

end MasterOfFiles.EvictionReads
