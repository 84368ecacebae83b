import MasterOfFiles.QueryHolders

/-!
The records of the listed Workers. A record belongs to one connection, whose thread
alone lists it, removes it and frees it; only the planner writes to it from outside,
between taking it and handing it a query. The invariant says what each thread that is
at work on its record knows of it, and that the planner and the thread never are at
work on the same record.
-/
namespace MasterOfFiles.WorkerRecords

open PartialRuns SortedLists SchedulerState SchedulerSteps SchedulerMoves ReadyQueue QueryHolders

variable {L : ListSort ℕ} {cfg : Config} {s s' : Master} {e : Evento}

section Fichas

/-- What a thread knows of its own record. -/
def HiloFicha (lista : List ℕ) (m : ℕ → Option Worker) (k : ℕ) : Hilo → Prop
  | .atender _ (some w) => w = k ∧ k ∈ lista
  | .recibirFin _ q w => w = k ∧ k ∈ lista ∧
    ∃ y, m k = some y ∧ y.socket = k ∧ y.libre = false ∧ y.ejecutando = some q
  | .registrarLibre w _ => w = k ∧ k ∈ lista ∧
    ∃ y, m k = some y ∧ y.socket = k ∧ y.libre = false ∧ y.ejecutando = none
  | .finDesconexion w q => w = k ∧ k ∈ lista ∧
    ∃ y, m k = some y ∧ y.socket = k ∧ y.libre = false ∧ y.ejecutando = some q
  | .liberarWorker w => w = k ∧ k ∉ lista
  | _ => True

/-- The thread is at work on its record. -/
def Ocupa : Hilo → Prop
  | .recibirFin _ _ _ => True
  | .registrarLibre _ _ => True
  | .finDesconexion _ _ => True
  | _ => False

structure Fichas (s : Master) : Prop where
  nodup : s.listaWorkersConectados.Nodup
  vivas : ∀ w ∈ s.listaWorkersConectados, ∃ y, s.memWorkers w = some y ∧ y.socket = w ∧
    (y.libre = true → y.ejecutando = none)
  establecidas : ∀ w ∈ s.listaWorkersConectados, Establecida s w
  hilos : ∀ (k : ℕ) (hl : Hilo), s.hilos[k]? = some hl →
    HiloFicha s.listaWorkersConectados s.memWorkers k hl
  asignado : ∀ q w, s.planificador = .asignar q w → w ∈ s.listaWorkersConectados →
    (∃ y, s.memWorkers w = some y ∧ y.libre = false ∧ y.ejecutando = none) ∧
      ∀ hl, s.hilos[w]? = some hl → ¬ Ocupa hl
  tomada : ∀ q w, s.planificador = .asignar q w → Establecida s w

theorem fichas_inicial : Fichas inicial where
  nodup := List.nodup_nil
  vivas _ hw := absurd hw List.not_mem_nil
  establecidas _ hw := absurd hw List.not_mem_nil
  hilos _ _ hk := nomatch hk
  asignado _ _ hp := nomatch hp
  tomada _ _ hp := nomatch hp

theorem hiloFicha_of_reciente {lista : List ℕ} {m : ℕ → Option Worker} {k : ℕ} {hl : Hilo}
    (h : Reciente hl) : HiloFicha lista m k hl := by
  cases hl <;> trivial

theorem not_ocupa_of_reciente {hl : Hilo} (h : Reciente hl) : ¬ Ocupa hl := by
  cases hl <;> first | exact id | exact absurd h id

theorem hiloFicha_bucle {lista : List ℕ} {m : ℕ → Option Worker} {k : ℕ} (v : Rol) :
    HiloFicha lista m k (bucle v) := by
  cases v <;> trivial

theorem not_ocupa_bucle (v : Rol) : ¬ Ocupa (bucle v) := by
  cases v <;> exact id

/-- What a thread knows depends on its own entry and its own record only. -/
theorem hiloFicha_congr {lista lista' : List ℕ} {m m' : ℕ → Option Worker} {k : ℕ}
    (hl : k ∈ lista' ↔ k ∈ lista) (hm : m' k = m k) (h : Hilo) :
    HiloFicha lista' m' k h ↔ HiloFicha lista m k h := by
  cases h with
  | atender msg w => cases w <;> simp only [HiloFicha, hl]
  | _ => simp only [HiloFicha, hl, hm]

theorem Fichas.viva (hs : Fichas s) {w : ℕ} {y : Worker} (hw : w ∈ s.listaWorkersConectados)
    (hy : s.memWorkers w = some y) : y.socket = w ∧ (y.libre = true → y.ejecutando = none) := by
  obtain ⟨z, hz, hsocket, hlibre⟩ := hs.vivas w hw
  obtain rfl := Option.some.inj (hy.symm.trans hz)
  exact ⟨hsocket, hlibre⟩

/-- A listed Worker that runs a query is not free. -/
theorem Fichas.ocupado (hs : Fichas s) {w q : ℕ} {y : Worker}
    (hw : w ∈ s.listaWorkersConectados) (hy : s.memWorkers w = some y)
    (hq : y.ejecutando = some q) : y.libre = false := by
  rw [← Bool.not_eq_true]
  intro hlibre
  rw [(hs.viva hw hy).2 hlibre] at hq
  cases hq

theorem mem_of_buscarWorkerPorSocket {socket w : ℕ}
    (h : buscarWorkerPorSocket s socket = some w) : w ∈ s.listaWorkersConectados ∧
      ∃ y, s.memWorkers w = some y ∧ y.socket = socket := by
  unfold buscarWorkerPorSocket at h
  have hfound := List.find?_some h
  obtain ⟨y, hy, hsocket⟩ := (Option.any_eq_true _ _).mp hfound
  refine ⟨List.mem_of_find?_eq_some h, ?_⟩
  exact ⟨y, hy, of_decide_eq_true hsocket⟩

theorem mem_of_obtenerWorkerLibre {w : ℕ} (h : obtenerWorkerLibre s = some w) :
    w ∈ s.listaWorkersConectados ∧ ∃ y, s.memWorkers w = some y ∧ y.libre = true := by
  unfold obtenerWorkerLibre at h
  have hfound := List.find?_some h
  obtain ⟨y, hy, hlibre⟩ := (Option.any_eq_true _ _).mp hfound
  refine ⟨List.mem_of_find?_eq_some h, ?_⟩
  exact ⟨y, hy, hlibre⟩

end Fichas

section Pasos

/-- The planner takes no record in this step. -/
def NoToma (s s' : Master) : Prop :=
  ∀ q w, s'.planificador = .asignar q w → s.planificador = .asignar q w

/-- No connection's thread moves and no record changes. -/
theorem fichas_igual (hs : Fichas s) (hm : Movimiento L cfg s e s')
    (hlista : s'.listaWorkersConectados = s.listaWorkersConectados)
    (hmem : s'.memWorkers = s.memWorkers) (hhilos : s'.hilos = s.hilos)
    (hplan : NoToma s s') : Fichas s' where
  nodup := hlista ▸ hs.nodup
  vivas := by
    rw [hlista, hmem]
    exact hs.vivas
  establecidas w hw := establecida_of_movimiento hm (hs.establecidas w (hlista ▸ hw))
  hilos := by
    rw [hlista, hmem, hhilos]
    exact hs.hilos
  asignado q w hp hw := by
    rw [hmem, hhilos]
    exact hs.asignado q w (hplan q w hp) (hlista ▸ hw)
  tomada q w hp := establecida_of_movimiento hm (hs.tomada q w (hplan q w hp))

theorem fichas_nuevo (hs : Fichas s) (hm : Movimiento L cfg s e s') {hn : Hilo}
    (hr : Reciente hn) (hlista : s'.listaWorkersConectados = s.listaWorkersConectados)
    (hmem : s'.memWorkers = s.memWorkers) (hhilos : s'.hilos = s.hilos ++ [hn])
    (hplan : NoToma s s') : Fichas s' where
  nodup := hlista ▸ hs.nodup
  vivas := by
    rw [hlista, hmem]
    exact hs.vivas
  establecidas w hw := establecida_of_movimiento hm (hs.establecidas w (hlista ▸ hw))
  hilos k hl hk := by
    rw [hlista, hmem]
    rcases hilo_of_append (hhilos ▸ hk) with rfl | hold
    · exact hiloFicha_of_reciente hr
    · exact hs.hilos k hl hold
  asignado q w hp hw := by
    obtain ⟨hy, hocupa⟩ := hs.asignado q w (hplan q w hp) (hlista ▸ hw)
    refine ⟨hmem ▸ hy, fun hl hk => ?_⟩
    rcases hilo_of_append (hhilos ▸ hk) with rfl | hold
    · exact not_ocupa_of_reciente hr
    · exact hocupa hl hold
  tomada q w hp := establecida_of_movimiento hm (hs.tomada q w (hplan q w hp))

/-- A thread moves on, its record unchanged; it starts to work on the record only when
the planner has not taken it. -/
theorem fichas_mueve (hs : Fichas s) (hm : Movimiento L cfg s e s') {k : ℕ} {hl hl' : Hilo}
    (hk : s.hilos[k]? = some hl)
    (hficha : HiloFicha s.listaWorkersConectados s.memWorkers k hl')
    (hocupa : Ocupa hl' → ∀ q, s.planificador ≠ .asignar q k)
    (hlista : s'.listaWorkersConectados = s.listaWorkersConectados)
    (hmem : s'.memWorkers = s.memWorkers) (hhilos : s'.hilos = s.hilos.set k hl')
    (hplan : NoToma s s') : Fichas s' where
  nodup := hlista ▸ hs.nodup
  vivas := by
    rw [hlista, hmem]
    exact hs.vivas
  establecidas w hw := establecida_of_movimiento hm (hs.establecidas w (hlista ▸ hw))
  hilos i hi hih := by
    rw [hlista, hmem]
    rcases hilo_of_set hk (hhilos ▸ hih) with ⟨rfl, rfl⟩ | hold
    · exact hficha
    · exact hs.hilos i hi hold
  asignado q w hp hw := by
    obtain ⟨hy, hlibre⟩ := hs.asignado q w (hplan q w hp) (hlista ▸ hw)
    refine ⟨hmem ▸ hy, fun hi hih hoc => ?_⟩
    rcases hilo_of_set hk (hhilos ▸ hih) with ⟨rfl, rfl⟩ | hold
    · exact hocupa hoc q (hplan q w hp)
    · exact hlibre hi hold hoc
  tomada q w hp := establecida_of_movimiento hm (hs.tomada q w (hplan q w hp))

/-- A thread writes its own record, which the planner has not taken. -/
theorem fichas_escribe (hs : Fichas s) (hm : Movimiento L cfg s e s') {k : ℕ} {hl hl' : Hilo}
    {y : Worker} (hk : s.hilos[k]? = some hl) (hin : k ∈ s.listaWorkersConectados)
    (hsocket : y.socket = k) (hlibre : y.libre = true → y.ejecutando = none)
    (hficha : HiloFicha s.listaWorkersConectados (Function.update s.memWorkers k (some y)) k hl')
    (hlista : s'.listaWorkersConectados = s.listaWorkersConectados)
    (hmem : s'.memWorkers = Function.update s.memWorkers k (some y))
    (hhilos : s'.hilos = s.hilos.set k hl') (hplan : s'.planificador = s.planificador)
    (hno : ∀ q, s.planificador ≠ .asignar q k) : Fichas s' where
  nodup := hlista ▸ hs.nodup
  vivas w hw := by
    rw [hmem]
    by_cases hwk : w = k
    · subst hwk
      exact ⟨y, Function.update_self .., hsocket, hlibre⟩
    · rw [Function.update_of_ne hwk]
      exact hs.vivas w (hlista ▸ hw)
  establecidas w hw := establecida_of_movimiento hm (hs.establecidas w (hlista ▸ hw))
  hilos i hi hih := by
    rw [hlista, hmem]
    by_cases hik : k = i
    · subst hik
      rw [hhilos, List.getElem?_set_self (List.getElem?_eq_some_iff.mp hk).1] at hih
      obtain rfl := Option.some.inj hih
      exact hficha
    · rw [hhilos, List.getElem?_set_ne hik] at hih
      exact (hiloFicha_congr Iff.rfl (Function.update_of_ne (Ne.symm hik) ..) hi).mpr
        (hs.hilos i hi hih)
  asignado q w hp hw := by
    rw [hplan] at hp
    have hwk : w ≠ k := fun h => hno q (h ▸ hp)
    obtain ⟨hy, hoc⟩ := hs.asignado q w hp (hlista ▸ hw)
    rw [hmem, hhilos, Function.update_of_ne hwk, List.getElem?_set_ne (Ne.symm hwk)]
    exact ⟨hy, hoc⟩
  tomada q w hp := establecida_of_movimiento hm (hs.tomada q w (hplan ▸ hp))

/-- A thread takes its record off the list. -/
theorem fichas_baja (hs : Fichas s) (hm : Movimiento L cfg s e s') {k : ℕ} {hl : Hilo}
    (hk : s.hilos[k]? = some hl)
    (hlista : s'.listaWorkersConectados = s.listaWorkersConectados.erase k)
    (hmem : s'.memWorkers = s.memWorkers)
    (hhilos : s'.hilos = s.hilos.set k (.liberarWorker k))
    (hplan : s'.planificador = s.planificador) : Fichas s' where
  nodup := hlista ▸ hs.nodup.erase k
  vivas w hw := by
    rw [hmem]
    exact hs.vivas w (List.mem_of_mem_erase (hlista ▸ hw))
  establecidas w hw :=
    establecida_of_movimiento hm (hs.establecidas w (List.mem_of_mem_erase (hlista ▸ hw)))
  hilos i hi hih := by
    rw [hlista, hmem]
    by_cases hik : k = i
    · subst hik
      rw [hhilos, List.getElem?_set_self (List.getElem?_eq_some_iff.mp hk).1] at hih
      obtain rfl := Option.some.inj hih
      exact ⟨rfl, hs.nodup.not_mem_erase⟩
    · rw [hhilos, List.getElem?_set_ne hik] at hih
      exact (hiloFicha_congr (List.mem_erase_of_ne (Ne.symm hik)) rfl hi).mpr (hs.hilos i hi hih)
  asignado q w hp hw := by
    have hwl : w ∈ s.listaWorkersConectados.erase k := hlista ▸ hw
    have hwk : k ≠ w := fun h => hs.nodup.not_mem_erase (h ▸ hwl)
    obtain ⟨hy, hoc⟩ := hs.asignado q w (hplan ▸ hp) (List.mem_of_mem_erase hwl)
    rw [hmem, hhilos, List.getElem?_set_ne hwk]
    exact ⟨hy, hoc⟩
  tomada q w hp := establecida_of_movimiento hm (hs.tomada q w (hplan ▸ hp))

/-- The planner takes a free record: its thread is not at work on it. -/
theorem fichas_toma (hs : Fichas s) (hm : Movimiento L cfg s e s') {q w : ℕ}
    (hlibre : obtenerWorkerLibre s = some w)
    (hlista : s'.listaWorkersConectados = s.listaWorkersConectados)
    (hmem : s'.memWorkers = Function.update s.memWorkers w
      ((s.memWorkers w).map fun y => { y with libre := false }))
    (hhilos : s'.hilos = s.hilos) (hplan : s'.planificador = .asignar q w) : Fichas s' := by
  obtain ⟨hw, y, hy, hfree⟩ := mem_of_obtenerWorkerLibre hlibre
  obtain ⟨hsocket, hnone⟩ := hs.viva hw hy
  have hself : s'.memWorkers w = some { y with libre := false } := by
    rw [hmem, Function.update_self, hy]
    rfl
  have hother : ∀ v, v ≠ w → s'.memWorkers v = s.memWorkers v := fun v hv => by
    rw [hmem, Function.update_of_ne hv]
  have hno : ∀ hl, s.hilos[w]? = some hl → ¬ Ocupa hl := by
    intro hl hk hoc
    have hficha := hs.hilos w hl hk
    cases hl with
    | recibirFin qid q w =>
      obtain ⟨_, _, z, hz, _, hzlibre, _⟩ := hficha
      obtain rfl := Option.some.inj (hy.symm.trans hz)
      exact Bool.false_ne_true (hzlibre.symm.trans hfree)
    | registrarLibre w t =>
      obtain ⟨_, _, z, hz, _, hzlibre, _⟩ := hficha
      obtain rfl := Option.some.inj (hy.symm.trans hz)
      exact Bool.false_ne_true (hzlibre.symm.trans hfree)
    | finDesconexion w q =>
      obtain ⟨_, _, z, hz, _, hzlibre, _⟩ := hficha
      obtain rfl := Option.some.inj (hy.symm.trans hz)
      exact Bool.false_ne_true (hzlibre.symm.trans hfree)
    | _ => exact hoc
  constructor
  · exact hlista ▸ hs.nodup
  · intro v hv
    by_cases hvw : v = w
    · subst hvw
      exact ⟨_, hself, hsocket, fun _ => hnone hfree⟩
    · rw [hother v hvw]
      exact hs.vivas v (hlista ▸ hv)
  · exact fun v hv => establecida_of_movimiento hm (hs.establecidas v (hlista ▸ hv))
  · intro k hl hk
    have hficha := hs.hilos k hl (hhilos ▸ hk)
    rw [hlista]
    by_cases hkw : k = w
    · subst hkw
      have hnot := hno hl (hhilos ▸ hk)
      cases hl with
      | recibirFin qid q w => exact absurd trivial hnot
      | registrarLibre w t => exact absurd trivial hnot
      | finDesconexion w q => exact absurd trivial hnot
      | atender m o => cases o <;> exact hficha
      | _ => exact hficha
    · exact (hiloFicha_congr Iff.rfl (hother k hkw) hl).mpr hficha
  · intro p v hp hv
    rw [hplan] at hp
    obtain ⟨rfl, rfl⟩ := Planificador.asignar.inj hp
    refine ⟨⟨_, hself, rfl, hnone hfree⟩, ?_⟩
    rw [hhilos]
    exact hno
  · intro p v hp
    rw [hplan] at hp
    obtain ⟨rfl, rfl⟩ := Planificador.asignar.inj hp
    exact establecida_of_movimiento hm (hs.establecidas w hw)

/-- The planner hands a query to the record it has taken. -/
theorem fichas_asigna (hs : Fichas s) (hm : Movimiento L cfg s e s') {q w : ℕ} {y : Worker}
    (hp : s.planificador = .asignar q w) (hw : s.memWorkers w = some y)
    (hlista : s'.listaWorkersConectados = s.listaWorkersConectados)
    (hmem : s'.memWorkers = Function.update s.memWorkers w
      (some { y with ejecutando := some q }))
    (hhilos : s'.hilos = s.hilos) (hplan : ∀ p v, s'.planificador ≠ .asignar p v) : Fichas s' := by
  have hself : s'.memWorkers w = some { y with ejecutando := some q } := by
    rw [hmem, Function.update_self]
  have hother : ∀ v, v ≠ w → s'.memWorkers v = s.memWorkers v := fun v hv => by
    rw [hmem, Function.update_of_ne hv]
  constructor
  · exact hlista ▸ hs.nodup
  · intro v hv
    rw [hlista] at hv
    by_cases hvw : v = w
    · subst hvw
      obtain ⟨⟨z, hz, hlibre, _⟩, _⟩ := hs.asignado q v hp hv
      obtain rfl := Option.some.inj (hw.symm.trans hz)
      refine ⟨_, hself, (hs.viva hv hw).1, fun hfree => ?_⟩
      exact absurd (hlibre.symm.trans hfree) Bool.false_ne_true
    · rw [hother v hvw]
      exact hs.vivas v hv
  · exact fun v hv => establecida_of_movimiento hm (hs.establecidas v (hlista ▸ hv))
  · intro k hl hk
    rw [hhilos] at hk
    have hficha := hs.hilos k hl hk
    rw [hlista]
    by_cases hkw : k = w
    · subst hkw
      cases hl with
      | recibirFin qid p v => exact absurd trivial ((hs.asignado q k hp hficha.2.1).2 _ hk)
      | registrarLibre v t => exact absurd trivial ((hs.asignado q k hp hficha.2.1).2 _ hk)
      | finDesconexion v p => exact absurd trivial ((hs.asignado q k hp hficha.2.1).2 _ hk)
      | atender m o => cases o <;> exact hficha
      | _ => exact hficha
    · exact (hiloFicha_congr Iff.rfl (hother k hkw) hl).mpr hficha
  · exact fun p v hp' _ => absurd hp' (hplan p v)
  · exact fun p v hp' => absurd hp' (hplan p v)

theorem Fichas.nueva (hs : Fichas s) {k id : ℕ} (hk : s.hilos[k]? = some (.altaWorker id)) :
    k ∉ s.listaWorkersConectados := fun hin =>
  not_establecida_of_reciente hk trivial (hs.establecidas k hin)

/-- A connection lists its new record. -/
theorem fichas_alta (hs : Fichas s) (hm : Movimiento L cfg s e s') {k id : ℕ}
    (hk : s.hilos[k]? = some (.altaWorker id))
    (hlista : s'.listaWorkersConectados = s.listaWorkersConectados ++ [k])
    (hmem : s'.memWorkers = Function.update s.memWorkers k (some ⟨k, id, true, none⟩))
    (hhilos : s'.hilos = s.hilos.set k .avisarWorker)
    (hplan : s'.planificador = s.planificador) : Fichas s' := by
  have hnew := hs.nueva hk
  have hother : ∀ v, v ≠ k → s'.memWorkers v = s.memWorkers v := fun v hv => by
    rw [hmem, Function.update_of_ne hv]
  have hmemlista : ∀ v, v ≠ k →
      (v ∈ s'.listaWorkersConectados ↔ v ∈ s.listaWorkersConectados) := fun v hv => by
    rw [hlista, List.mem_append, List.mem_singleton]
    exact or_iff_left hv
  have hset := List.getElem?_set_self (a := Hilo.avisarWorker) (List.getElem?_eq_some_iff.mp hk).1
  constructor
  · rw [hlista]
    simpa [List.nodup_append, hs.nodup] using fun v hv => ne_of_mem_of_not_mem hv hnew
  · intro v hv
    by_cases hvk : v = k
    · subst hvk
      exact ⟨_, by rw [hmem, Function.update_self], rfl, fun _ => rfl⟩
    · rw [hother v hvk]
      exact hs.vivas v ((hmemlista v hvk).mp hv)
  · intro v hv
    by_cases hvk : v = k
    · subst hvk
      exact ⟨.avisarWorker, by rw [hhilos, hset], fun hr => hr⟩
    · exact establecida_of_movimiento hm (hs.establecidas v ((hmemlista v hvk).mp hv))
  · intro i hi hih
    rw [hhilos] at hih
    by_cases hik : i = k
    · subst hik
      obtain rfl := Option.some.inj (hset.symm.trans hih)
      trivial
    · rw [List.getElem?_set_ne (Ne.symm hik)] at hih
      exact (hiloFicha_congr (hmemlista i hik) (hother i hik) hi).mpr (hs.hilos i hi hih)
  · intro q v hp hv
    rw [hplan] at hp
    by_cases hvk : v = k
    · subst hvk
      obtain ⟨hl, hhl, hr⟩ := hs.tomada q v hp
      obtain rfl := Option.some.inj (hk.symm.trans hhl)
      exact absurd trivial hr
    · obtain ⟨hy, hoc⟩ := hs.asignado q v hp ((hmemlista v hvk).mp hv)
      rw [hother v hvk, hhilos, List.getElem?_set_ne (Ne.symm hvk)]
      exact ⟨hy, hoc⟩
  · exact fun q v hp => establecida_of_movimiento hm (hs.tomada q v (hplan ▸ hp))

/-- A connection frees its record, which is off the list. -/
theorem fichas_libera (hs : Fichas s) (hm : Movimiento L cfg s e s') {k : ℕ} {hl : Hilo}
    (hk : s.hilos[k]? = some hl) (hout : k ∉ s.listaWorkersConectados)
    (hlista : s'.listaWorkersConectados = s.listaWorkersConectados)
    (hmem : s'.memWorkers = Function.update s.memWorkers k none)
    (hhilos : s'.hilos = s.hilos.set k .finWorker)
    (hplan : s'.planificador = s.planificador) : Fichas s' := by
  have hother : ∀ v, v ≠ k → s'.memWorkers v = s.memWorkers v := fun v hv => by
    rw [hmem, Function.update_of_ne hv]
  constructor
  · exact hlista ▸ hs.nodup
  · intro v hv
    rw [hlista] at hv
    rw [hother v (ne_of_mem_of_not_mem hv hout)]
    exact hs.vivas v hv
  · exact fun v hv => establecida_of_movimiento hm (hs.establecidas v (hlista ▸ hv))
  · intro i hi hih
    rw [hlista]
    rw [hhilos] at hih
    by_cases hik : i = k
    · subst hik
      rw [List.getElem?_set_self (List.getElem?_eq_some_iff.mp hk).1] at hih
      obtain rfl := Option.some.inj hih
      trivial
    · rw [List.getElem?_set_ne (Ne.symm hik)] at hih
      exact (hiloFicha_congr Iff.rfl (hother i hik) hi).mpr (hs.hilos i hi hih)
  · intro q v hp hv
    rw [hlista] at hv
    have hvk := ne_of_mem_of_not_mem hv hout
    obtain ⟨hy, hoc⟩ := hs.asignado q v (hplan ▸ hp) hv
    rw [hother v hvk, hhilos, List.getElem?_set_ne (Ne.symm hvk)]
    exact ⟨hy, hoc⟩
  · exact fun q v hp => establecida_of_movimiento hm (hs.tomada q v (hplan ▸ hp))

/-- A Worker that runs a query is not the one the planner has taken. -/
theorem Fichas.no_tomada (hs : Fichas s) {w p : ℕ} {y : Worker}
    (hw : w ∈ s.listaWorkersConectados) (hy : s.memWorkers w = some y)
    (hq : y.ejecutando = some p) (q : ℕ) : s.planificador ≠ .asignar q w := by
  intro hp
  obtain ⟨⟨z, hz, _, hnone⟩, _⟩ := hs.asignado q w hp hw
  obtain rfl := Option.some.inj (hy.symm.trans hz)
  rw [hq] at hnone
  cases hnone

theorem Fichas.no_tomada_of_ocupa (hs : Fichas s) {w : ℕ} {hl : Hilo}
    (hw : w ∈ s.listaWorkersConectados) (hk : s.hilos[w]? = some hl) (hoc : Ocupa hl) (q : ℕ) :
    s.planificador ≠ .asignar q w := fun hp => (hs.asignado q w hp hw).2 hl hk hoc

theorem fichas_paso (hs : Fichas s) (hm : Movimiento L cfg s e s') : Fichas s' := by
  have hm' := hm
  cases hm' with
  | conectaQuery path prioridad =>
    have hr : Reciente (.crearQuery path prioridad) := trivial
    exact fichas_nuevo hs hm hr rfl rfl rfl (fun _ _ h => h)
  | conectaWorker id =>
    have hr : Reciente (.altaWorker id) := trivial
    exact fichas_nuevo hs hm hr rfl rfl rfl (fun _ _ h => h)
  | tomaWorker envio q w hp hmutex hlibre => exact fichas_toma hs hm hlibre rfl rfl rfl rfl
  | asigna envio q w x y hp hq hw =>
    exact fichas_asigna hs hm hp hw rfl rfl rfl (fun p v h => nomatch h)
  | envia q w p hp => exact fichas_igual hs hm rfl rfl rfl (fun _ _ h => nomatch h)
  | envioFallido q w p hp => exact fichas_igual hs hm rfl rfl rfl (fun _ _ h => nomatch h)
  | altaWorker envio k id hk hmutex => exact fichas_alta hs hm hk rfl rfl rfl rfl
  | busca envio k m hk =>
    refine fichas_mueve hs hm hk ?_ (fun h => absurd h id) rfl rfl rfl (fun _ _ h => h)
    cases hbusca : buscarWorkerPorSocket s k with
    | none => trivial
    | some w =>
      obtain ⟨hw, y, hy, hsocket⟩ := mem_of_buscarWorkerPorSocket hbusca
      have hwk : w = k := (hs.viva hw hy).1.symm.trans hsocket
      exact ⟨hwk, hwk ▸ hw⟩
  | desaloja envio k pc w q x y hk hw hy hq =>
    obtain ⟨rfl, hin⟩ := hs.hilos k _ hk
    have hlibre := hs.ocupado hin hw hy
    refine fichas_escribe (y := { y with ejecutando := none }) hs hm hk hin (hs.viva hin hw).1
      (fun _ => rfl) ?_ rfl rfl rfl rfl (hs.no_tomada hin hw hy)
    exact ⟨rfl, hin, _, Function.update_self .., (hs.viva hin hw).1, hlibre, rfl⟩
  | esperaFin envio k w q qid y hk hw hy =>
    obtain ⟨rfl, hin⟩ := hs.hilos k _ hk
    refine fichas_mueve hs hm hk ?_ (fun _ => hs.no_tomada hin hw hy) rfl rfl rfl
      (fun _ _ h => h)
    exact ⟨rfl, hin, y, hw, (hs.viva hin hw).1, hs.ocupado hin hw hy, hy⟩
  | termina envio k w q x y hk hq hw =>
    obtain ⟨rfl, hin, z, hz, hsocket, hlibre, _⟩ := hs.hilos k _ hk
    obtain rfl := Option.some.inj (hw.symm.trans hz)
    refine fichas_escribe (y := { y with ejecutando := none }) hs hm hk hin hsocket
      (fun _ => rfl) ?_ rfl rfl rfl rfl (hs.no_tomada_of_ocupa hin hk trivial)
    exact ⟨rfl, hin, _, Function.update_self .., hsocket, hlibre, rfl⟩
  | registraLibre envio k w t y hk hmutex hw =>
    obtain ⟨rfl, hin, z, hz, hsocket, _⟩ := hs.hilos k _ hk
    obtain rfl := Option.some.inj (hw.symm.trans hz)
    refine fichas_escribe (y := { y with libre := true, ejecutando := none }) hs hm hk hin hsocket
      (fun _ => rfl) ?_ rfl rfl rfl rfl (hs.no_tomada_of_ocupa hin hk trivial)
    trivial
  | desconectaLibre envio k w y hk hmutex hw hy =>
    obtain ⟨rfl, hin⟩ := hs.hilos k _ hk
    exact fichas_baja hs hm hk rfl rfl rfl rfl
  | desconectaOcupado envio k w q x y hk hmutex hw hy hq =>
    obtain ⟨rfl, hin⟩ := hs.hilos k _ hk
    refine fichas_mueve hs hm hk ?_ (fun _ => hs.no_tomada hin hw hy) rfl rfl rfl
      (fun _ _ h => h)
    exact ⟨rfl, hin, y, hw, (hs.viva hin hw).1, hs.ocupado hin hw hy, hy⟩
  | finDesconexion envio k w q x hk hq =>
    obtain ⟨rfl, _⟩ := hs.hilos k _ hk
    exact fichas_baja hs hm hk rfl rfl rfl rfl
  | liberaWorker envio k w hk =>
    obtain ⟨rfl, hout⟩ := hs.hilos k _ hk
    exact fichas_libera hs hm hk hout rfl rfl rfl rfl
  | avisaLibre envio k t hk =>
    refine fichas_mueve hs hm hk ?_ (fun h => ?_) rfl rfl rfl (fun _ _ h => h)
    · cases t <;> trivial
    · cases t <;> exact absurd h id
  | terminaVerificar envio k d v hk hd =>
    exact fichas_mueve hs hm hk (hiloFicha_bucle v) (fun h => absurd h (not_ocupa_bucle v))
      rfl rfl rfl (fun _ _ h => h)
  | avisaQuery envio k v hk =>
    refine fichas_mueve hs hm hk ?_ (fun h => ?_) rfl rfl rfl (fun _ _ h => h)
    · split_ifs
      · trivial
      · exact hiloFicha_bucle v
    · split_ifs at h
      · exact absurd h id
      · exact absurd h (not_ocupa_bucle v)
  | _ =>
    -- the planner holds no record, or a thread moves without touching its own
    first
    | exact fichas_igual hs hm rfl rfl rfl (fun _ _ h => by first | exact h | cases h)
    | refine fichas_mueve hs hm (by assumption) ?_ ?_ rfl rfl rfl (fun _ _ h => h)
      · trivial
      · exact fun h => absurd h id

end Pasos

end MasterOfFiles.WorkerRecords
