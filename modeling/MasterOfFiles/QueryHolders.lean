import MasterOfFiles.ListSums
import MasterOfFiles.ReadyQueue

/-!
Who may still run a query: READY, the planner, a Worker's record, or a thread on its
way to READY with it. A query gets in only when its own connection registers it, and
from then on it is handed from one of these to another.
-/
namespace MasterOfFiles.QueryHolders

open PartialRuns SortedLists SchedulerState SchedulerSteps SchedulerMoves ReadyQueue
open ListSums (getElem?_set_cases)

variable {L : ListSort ℕ} {cfg : Config} {s s' : Master} {e : Evento}

section Hilos

/-- The thread has not made its record yet. -/
def Reciente : Hilo → Prop
  | .crearQuery _ _ => True
  | .registrarQuery _ _ _ => True
  | .altaWorker _ => True
  | _ => False

/-- The priority that a thread still carries from its Query Control. -/
def prioridadPedida : Hilo → Option ℤ
  | .crearQuery _ p => some p
  | .registrarQuery _ p _ => some p
  | _ => none

/-- The query that a thread will still put into READY. -/
def porEncolar : Hilo → List ℕ
  | .registrarLibre _ (.desalojada q) => [q]
  | .avisarLibre (.desalojada q) => [q]
  | .encolar q _ => [q]
  | _ => []

/-- The query that a thread is about to finish. -/
def porTerminar : Hilo → List ℕ
  | .recibirFin _ q _ => [q]
  | .registrarLibre _ (.fin q) => [q]
  | .avisarLibre (.fin q) => [q]
  | .enviarFin q => [q]
  | .liberarQuery q => [q]
  | .finDesconexion _ q => [q]
  | _ => []

/-- Some Worker's record says that it runs the query. -/
def Ejecuta (m : ℕ → Option Worker) (q : ℕ) : Prop :=
  ∃ w y, m w = some y ∧ y.ejecutando = some q

/-- A thread goes on without inventing a record, a priority or a query. -/
structure Sigue (m : ℕ → Option Worker) (hl hl' : Hilo) : Prop where
  establecido : ¬ Reciente hl → ¬ Reciente hl'
  pedida : ∀ p, prioridadPedida hl' = some p → prioridadPedida hl = some p
  encola : ∀ q ∈ porEncolar hl', q ∈ porEncolar hl ∨ Ejecuta m q
  termina : ∀ q ∈ porTerminar hl', q ∈ porTerminar hl ∨ Ejecuta m q
  sigue : hl' ≠ .finQuery

theorem sigue_of_vacio {m : ℕ → Option Worker} {hl hl' : Hilo} (hr : ¬ Reciente hl')
    (hp : prioridadPedida hl' = none) (he : porEncolar hl' = []) (ht : porTerminar hl' = [])
    (hf : hl' ≠ .finQuery) : Sigue m hl hl' where
  establecido _ := hr
  pedida p h := by
    rw [hp] at h
    cases h
  encola q h := by
    rw [he] at h
    exact absurd h List.not_mem_nil
  termina q h := by
    rw [ht] at h
    exact absurd h List.not_mem_nil
  sigue := hf

theorem sigue_bucle {m : ℕ → Option Worker} {hl : Hilo} (v : Rol) : Sigue m hl (bucle v) := by
  cases v with
  | query => exact sigue_of_vacio id rfl rfl rfl (by simp [bucle])
  | worker => exact sigue_of_vacio id rfl rfl rfl (by simp [bucle])

theorem sigue_tramite {m : ℕ → Option Worker} {w : ℕ} (t : Tramite) :
    Sigue m (.registrarLibre w t) (.avisarLibre t) where
  establecido _ := id
  pedida _ := id
  encola q h := by cases t <;> exact Or.inl h
  termina q h := by cases t <;> exact Or.inl h
  sigue := by simp

theorem sigue_continuar {m : ℕ → Option Worker} (t : Tramite) :
    Sigue m (.avisarLibre t) (continuar t) where
  establecido _ := by cases t <;> exact id
  pedida p h := by cases t <;> exact h
  encola q h := by cases t <;> exact Or.inl h
  termina q h := by cases t <;> exact Or.inl h
  sigue := by cases t <;> simp [continuar]

/-- A thread that takes a query from a Worker's record. -/
theorem sigue_of_ejecuta {m : ℕ → Option Worker} {hl hl' : Hilo} {q : ℕ} (hq : Ejecuta m q)
    (hr : ¬ Reciente hl') (hp : prioridadPedida hl' = none) (he : ∀ p ∈ porEncolar hl', p = q)
    (ht : ∀ p ∈ porTerminar hl', p = q) (hf : hl' ≠ .finQuery) : Sigue m hl hl' where
  establecido _ := hr
  pedida p h := by
    rw [hp] at h
    cases h
  encola p h := Or.inr (he p h ▸ hq)
  termina p h := Or.inr (ht p h ▸ hq)
  sigue := hf

/-- At most one thread moves. A new one starts without a record; a query appears
where its own connection registers it, and a Query Control leaves by closing. -/
inductive PasoHilos (s : Master) (e : Evento) (s' : Master) : Prop
  | igual (h : s'.hilos = s.hilos)
  | nuevo (hl : Hilo) (hr : Reciente hl)
    (hp : ∀ p, prioridadPedida hl = some p → ∃ path, e = .conectaQuery path p)
    (h : s'.hilos = s.hilos ++ [hl])
  | mueve (k : ℕ) (hl hl' : Hilo) (hk : s.hilos[k]? = some hl)
    (hs : Sigue s.memWorkers hl hl') (h : s'.hilos = s.hilos.set k hl')
  | registra (k : ℕ) (path : ByteBuffers.Bytes) (prioridad : ℤ) (qid : ℕ)
    (hk : s.hilos[k]? = some (.registrarQuery path prioridad qid))
    (hact : s'.queriesActivas = s.queriesActivas ++ [k])
    (h : s'.hilos = s.hilos.set k (.encolar k .query))
  | desconecta (k : ℕ) (hk : s.hilos[k]? = some .bucleQuery) (he : e = .mensaje k .desconexion)
    (h : s'.hilos = s.hilos.set k .finQuery)

theorem pasoHilos_of_movimiento (h : Movimiento L cfg s e s') : PasoHilos s e s' := by
  cases h with
  | conectaQuery path prioridad =>
    refine .nuevo (.crearQuery path prioridad) trivial (fun p hp => ?_) rfl
    exact ⟨path, by rw [Option.some.inj hp]⟩
  | conectaWorker id => exact .nuevo (.altaWorker id) trivial (fun _ hp => nomatch hp) rfl
  | desconectaQc k hk => exact .desconecta k hk rfl rfl
  | registraQuery envio k path prioridad qid hk => exact .registra k path prioridad qid hk rfl rfl
  | creaQuery envio k path prioridad hk =>
    have hs : Sigue s.memWorkers (.crearQuery path prioridad)
        (.registrarQuery path prioridad s.nextQid) := by
      refine ⟨fun hr => absurd trivial hr, fun _ hp => hp, fun q hq => ?_, fun q hq => ?_, by simp⟩
      · exact absurd hq List.not_mem_nil
      · exact absurd hq List.not_mem_nil
    exact .mueve k _ _ hk hs rfl
  | desaloja envio k pc w q x y hk hw hy hq =>
    have hs : Sigue s.memWorkers (.atender (.queryDesalojada x.qid pc) (some w))
        (.registrarLibre w (.desalojada q)) := sigue_of_ejecuta ⟨w, y, hw, hy⟩ id rfl
      (fun p hp => List.mem_singleton.mp hp) (fun p hp => absurd hp List.not_mem_nil) (by simp)
    exact .mueve k _ _ hk hs rfl
  | esperaFin envio k w q qid y hk hw hy =>
    have hs : Sigue s.memWorkers (.atender (.finQuery qid) (some w)) (.recibirFin qid q w) :=
      sigue_of_ejecuta ⟨w, y, hw, hy⟩ id rfl
      (fun p hp => absurd hp List.not_mem_nil) (fun p hp => List.mem_singleton.mp hp) (by simp)
    exact .mueve k _ _ hk hs rfl
  | desconectaOcupado envio k w q x y hk hmutex hw hy hq =>
    have hs : Sigue s.memWorkers (.atender .desconexion (some w)) (.finDesconexion w q) :=
      sigue_of_ejecuta ⟨w, y, hw, hy⟩ id rfl
      (fun p hp => absurd hp List.not_mem_nil) (fun p hp => List.mem_singleton.mp hp) (by simp)
    exact .mueve k _ _ hk hs rfl
  | termina envio k w q x y hk hq hw =>
    have hs : Sigue s.memWorkers (.recibirFin (some x.qid) q w) (.registrarLibre w (.fin q)) :=
      ⟨fun _ => id, fun _ hp => hp, fun _ hp => Or.inl hp, fun _ hp => Or.inl hp, by simp⟩
    exact .mueve k _ _ hk hs rfl
  | enviaFin envio k q x hk hq =>
    have hs : Sigue s.memWorkers (.enviarFin q) (.liberarQuery q) :=
      ⟨fun _ => id, fun _ hp => hp, fun _ hp => Or.inl hp, fun _ hp => Or.inl hp, by simp⟩
    exact .mueve k _ _ hk hs rfl
  | registraLibre envio k w t y hk hmutex hw => exact .mueve k _ _ hk (sigue_tramite t) rfl
  | avisaLibre envio k t hk => exact .mueve k _ _ hk (sigue_continuar t) rfl
  | terminaVerificar envio k d v hk hd => exact .mueve k _ _ hk (sigue_bucle v) rfl
  | avisaQuery envio k v hk =>
    refine .mueve k _ _ hk ?_ rfl
    split_ifs
    · exact sigue_of_vacio id rfl rfl rfl (by simp)
    · exact sigue_bucle v
  | _ =>
    -- no connection's thread moves, or it moves on with no query in its hands
    first
    | exact .igual rfl
    | refine .mueve _ _ _ (by assumption) ?_ rfl
      exact sigue_of_vacio id rfl rfl rfl (by simp)

/-- The connection has made its record. -/
def Establecida (s : Master) (k : ℕ) : Prop := ∃ h, s.hilos[k]? = some h ∧ ¬ Reciente h

theorem not_establecida_of_reciente {k : ℕ} {hl : Hilo} (hk : s.hilos[k]? = some hl)
    (hr : Reciente hl) : ¬ Establecida s k := by
  rintro ⟨hl', hhl, hno⟩
  obtain rfl := Option.some.inj (hk.symm.trans hhl)
  exact hno hr

/-- A thread after a step is an old one, a new one, or the one that moved. -/
theorem hilo_of_set {l : List Hilo} {k i : ℕ} {hl hl' h : Hilo} (hk : l[k]? = some hl)
    (hi : (l.set k hl')[i]? = some h) : (i = k ∧ h = hl') ∨ l[i]? = some h :=
  (getElem?_set_cases hk hi).imp_right And.right

theorem hilo_of_append {l : List Hilo} {i : ℕ} {hn h : Hilo}
    (hi : (l ++ [hn])[i]? = some h) : h = hn ∨ l[i]? = some h := by
  rw [List.getElem?_append] at hi
  split_ifs at hi
  · exact Or.inr hi
  · rw [List.getElem?_singleton] at hi
    split_ifs at hi
    exact Or.inl (Option.some.inj hi).symm

theorem establecida_of_set {k i : ℕ} {hl hl' : Hilo} (hi : Establecida s i)
    (hk : s.hilos[k]? = some hl) (hr : ¬ Reciente hl → ¬ Reciente hl')
    (heq : s'.hilos = s.hilos.set k hl') : Establecida s' i := by
  obtain ⟨h, hh, hrec⟩ := hi
  by_cases hik : k = i
  · subst hik
    obtain rfl := Option.some.inj (hk.symm.trans hh)
    refine ⟨hl', ?_, hr hrec⟩
    rw [heq, List.getElem?_set_self (List.getElem?_eq_some_iff.mp hk).1]
  · exact ⟨h, by rw [heq, List.getElem?_set_ne hik]; exact hh, hrec⟩

theorem establecida_of_movimiento (h : Movimiento L cfg s e s') {k : ℕ}
    (hk : Establecida s k) : Establecida s' k := by
  cases pasoHilos_of_movimiento h with
  | igual heq =>
    rw [Establecida, heq]
    exact hk
  | nuevo hn hrn hpn heq =>
    obtain ⟨hl, hhl, hr⟩ := hk
    have hlt := (List.getElem?_eq_some_iff.mp hhl).1
    exact ⟨hl, by rw [heq, List.getElem?_append_left hlt]; exact hhl, hr⟩
  | mueve i hi hi' hhi hs heq => exact establecida_of_set hk hhi hs.establecido heq
  | registra i path prioridad qid hi hact heq => exact establecida_of_set hk hi (fun _ => id) heq
  | desconecta i hi he heq => exact establecida_of_set hk hi (fun _ => id) heq

end Hilos

section EnCurso

/-- The query may still be sent to a Worker. -/
inductive EnCurso (s : Master) (q : ℕ) : Prop
  | cola (h : q ∈ s.colaReadyFIFO)
  | planificador (h : q ∈ retenida s.planificador)
  | worker (h : Ejecuta s.memWorkers q)
  | hilo (k : ℕ) (hl : Hilo) (hk : s.hilos[k]? = some hl) (h : q ∈ porEncolar hl)

theorem ordenar_perm {m : ℕ → Option Query} {l l' : List ℕ}
    (h : ordenar L cfg m l = .ok l') : l'.Perm l := by
  unfold ordenar at h
  split_ifs at h
  · cases h
    exact L.perm _ l
  · cases h
    exact List.Perm.refl _

theorem enCurso_of_agregada {q : ℕ} (h : q ∈ agregada s e) : EnCurso s q := by
  unfold agregada at h
  split at h
  · split at h
    · rename_i k _ _ p v hk
      exact .hilo k _ hk h
    · exact absurd h List.not_mem_nil
  · exact absurd h List.not_mem_nil

theorem enCurso_of_mem_cola (h : Movimiento L cfg s e s') {q : ℕ}
    (hq : q ∈ s'.colaReadyFIFO) : EnCurso s q := by
  cases pasoCola_of_movimiento h with
  | quieta hcola hret hclaves hagrega henvia => exact .cola (hcola ▸ hq)
  | registra k x path prioridad qid hk hx hcola hret hmem hagrega henvia =>
    exact .cola (hcola ▸ hq)
  | agrega p hcola hret hmem hagrega henvia =>
    rcases List.mem_append.mp ((ordenar_perm hcola).mem_iff.mp hq) with hold | hnew
    · exact .cola hold
    · exact enCurso_of_agregada (hagrega ▸ hnew)
  | saca p hcola hret hret' hmem hagrega henvia =>
    exact .cola (hcola ▸ List.mem_cons_of_mem p hq)
  | envia p hcola hret hret' hmem hagrega henvia => exact .cola (hcola ▸ hq)
  | repone p he hp hcola hret' hmem hagrega henvia =>
    rw [hcola] at hq
    rcases List.mem_cons.mp hq with rfl | hold
    · exact .planificador (hp ▸ List.mem_singleton_self q)
    · exact .cola hold
  | envejece hag hvivas hcola hret hmem hagrega henvia =>
    exact .cola ((ordenar_perm hcola).mem_iff.mp hq)

theorem enCurso_of_mem_retenida (h : Movimiento L cfg s e s') {q : ℕ}
    (hq : q ∈ retenida s'.planificador) : EnCurso s q := by
  cases pasoCola_of_movimiento h with
  | quieta hcola hret hclaves hagrega henvia => exact .planificador (hret ▸ hq)
  | registra k x path prioridad qid hk hx hcola hret hmem hagrega henvia =>
    exact .planificador (hret ▸ hq)
  | agrega p hcola hret hmem hagrega henvia => exact .planificador (hret ▸ hq)
  | saca p hcola hret hret' hmem hagrega henvia =>
    rw [hret', List.mem_singleton] at hq
    exact .cola (hcola ▸ hq ▸ List.mem_cons_self ..)
  | envia p hcola hret hret' hmem hagrega henvia => exact absurd (hret' ▸ hq) List.not_mem_nil
  | repone p he hp hcola hret' hmem hagrega henvia => exact absurd (hret' ▸ hq) List.not_mem_nil
  | envejece hag hvivas hcola hret hmem hagrega henvia => exact .planificador (hret ▸ hq)

theorem ejecuta_of_update {m : ℕ → Option Worker} {w q : ℕ} {o : Option Worker}
    (h : Ejecuta (Function.update m w o) q) :
    Ejecuta m q ∨ ∃ y, o = some y ∧ y.ejecutando = some q := by
  obtain ⟨v, y, hv, hy⟩ := h
  by_cases hvw : v = w
  · subst hvw
    rw [Function.update_self] at hv
    exact Or.inr ⟨y, hv, hy⟩
  · rw [Function.update_of_ne hvw] at hv
    exact Or.inl ⟨v, y, hv, hy⟩

/-- A record written without a query makes no query run. -/
theorem ejecuta_of_update_none {m : ℕ → Option Worker} {w q : ℕ} {y : Worker}
    (hy : y.ejecutando = none) (h : Ejecuta (Function.update m w (some y)) q) : Ejecuta m q := by
  rcases ejecuta_of_update h with hold | ⟨z, hz, hq⟩
  · exact hold
  · obtain rfl := Option.some.inj hz
    rw [hy] at hq
    cases hq

theorem enCurso_of_ejecuta (h : Movimiento L cfg s e s') {q : ℕ}
    (hq : Ejecuta s'.memWorkers q) : EnCurso s q := by
  cases h with
  | tomaWorker envio p w hp hmutex hlibre =>
    rcases ejecuta_of_update hq with hold | ⟨y, hy, hyq⟩
    · exact .worker hold
    · obtain ⟨z, hz, rfl⟩ := Option.map_eq_some_iff.mp hy
      exact .worker ⟨w, z, hz, hyq⟩
  | asigna envio p w x y hp hx hy =>
    rcases ejecuta_of_update hq with hold | ⟨z, hz, hzq⟩
    · exact .worker hold
    · obtain rfl := Option.some.inj hz
      obtain rfl := Option.some.inj hzq
      exact .planificador (hp ▸ List.mem_singleton_self p)
  | altaWorker envio k id hk hmutex => exact .worker (ejecuta_of_update_none rfl hq)
  | desaloja envio k pc w p x y hk hw hy hp => exact .worker (ejecuta_of_update_none rfl hq)
  | termina envio k w p x y hk hp hw => exact .worker (ejecuta_of_update_none rfl hq)
  | registraLibre envio k w t y hk hmutex hw => exact .worker (ejecuta_of_update_none rfl hq)
  | liberaWorker envio k w hk =>
    rcases ejecuta_of_update hq with hold | ⟨y, hy, _⟩
    · exact .worker hold
    · cases hy
  | _ => exact .worker hq

/-- A query is in course after a step only if it was before, or if it is registered
in that step by its own connection. -/
theorem enCurso_of_movimiento (h : Movimiento L cfg s e s') {q : ℕ} (hq : EnCurso s' q) :
    EnCurso s q ∨ (∃ path prioridad qid,
      s.hilos[q]? = some (.registrarQuery path prioridad qid)) ∧
        s'.hilos[q]? = some (.encolar q .query) ∧ q ∈ s'.queriesActivas := by
  cases hq with
  | cola hq => exact Or.inl (enCurso_of_mem_cola h hq)
  | planificador hq => exact Or.inl (enCurso_of_mem_retenida h hq)
  | worker hq => exact Or.inl (enCurso_of_ejecuta h hq)
  | hilo i hl hi hq =>
    cases pasoHilos_of_movimiento h with
    | igual heq => exact Or.inl (.hilo i hl (heq ▸ hi) hq)
    | nuevo hn hr hpn heq =>
      rcases hilo_of_append (heq ▸ hi) with rfl | hold
      · cases hl <;> first | exact absurd hq List.not_mem_nil | exact absurd hr id
      · exact Or.inl (.hilo i hl hold hq)
    | mueve k hk hk' hkh hs heq =>
      rcases hilo_of_set hkh (heq ▸ hi) with ⟨rfl, rfl⟩ | hold
      · rcases hs.encola q hq with hold | hej
        · exact Or.inl (.hilo i hk hkh hold)
        · exact Or.inl (.worker hej)
      · exact Or.inl (.hilo i hl hold hq)
    | registra k path prioridad qid hk hact heq =>
      rcases hilo_of_set hk (heq ▸ hi) with ⟨rfl, rfl⟩ | hold
      · obtain rfl := List.mem_singleton.mp hq
        exact Or.inr ⟨⟨path, prioridad, qid, hk⟩, hi, by simp [hact]⟩
      · exact Or.inl (.hilo i hl hold hq)
    | desconecta k hk he heq =>
      rcases hilo_of_set hk (heq ▸ hi) with ⟨rfl, rfl⟩ | hold
      · exact absurd hq List.not_mem_nil
      · exact Or.inl (.hilo i hl hold hq)

/-- Only queries whose connection has registered them are in course. -/
def Registradas (s : Master) : Prop := ∀ q, EnCurso s q → Establecida s q

theorem registradas_inicial : Registradas inicial := by
  intro q hq
  cases hq with
  | cola h => exact absurd h List.not_mem_nil
  | planificador h => exact absurd h List.not_mem_nil
  | worker h =>
    obtain ⟨w, y, hw, _⟩ := h
    cases hw
  | hilo k hl hk h => cases hk

theorem registradas_paso (hs : Registradas s) (h : Movimiento L cfg s e s') :
    Registradas s' := by
  intro q hq
  rcases enCurso_of_movimiento h hq with hold | ⟨_, hnew, _⟩
  · exact establecida_of_movimiento h (hs q hold)
  · exact ⟨_, hnew, id⟩

end EnCurso

section Ejemplo

/-- A query is dispatched to a Worker, which reports its end and stays. -/
def corridaTerminada : List Evento :=
  [.conectaQuery [] 0, .hilo 0 true, .hilo 0 true, .hilo 0 true, .hilo 0 true,
    .conectaWorker 7, .hilo 1 true, .hilo 1 true, .planificador true, .planificador true,
    .planificador true, .planificador true, .planificador true, .planificador true,
    .mensaje 1 (.finQuery (some 0)), .hilo 1 true, .hilo 1 true, .hilo 1 true, .hilo 1 true,
    .hilo 1 true, .hilo 1 true, .hilo 1 true]

end Ejemplo

end MasterOfFiles.QueryHolders
