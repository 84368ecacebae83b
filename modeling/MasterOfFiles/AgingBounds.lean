import MasterOfFiles.PriorityOrder

/-!
Aging bounds overtaking. A tick takes one from every positive priority in READY, so
a query that stays there long enough is at zero, and among the queries at zero the
oldest comes first. Again the planner's reinsertion is the only step that can put a
newer query in front of it.
-/
namespace MasterOfFiles.AgingBounds

open PartialRuns RunTraces SortedLists SchedulerState SchedulerSteps SchedulerMoves ReadyQueue
open QueryHolders PriorityOrder

variable {L : ListSort ℕ} {cfg : Config} {s s' : Master} {e : Evento}

section Ticks

/-- aging_ready wakes up and goes over READY in this step. -/
def esTick (s : Master) : Evento → Bool
  | .aging _ => s.aging.isNone
  | _ => false

/-- The ticks of a run. -/
def ticks (L : ListSort ℕ) (cfg : Config) (s : Master) (xs : List Evento) : ℕ :=
  (outputs (paso L cfg) (fun s e => if esTick s e then [()] else []) s xs).length

theorem ticks_cons {xs : List Evento} (h : paso L cfg s e = .ok s') :
    ticks L cfg s (e :: xs) = (if esTick s e then 1 else 0) + ticks L cfg s' xs := by
  unfold ticks
  rw [outputs_cons xs h, List.length_append]
  split_ifs <;> rfl

/-- What a pass of aging_ready may do to a query. -/
structure Envejecida (x x' : Query) : Prop where
  qid : x'.qid = x.qid
  le : x'.prioridad ≤ x.prioridad
  nonneg : 0 ≤ x.prioridad → 0 ≤ x'.prioridad

theorem Envejecida.refl (x : Query) : Envejecida x x := ⟨rfl, le_refl _, id⟩

theorem Envejecida.trans {x y z : Query} (h : Envejecida x y) (h' : Envejecida y z) :
    Envejecida x z :=
  ⟨h'.qid.trans h.qid, h'.le.trans h.le, fun hx => h'.nonneg (h.nonneg hx)⟩

theorem envejecida_bajarPrioridad (x : Query) : Envejecida x (bajarPrioridad x) := by
  unfold bajarPrioridad
  split_ifs with hpos
  · refine ⟨rfl, ?_, fun _ => ?_⟩ <;> simp only <;> omega
  · exact .refl x

theorem bajarPrioridad_le (x : Query) :
    (bajarPrioridad x).prioridad ≤ max 0 (x.prioridad - 1) := by
  unfold bajarPrioridad
  split_ifs with hpos
  · exact le_max_right ..
  · omega

theorem envejecida_envejecer {m : ℕ → Option Query} {l : List ℕ} {q : ℕ} {x' : Query}
    (h : envejecer m l q = some x') : ∃ x, m q = some x ∧ Envejecida x x' ∧
      (q ∈ l → x'.prioridad ≤ max 0 (x.prioridad - 1)) := by
  induction l generalizing m with
  | nil => exact ⟨x', h, .refl x', fun hq => absurd hq List.not_mem_nil⟩
  | cons a l ih =>
    obtain ⟨z, hz, hzx, hbound⟩ := ih h
    by_cases hqa : q = a
    · subst hqa
      simp only [Function.update_self] at hz
      obtain ⟨x, hx, rfl⟩ := Option.map_eq_some_iff.mp hz
      refine ⟨x, hx, (envejecida_bajarPrioridad x).trans hzx, fun _ => ?_⟩
      exact hzx.le.trans (bajarPrioridad_le x)
    · simp only [Function.update_of_ne hqa] at hz
      refine ⟨z, hz, hzx, fun hq => hbound ?_⟩
      exact (List.mem_cons.mp hq).resolve_left hqa

theorem memQueries_of_tick (ht : esTick s e = true) (h : paso L cfg s e = .ok s') :
    s'.memQueries = envejecer s.memQueries s.colaReadyFIFO := by
  cases e with
  | aging envio =>
    have hnone : s.aging = none := Option.isNone_iff_eq_none.mp ht
    cases (movimiento_of_paso h).2 with
    | tick envio l hag ha hvivas hl => rfl
    | verificaAging envio d d' ha hd =>
      rw [hnone] at ha
      cases ha
  | _ => cases ht

end Ticks

section Prioridades

/-- A query that was there before a step keeps its qid, and its priority does not grow. -/
theorem envejecida_paso (h : paso L cfg s e = .ok s') {q : ℕ} {x' : Query}
    (hq : s'.memQueries q = some x') : (∃ x, s.memQueries q = some x ∧ Envejecida x x') ∨
      ∃ path p qid, s.hilos[q]? = some (.registrarQuery path p qid) ∧ x'.prioridad = p := by
  cases pasoCola_of_movimiento (movimiento_of_paso h).2 with
  | quieta hcola hret hclaves hagrega henvia =>
    obtain ⟨x, hx, hqid, hp⟩ := hclaves q x' hq
    exact Or.inl ⟨x, hx, hqid, hp.le, fun hx0 => hp ▸ hx0⟩
  | registra k x path prioridad qid hk hx hcola hret hmem hagrega henvia =>
    rw [hmem] at hq
    by_cases hqk : q = k
    · subst hqk
      rw [Function.update_self] at hq
      obtain rfl := Option.some.inj hq
      exact Or.inr ⟨path, prioridad, qid, hk, by rw [hx]; rfl⟩
    · rw [Function.update_of_ne hqk] at hq
      exact Or.inl ⟨x', hq, .refl x'⟩
  | envejece hag hvivas hcola hret hmem hagrega henvia =>
    rw [hmem] at hq
    obtain ⟨x, hx, hxx, _⟩ := envejecida_envejecer hq
    exact Or.inl ⟨x, hx, hxx⟩
  | agrega p hcola hret hmem hagrega henvia => exact Or.inl ⟨x', hmem ▸ hq, .refl x'⟩
  | saca p hcola hret hret' hmem hagrega henvia => exact Or.inl ⟨x', hmem ▸ hq, .refl x'⟩
  | envia p hcola hret hret' hmem hagrega henvia => exact Or.inl ⟨x', hmem ▸ hq, .refl x'⟩
  | repone p he hp hcola hret' hmem hagrega henvia => exact Or.inl ⟨x', hmem ▸ hq, .refl x'⟩

/-- No Query Control asks for a negative priority. -/
def PideNoNegativa : Evento → Prop
  | .conectaQuery _ p => 0 ≤ p
  | _ => True

/-- No query has a negative priority, nor does one on its way in. -/
structure NoNegativas (s : Master) : Prop where
  queries : ∀ q x, s.memQueries q = some x → 0 ≤ x.prioridad
  hilos : ∀ (k : ℕ) (hl : Hilo) (p : ℤ), s.hilos[k]? = some hl → prioridadPedida hl = some p → 0 ≤ p

theorem noNegativas_inicial : NoNegativas inicial :=
  ⟨fun _ _ h => (nomatch h), fun _ _ _ h => (nomatch h)⟩

theorem noNegativas_paso (hs : NoNegativas s) (he : PideNoNegativa e)
    (h : paso L cfg s e = .ok s') : NoNegativas s' := by
  constructor
  · intro q x' hq
    rcases envejecida_paso h hq with ⟨x, hx, hxx⟩ | ⟨path, p, qid, hk, hp⟩
    · exact hxx.nonneg (hs.queries q x hx)
    · exact hp ▸ hs.hilos q _ p hk rfl
  · intro i hl p hi hp
    cases pasoHilos_of_movimiento (movimiento_of_paso h).2 with
    | igual heq => exact hs.hilos i hl p (heq ▸ hi) hp
    | nuevo hn hr hpn heq =>
      rcases hilo_of_append (heq ▸ hi) with rfl | hold
      · obtain ⟨path, rfl⟩ := hpn p hp
        exact he
      · exact hs.hilos i hl p hold hp
    | mueve k hk hk' hkh hsig heq =>
      rcases hilo_of_set hkh (heq ▸ hi) with ⟨rfl, rfl⟩ | hold
      · exact hs.hilos i hk p hkh (hsig.pedida p hp)
      · exact hs.hilos i hl p hold hp
    | registra k path prioridad qid hk hact heq =>
      rcases hilo_of_set hk (heq ▸ hi) with ⟨rfl, rfl⟩ | hold
      · cases hp
      · exact hs.hilos i hl p hold hp
    | desconecta k hk hek heq =>
      rcases hilo_of_set hk (heq ▸ hi) with ⟨rfl, rfl⟩ | hold
      · cases hp
      · exact hs.hilos i hl p hold hp

end Prioridades

section Espera

/-- In a step that finds a query in READY its priority does not grow, and a tick
takes one off unless it is at zero. -/
theorem prioridad_paso (hr : Registradas s) (h : paso L cfg s e = .ok s') {q : ℕ} {x' : Query}
    (hcola : q ∈ s.colaReadyFIFO) (hq : s'.memQueries q = some x') :
    ∃ x, s.memQueries q = some x ∧ Envejecida x x' ∧
      (esTick s e = true → x'.prioridad ≤ max 0 (x.prioridad - 1)) := by
  by_cases ht : esTick s e = true
  · rw [memQueries_of_tick ht h] at hq
    obtain ⟨x, hx, hxx, hle⟩ := envejecida_envejecer hq
    exact ⟨x, hx, hxx, fun _ => hle hcola⟩
  · rcases envejecida_paso h hq with ⟨x, hx, hxx⟩ | ⟨path, p, qid, hk, _⟩
    · exact ⟨x, hx, hxx, fun ht' => absurd ht' ht⟩
    · exact absurd (.cola hcola) (notMem_cola_of_registra hr hk)

/-- A query that stays in READY has lost as many points as there were ticks, unless
it ran out of them. -/
theorem prioridad_run (hr : Registradas s) {zs : List Evento}
    (hrun : run (paso L cfg) s zs = .ok s') {q : ℕ}
    (hcola : AlongRun (paso L cfg) (fun v => q ∈ v.colaReadyFIFO) s zs) {x' : Query}
    (hq : s'.memQueries q = some x') : ∃ x, s.memQueries q = some x ∧ x'.qid = x.qid ∧
      x'.prioridad ≤ max 0 (x.prioridad - ticks L cfg s zs) := by
  induction zs generalizing s with
  | nil =>
    cases hrun
    exact ⟨x', hq, rfl, by simp [ticks, outputs]⟩
  | cons e zs ih =>
    cases hx : paso L cfg s e with
    | error f => simp [run, hx] at hrun
    | ok u =>
      rw [run_cons zs hx] at hrun
      have hru := registradas_paso hr (movimiento_of_paso hx).2
      obtain ⟨y, hy, hqid, hle⟩ := ih hru hrun (hcola.2 u hx)
      obtain ⟨x, hxq, hxy, htick⟩ := prioridad_paso hr hx hcola.1 hy
      refine ⟨x, hxq, hqid.trans hxy.qid, ?_⟩
      have hmono := hxy.le
      rw [ticks_cons hx]
      by_cases ht : esTick s e = true
      · have hdec := htick ht
        simp only [ht, if_true]
        omega
      · simp only [ht, Bool.false_eq_true, if_false]
        omega

end Espera

section Adelantos

/-- If the planner puts a query back in this step, READY has no older one at zero. -/
def ReponeSinAdelantar (s : Master) : Evento → Prop
  | .planificador _ => ∀ r, s.planificador = .reencolar r → ∀ q ∈ s.colaReadyFIFO,
    ∀ x y, s.memQueries q = some x → s.memQueries r = some y → x.prioridad = 0 → y.qid ≤ x.qid
  | _ => True

/-- The query the planner is about to put back. -/
def repuesta : Planificador → Option ℕ
  | .reencolar r => some r
  | _ => none

theorem repuesta_eq_some_iff {p : Planificador} {r : ℕ} :
    repuesta p = some r ↔ p = .reencolar r := by
  cases p <;> simp [repuesta]

instance (s : Master) : DecidablePred (ReponeSinAdelantar s)
  | .planificador _ => decidable_of_iff (∀ r ∈ repuesta s.planificador, ∀ q ∈ s.colaReadyFIFO,
      ∀ x ∈ s.memQueries q, ∀ y ∈ s.memQueries r, x.prioridad = 0 → y.qid ≤ x.qid)
    ⟨fun h r hr q hq x y hx hy => h r (repuesta_eq_some_iff.mpr hr) q hq x hx y hy,
      fun h r hr q hq x hx y hy => h r (repuesta_eq_some_iff.mp hr) q hq x y hx hy⟩
  | .conectaQuery _ _ | .conectaWorker _ | .mensaje _ _ | .hilo _ _ | .aging _ | .sigint =>
    isTrue trivial

/-- The first query of READY is not newer than any query there that is at zero. -/
def CabezaJusta (s : Master) : Prop :=
  ∀ b ∈ s.colaReadyFIFO.head?, ∀ q ∈ s.colaReadyFIFO, ∀ x y, s.memQueries q = some x →
    s.memQueries b = some y → x.prioridad = 0 → y.qid ≤ x.qid

/-- Behind the first query READY is sorted, and altogether while the planner holds one. -/
structure Justa (s : Master) : Prop where
  retiene : retenida s.planificador ≠ [] → Ordenada s
  resto : s.colaReadyFIFO.tail.Pairwise (NoAntes s.memQueries)
  cabeza : CabezaJusta s

theorem cabezaJusta_of_ordenada (hn : NoNegativas s) (h : Ordenada s) : CabezaJusta s := by
  intro b hb q hq x y hx hy hx0
  unfold Ordenada at h
  cases hcola : s.colaReadyFIFO with
  | nil => simp [hcola] at hb
  | cons p l =>
    rw [hcola] at h hq hb
    obtain rfl : p = b := by simpa using hb
    have hle : NoAntes s.memQueries p q := by
      rcases List.mem_cons.mp hq with rfl | hq
      · exact noAntes_refl s.memQueries q
      · exact (List.pairwise_cons.mp h).1 q hq
    have hcmp := (compararPrioridad_eq_false_iff x y).mp (hle y x hy hx)
    have hy0 := hn.queries p y hy
    omega

theorem justa_of_ordenada (hn : NoNegativas s) (h : Ordenada s) : Justa s :=
  ⟨fun _ => h, h.tail, cabezaJusta_of_ordenada hn h⟩

theorem justa_of_quieta (hs : Justa s) (hcola : s'.colaReadyFIFO = s.colaReadyFIFO)
    (hret : retenida s'.planificador = retenida s.planificador)
    (hclaves : ClavesConservadas s.memQueries s'.memQueries) : Justa s' := by
  constructor
  · intro hne
    rw [Ordenada, hcola]
    exact ordenada_of_quieta hclaves (hs.retiene (hret ▸ hne))
  · rw [hcola]
    exact ordenada_of_quieta hclaves hs.resto
  · intro b hb q hq x' y' hx' hy' hx0
    rw [hcola] at hb hq
    obtain ⟨x, hx, hqx, hpx⟩ := hclaves q x' hx'
    obtain ⟨y, hy, hqy, _⟩ := hclaves b y' hy'
    rw [hqx, hqy]
    exact hs.cabeza b hb q hq x y hx hy (hpx ▸ hx0)

theorem justa_of_registra (hs : Justa s) {k : ℕ} {o : Option Query} (hk : k ∉ s.colaReadyFIFO)
    (hcola : s'.colaReadyFIFO = s.colaReadyFIFO)
    (hret : retenida s'.planificador = retenida s.planificador)
    (hmem : s'.memQueries = Function.update s.memQueries k o) : Justa s' := by
  have hne : ∀ a ∈ s.colaReadyFIFO, s'.memQueries a = s.memQueries a := fun a ha => by
    rw [hmem, Function.update_of_ne (ne_of_mem_of_not_mem ha hk)]
  constructor
  · intro hr
    rw [Ordenada, hcola, hmem]
    exact ordenada_of_registra hk o (hs.retiene (hret ▸ hr))
  · rw [hcola, hmem]
    exact ordenada_of_registra (fun hmem => hk (List.mem_of_mem_tail hmem)) o hs.resto
  · intro b hb q hq x y hx hy hx0
    rw [hcola] at hb hq
    rw [hne q hq] at hx
    rw [hne b (List.mem_of_mem_head? hb)] at hy
    exact hs.cabeza b hb q hq x y hx hy hx0

theorem justa_of_repone {q : ℕ} (hs : Ordenada s)
    (hcola : s'.colaReadyFIFO = q :: s.colaReadyFIFO) (hret : retenida s'.planificador = [])
    (hmem : s'.memQueries = s.memQueries)
    (hC : ∀ p ∈ s.colaReadyFIFO, ∀ x y, s.memQueries p = some x → s.memQueries q = some y →
      x.prioridad = 0 → y.qid ≤ x.qid) : Justa s' := by
  constructor
  · exact fun hne => absurd hret hne
  · rw [hcola, hmem]
    exact hs
  · intro b hb p hp x y hx hy hx0
    rw [hcola] at hb hp
    rw [hmem] at hx hy
    obtain rfl : q = b := by simpa using hb
    rcases List.mem_cons.mp hp with rfl | hp
    · obtain rfl := Option.some.inj (hx.symm.trans hy)
      exact le_refl _
    · exact hC p hp x y hx hy hx0

theorem justa_paso {t : ℤ} (hr : Registradas s) (hn' : NoNegativas s') (hs : Justa s)
    (hC : ReponeSinAdelantar s e) (h : paso L ⟨.prioridades, t⟩ s e = .ok s') : Justa s' := by
  cases pasoCola_of_movimiento (movimiento_of_paso h).2 with
  | quieta hcola hret hclaves hagrega henvia => exact justa_of_quieta hs hcola hret hclaves
  | registra k x path prioridad qid hk hx hcola hret hmem hagrega henvia =>
    refine justa_of_registra hs (fun hin => ?_) hcola hret hmem
    exact notMem_cola_of_registra hr hk (.cola hin)
  | agrega q hcola hret hmem hagrega henvia =>
    have hord : Ordenada s' := by
      rw [Ordenada, hmem]
      exact pairwise_ordenar hcola
    exact justa_of_ordenada hn' hord
  | saca q hcola hret hret' hmem hagrega henvia =>
    have hord : Ordenada s' := by
      rw [Ordenada, hmem]
      simpa [hcola] using hs.resto
    exact justa_of_ordenada hn' hord
  | envia q hcola hret hret' hmem hagrega henvia =>
    have hord : Ordenada s' := by
      rw [Ordenada, hcola, hmem]
      exact hs.retiene (by simp [hret])
    exact justa_of_ordenada hn' hord
  | repone q he hp hcola hret' hmem hagrega henvia =>
    obtain ⟨envio, rfl⟩ := he
    have hord : Ordenada s := hs.retiene (by simp [hp, retenida])
    exact justa_of_repone hord hcola hret' hmem (hC q hp)
  | envejece hag hvivas hcola hret hmem hagrega henvia =>
    have hord : Ordenada s' := pairwise_ordenar hcola
    exact justa_of_ordenada hn' hord

/-- Once as many ticks have passed as a query of READY had points, and it has stayed
there, the planner dequeues no newer query before it. -/
def SinAdelantos (L : ListSort ℕ) (cfg : Config) (xs : List Evento) : Prop :=
  ∀ ys zs, ys ++ zs <+: xs → ∀ u u', run (paso L cfg) inicial ys = .ok u →
    run (paso L cfg) u zs = .ok u' → ∀ q x, u.memQueries q = some x →
      AlongRun (paso L cfg) (fun v => q ∈ v.colaReadyFIFO) u zs → x.prioridad ≤ ticks L cfg u zs →
        u'.planificador = .desencolar → ∀ b ∈ u'.colaReadyFIFO.head?, ∀ x' y,
          u'.memQueries q = some x' → u'.memQueries b = some y → y.qid ≤ x'.qid

/-- No tick makes a priority negative or increases it. -/
def TicksAcotados (L : ListSort ℕ) (cfg : Config) (xs : List Evento) : Prop :=
  ∀ ys e, ys ++ [e] <+: xs → ∀ u u', run (paso L cfg) inicial ys = .ok u →
    paso L cfg u e = .ok u' → esTick u e = true → ∀ q x', u'.memQueries q = some x' →
      ∃ x, u.memQueries q = some x ∧ x'.prioridad ≤ x.prioridad ∧ 0 ≤ x'.prioridad

structure Envejeciendo (s : Master) : Prop where
  registradas : Registradas s
  noNegativas : NoNegativas s
  justa : Justa s

theorem envejeciendo_inicial : Envejeciendo inicial :=
  ⟨registradas_inicial, noNegativas_inicial,
    justa_of_ordenada noNegativas_inicial List.Pairwise.nil⟩

theorem envejeciendo_paso {t : ℤ} (he : PideNoNegativa e) (hs : Envejeciendo s)
    (hC : ReponeSinAdelantar s e) (h : paso L ⟨.prioridades, t⟩ s e = .ok s') :
    Envejeciendo s' := by
  have hn' := noNegativas_paso hs.noNegativas he h
  exact ⟨registradas_paso hs.registradas (movimiento_of_paso h).2, hn',
    justa_paso hs.registradas hn' hs.justa hC h⟩

theorem sinAdelantos_of_eachStep {t : ℤ} {xs : List Evento} (hval : ∀ e ∈ xs, PideNoNegativa e)
    (hC : EachStep (paso L ⟨.prioridades, t⟩) ReponeSinAdelantar inicial xs) :
    SinAdelantos L ⟨.prioridades, t⟩ xs := by
  intro ys zs hpre u u' hu hu' q x hx hcola hticks hp b hb x' y hx' hy
  have hI : ∀ {ws v}, ws <+: xs → run (paso L ⟨.prioridades, t⟩) inicial ws = .ok v →
      Envejeciendo v := fun hws hv => invariant_of_eachStep
    (fun _ _ _ he hs hC h => envejeciendo_paso he hs hC h) envejeciendo_inicial hval hC hws hv
  have hIu : Envejeciendo u := hI ((List.prefix_append ys zs).trans hpre) hu
  have hIu' : Envejeciendo u' := hI hpre ((run_append hu zs).trans hu')
  obtain ⟨z, hz, _, hle⟩ := prioridad_run hIu.registradas hu' hcola hx'
  obtain rfl := Option.some.inj (hx.symm.trans hz)
  have hpos := hIu'.noNegativas.queries q x' hx'
  have hstay := alongRun_last hcola hu'
  exact hIu'.justa.cabeza b hb q hstay x' y hx' hy (by omega)

theorem ticksAcotados {xs : List Evento} (hval : ∀ e ∈ xs, PideNoNegativa e) :
    TicksAcotados L cfg xs := by
  intro ys e hpre u u' hu h ht q x' hq
  have hn : NoNegativas u := invariant_of_eachStep (C := fun _ _ => True)
    (fun _ _ _ he hs _ h => noNegativas_paso hs he h) noNegativas_inicial hval
    (eachStep_of_forall (fun _ _ _ => trivial) inicial) ((List.prefix_append ys [e]).trans hpre) hu
  rw [memQueries_of_tick ht h] at hq
  obtain ⟨x, hx, hxx, _⟩ := envejecida_envejecer hq
  exact ⟨x, hx, hxx.le, hxx.nonneg (hn.queries q x hx)⟩

/-- A run that never puts a query back in front of an older one at zero serves no
query before an older one that has waited its priority out. -/
theorem sinAdelantos_run (L : ListSort ℕ) (t : ℤ) {xs : List Evento}
    (hval : ∀ e ∈ xs, PideNoNegativa e)
    (hC : EachStep (paso L ⟨.prioridades, t⟩) ReponeSinAdelantar inicial xs) :
    SinAdelantos L ⟨.prioridades, t⟩ xs ∧ TicksAcotados L ⟨.prioridades, t⟩ xs :=
  ⟨sinAdelantos_of_eachStep hval hC, ticksAcotados hval⟩

/-- A Worker has come and gone, and the queries of connections 1 and 2 wait in READY with
priorities 1 and 2. Two ticks later the planner takes the older one, finds no Worker, puts it
back in front of the other, which is at zero by then, and takes it again. -/
def dosEsperan : List Evento :=
  [.conectaWorker 7, .hilo 0 true, .hilo 0 true, .mensaje 0 .desconexion, .hilo 0 true,
    .hilo 0 true, .conectaQuery [] 1, .hilo 1 true, .hilo 1 true, .hilo 1 true, .hilo 1 true,
    .conectaQuery [] 2, .hilo 2 true, .hilo 2 true, .hilo 2 true, .hilo 2 true, .aging true,
    .aging true, .aging true, .aging true, .aging true, .planificador true, .planificador true,
    .planificador true, .planificador true, .planificador true, .planificador true,
    .planificador true, .planificador true, .planificador true, .planificador true]

theorem sinAdelantos_run_dosEsperan :
    SinAdelantos (insertionSort ℕ) ⟨.prioridades, 1000⟩ dosEsperan ∧
      TicksAcotados (insertionSort ℕ) ⟨.prioridades, 1000⟩ dosEsperan :=
  sinAdelantos_run (insertionSort ℕ) 1000 (by simp [dosEsperan, PideNoNegativa]) (by decide)

/-- A Worker has come and gone. The query of connection 1 gets the first qid but is
slow to enter READY; the planner holds the newer one of connection 2 by then. -/
def antesDelTick : List Evento :=
  [.conectaWorker 7, .hilo 0 true, .hilo 0 true, .mensaje 0 .desconexion, .hilo 0 true,
    .hilo 0 true, .conectaQuery [] 1, .hilo 1 true, .hilo 1 true, .conectaQuery [] 0,
    .hilo 2 true, .hilo 2 true, .hilo 2 true, .hilo 2 true, .planificador true,
    .planificador true, .planificador true, .hilo 1 true]

/-- The older query waits its one tick, and the newer one is put back in front. -/
def desdeElTick : List Evento :=
  [.aging true, .planificador true, .planificador true, .planificador true,
    .planificador true, .planificador true, .planificador true]

theorem not_sinAdelantos_desdeElTick :
    (∀ e ∈ antesDelTick ++ desdeElTick, PideNoNegativa e) ∧
    ¬ SinAdelantos (insertionSort ℕ) ⟨.prioridades, 1000⟩ (antesDelTick ++ desdeElTick) := by
  refine ⟨by simp [antesDelTick, desdeElTick, PideNoNegativa], fun h => ?_⟩
  have hle := h antesDelTick desdeElTick (List.prefix_refl _) _ _ (run_eq_after (by decide))
    (run_eq_after (by decide)) 1 (crearQuery [] 1 0 1) (by decide) (by decide) (by decide)
    (by decide) 2 (by decide) (crearQuery [] 0 0 1) (crearQuery [] 0 1 2) (by decide) (by decide)
  exact absurd hle (by decide)

end Adelantos

end MasterOfFiles.AgingBounds
