import MasterOfFiles.EvictionReads

/-!
When a request of verificar_desalojo is justified. Nothing in the code looks for a
free Worker or remembers an earlier request, and what is read under two mutexes is
used after both are released. A note is kept of each thread inside verificar_desalojo:
whether what it goes by was so when it read it and has not been undone since. Only the
notes of the threads that get as far as sending count.
-/
namespace MasterOfFiles.EvictionRequests

open PartialRuns RunTraces SortedLists SchedulerState SchedulerSteps SchedulerMoves
open WorkerRecords QueryOwnership EvictionReads

variable {L : ListSort ℕ} {cfg : Config} {s : Master} {e : Evento}

section Pedidos

/-- The execution, a query and a Worker, that a thread is about to ask back. -/
def pide : Option Desalojo → List (ℕ × ℕ)
  | some (.enviar e w _) => [(e, w)]
  | _ => []

/-- The execution that a thread has found. -/
def hallada : Desalojo → List (ℕ × ℕ)
  | .comparar _ (some p) => [p]
  | .enviar e w _ => [(e, w)]
  | _ => []

/-- Whether a send of the step succeeds. -/
def envioDe : Evento → Bool
  | .aging envio => envio
  | .hilo _ envio => envio
  | _ => false

/-- The Master, the requests it has sent for the executions that go on, and the notes of
its threads. A request is answered once its Worker is not executing the query any more. -/
structure Vigilado where
  master : Master
  pedidos : List (ℕ × ℕ)
  firme : ℕ → Bool

def enviados (s : Master) (e : Evento) : List (ℕ × ℕ) :=
  if envioDe e then pide (etapa s e) else []

instance (s : Master) (e : Evento) : Decidable (TocaReady s e) :=
  inferInstanceAs (Decidable (_ ∨ ∃ q ∈ liberada s e, _))

instance (s : Master) (e : Evento) : Decidable (TocaWorkers s e) :=
  inferInstanceAs (Decidable (_ ∨ ∃ q ∈ liberada s e ++ envejecida s e, _))

/-- The step undoes what another thread has read of READY or of the Workers, or asks back
the execution it has found. -/
def Deshace (s : Master) (e : Evento) (d : Desalojo) : Prop :=
  leyoReady d = true ∧ TocaReady s e ∨
    leyoWorkers d = true ∧ (TocaWorkers s e ∨ ∃ p ∈ hallada d, p ∈ enviados s e)

instance (s : Master) (e : Evento) (d : Desalojo) : Decidable (Deshace s e d) :=
  inferInstanceAs (Decidable (_ ∨ _))

/-- No listed Worker is free, and the execution that buscar_peor_query_en_ejecucion finds has
not been asked back. -/
def Oportuna (v : Vigilado) : Prop :=
  obtenerWorkerLibre v.master = none ∧
    ∀ p ∈ v.pedidos, buscarPeorQueryEnEjecucion v.master ≠ .ok (some p)

instance (v : Vigilado) : Decidable (Oportuna v) := inferInstanceAs (Decidable (_ ∧ _))

/-- The note of the thread that takes the step, which reads READY or the Workers. -/
def firmePropio (v : Vigilado) (d : Desalojo) (f : Bool) : Bool :=
  match d with
  | .leerReady => true
  | .leerPeor _ => f && decide (Oportuna v)
  | _ => f

/-- The note of a thread after a step. -/
def firmeTras (v : Vigilado) (e : Evento) (i : ℕ) : Bool :=
  match (etapas v.master)[i]?.join with
  | none => v.firme i
  | some d => if quien e = some i then firmePropio v d (v.firme i)
    else v.firme i && !decide (Deshace v.master e d)

def vigilar (L : ListSort ℕ) (cfg : Config) (v : Vigilado) (e : Evento) :
    Except Fallo Vigilado :=
  match paso L cfg v.master e with
  | .ok s' => .ok ⟨s', (enviados v.master e ++ v.pedidos).filter fun p =>
      (s'.memWorkers p.2).bind Worker.ejecutando = some p.1, firmeTras v e⟩
  | .error f => .error f

def vigiladoInicial : Vigilado := ⟨inicial, [], fun _ => true⟩

theorem vigilar_eq_ok {v v' : Vigilado} (h : vigilar L cfg v e = .ok v') :
    paso L cfg v.master e = .ok v'.master ∧
      (∀ p ∈ v'.pedidos, p ∈ enviados v.master e ∨ p ∈ v.pedidos) ∧
      v'.firme = firmeTras v e := by
  unfold vigilar at h
  split at h
  · rename_i s' hs'
    cases h
    exact ⟨hs', fun p hp => List.mem_append.mp (List.mem_of_mem_filter hp), rfl⟩
  · cases h

/-- A thread goes on with the execution it has found. -/
theorem hallada_verificar {d d' : Desalojo} (hd : verificarDesalojo cfg s d = .ok (some d'))
    {p : ℕ × ℕ} (hp : p ∈ hallada d') :
    p ∈ hallada d ∨ ∃ m, d = .leerPeor m ∧ buscarPeorQueryEnEjecucion s = .ok (some p) := by
  cases d with
  | leerReady =>
    simp only [verificarDesalojo] at hd
    split at hd
    · split at hd
      · cases hd
      · cases hd
        exact absurd hp List.not_mem_nil
    · cases hd
  | leerPeor m =>
    simp only [verificarDesalojo] at hd
    split_ifs at hd
    split at hd
    · rename_i peor hpeor
      cases hd
      cases peor with
      | none => exact absurd hp List.not_mem_nil
      | some q =>
        obtain rfl := List.mem_singleton.mp hp
        exact Or.inr ⟨m, rfl, hpeor⟩
    · cases hd
  | comparar m peor =>
    cases peor with
    | none => cases hd
    | some q =>
      simp only [verificarDesalojo] at hd
      split at hd
      · split at hd
        · split at hd
          · cases hd
            exact Or.inl hp
          · cases hd
        · cases hd
      · cases hd
  | enviar a w qid => cases hd

/-- Only a thread about to send sends. -/
theorem enviados_of_etapa {d d' : Desalojo} (he : etapa s e = some d)
    (hd : verificarDesalojo cfg s d = .ok (some d')) : enviados s e = [] := by
  unfold enviados
  rw [he]
  cases d with
  | enviar a w qid => cases hd
  | _ => exact ite_self _

end Pedidos

section Justificacion

/-- The request of `e` to `w` is justified: no listed Worker is free, `w` is executing
`e`, no query being executed has a larger priority number, the head of READY has a
smaller one, and no request for this execution is pending. -/
structure Justificada (v : Vigilado) (e w : ℕ) : Prop where
  sinLibres : ∀ u ∈ v.master.listaWorkersConectados,
    (v.master.memWorkers u).any Worker.libre = false
  listado : w ∈ v.master.listaWorkersConectados
  ejecuta : (v.master.memWorkers w).bind Worker.ejecutando = some e
  peor : ∀ q, Ejecutando v.master q → NoMayor v.master.memQueries q e
  cabeza : ∃ m, v.master.colaReadyFIFO.head? = some m ∧ Menor v.master.memQueries m e
  unica : (e, w) ∉ v.pedidos

/-- A request that a step sends is justified. -/
def PedidoJustificado (v : Vigilado) (e : Evento) : Prop :=
  ∀ p ∈ pide (etapa v.master e), Justificada v p.1 p.2

/-- A thread that sends goes by what has not been undone since it read it. -/
def SinTropiezo (v : Vigilado) (e : Evento) : Prop :=
  ∀ i ∈ quien e, pide (etapa v.master e) ≠ [] → v.firme i = true

instance (v : Vigilado) (e : Evento) : Decidable (SinTropiezo v e) :=
  inferInstanceAs (Decidable (∀ i ∈ quien e, _))

/-- What the threads with a good note go by is true, and nobody has asked for it. -/
structure Vigente (v : Vigilado) : Prop where
  fichas : Fichas v.master
  vivas : v.master.correr = true → VivasEstablecidas v.master
  leidas : v.master.correr = true → ∀ (i : ℕ) (d : Desalojo),
    (etapas v.master)[i]? = some (some d) → v.firme i = true →
      Leida v.master d ∧ ∀ p ∈ hallada d, p ∉ v.pedidos

theorem vigente_inicial : Vigente vigiladoInicial where
  fichas := fichas_inicial
  vivas _ _ hq := nomatch hq
  leidas _ i d hd := by
    have hnone : some d = none := List.mem_singleton.mp (List.mem_of_getElem? hd)
    cases hnone

variable {v v' : Vigilado} {t : ℤ} {i : ℕ}

/-- A thread that another one's step finds with a good note keeps what it goes by. -/
theorem leida_ajena (hv : Vigente v) (hcorrer : v.master.correr = true)
    (hcorrer' : v'.master.correr = true)
    (hm : Movimiento L ⟨.prioridades, t⟩ v.master e v'.master)
    (hped : ∀ p ∈ v'.pedidos, p ∈ enviados v.master e ∨ p ∈ v.pedidos) {d : Desalojo}
    (hi : (etapas v.master)[i]? = some (some d)) (hfirme : v.firme i = true)
    (hno : ¬ Deshace v.master e d) :
    Leida v'.master d ∧ ∀ p ∈ hallada d, p ∉ v'.pedidos := by
  obtain ⟨hleida, hpedidos⟩ := hv.leidas hcorrer i d hi hfirme
  constructor
  · refine leida_movimiento hv.fichas (hv.vivas hcorrer) hcorrer' hm ?_ ?_ hleida
    · exact fun hready htoca => hno (Or.inl ⟨hready, htoca⟩)
    · exact fun hworkers htoca => hno (Or.inr ⟨hworkers, Or.inl htoca⟩)
  · intro p hp hin
    rcases hped p hin with hnuevo | hviejo
    · have hworkers : leyoWorkers d = true := by
        cases d with
        | comparar m peor => cases peor with
          | none => exact absurd hp List.not_mem_nil
          | some q => rfl
        | enviar a w qid => rfl
        | _ => exact absurd hp List.not_mem_nil
      exact hno (Or.inr ⟨hworkers, Or.inr ⟨p, hp, hnuevo⟩⟩)
    · exact hpedidos p hp hviejo

/-- A thread's own step: what it reads is so, and what it has read stays so. -/
theorem leida_propia (hv : Vigente v) (hcorrer : v.master.correr = true)
    (hcorrer' : v'.master.correr = true)
    (hm : Movimiento L ⟨.prioridades, t⟩ v.master e v'.master)
    (hped : ∀ p ∈ v'.pedidos, p ∈ enviados v.master e ∨ p ∈ v.pedidos) {d d' : Desalojo}
    (hi : (etapas v.master)[i]? = some (some d)) (he : etapa v.master e = some d)
    (hd : verificarDesalojo cfg v.master d = .ok (some d'))
    (hfirme : firmePropio v d (v.firme i) = true) :
    Leida v'.master d' ∧ ∀ p ∈ hallada d', p ∉ v'.pedidos := by
  obtain ⟨hready, hworkers⟩ := not_toca_of_etapa he
  have hsola := enviados_of_etapa he hd
  have hoportuna : ∀ m, d = .leerPeor m → Oportuna v := by
    rintro m rfl
    exact of_decide_eq_true (Bool.and_eq_true_iff.mp hfirme).2
  have hantes : d = .leerReady ∨ v.firme i = true := by
    cases d with
    | leerReady => exact Or.inl rfl
    | leerPeor m => exact Or.inr (Bool.and_eq_true_iff.mp hfirme).1
    | _ => exact Or.inr hfirme
  have hvieja : Leida v.master d ∧ ∀ p ∈ hallada d, p ∉ v.pedidos := by
    rcases hantes with rfl | hantes
    · exact ⟨trivial, fun p hp => absurd hp List.not_mem_nil⟩
    · exact hv.leidas hcorrer i d hi hantes
  constructor
  · have hleida := leida_verificar hv.fichas hd hvieja.1 fun m hm => (hoportuna m hm).1
    exact leida_movimiento hv.fichas (hv.vivas hcorrer) hcorrer' hm (fun _ => hready)
      (fun _ => hworkers) hleida
  · intro p hp hin
    have hviejo : p ∈ v.pedidos := by
      rcases hped p hin with hnuevo | hviejo
      · rw [hsola] at hnuevo
        exact absurd hnuevo List.not_mem_nil
      · exact hviejo
    rcases hallada_verificar hd hp with hp | ⟨m, hdm, hbusca⟩
    · exact hvieja.2 p hp hviejo
    · exact (hoportuna m hdm).2 p hviejo hbusca

theorem leidas_paso (hv : Vigente v) (hcorrer : v.master.correr = true)
    (hcorrer' : v'.master.correr = true)
    (hm : Movimiento L ⟨.prioridades, t⟩ v.master e v'.master)
    (hped : ∀ p ∈ v'.pedidos, p ∈ enviados v.master e ∨ p ∈ v.pedidos)
    (hfirmeza : v'.firme = firmeTras v e) {d : Desalojo}
    (hi : (etapas v'.master)[i]? = some (some d)) (hfirme : v'.firme i = true) :
    Leida v'.master d ∧ ∀ p ∈ hallada d, p ∉ v'.pedidos := by
  rw [hfirmeza] at hfirme
  -- a thread that was there before the step and does not take it
  have hajena : ∀ c, (etapas v.master)[i]? = some (some c) → quien e ≠ some i →
      Leida v'.master c ∧ ∀ p ∈ hallada c, p ∉ v'.pedidos := by
    intro c hc hquien
    unfold firmeTras at hfirme
    rw [hc] at hfirme
    simp only [Option.join_some, if_neg hquien, Bool.and_eq_true, Bool.not_eq_true',
      decide_eq_false_iff_not] at hfirme
    exact leida_ajena hv hcorrer hcorrer' hm hped hc hfirme.1 hfirme.2
  have hfuera : ∀ c, (etapas v.master)[i]? = some (some c) → etapa v.master e = none →
      quien e ≠ some i := by
    intro c hc hno hquien
    rw [etapa_of_quien hquien, hc] at hno
    cases hno
  cases pasoEtapas_of_movimiento hm with
  | igual h hno =>
    rw [h] at hi
    exact hajena d hi (hfuera d hi hno)
  | nueva h hno =>
    rw [h, List.getElem?_append] at hi
    split_ifs at hi
    · exact hajena d hi (hfuera d hi hno)
    · cases List.mem_singleton.mp (List.mem_of_getElem? hi)
  | empieza j hj h hno =>
    rw [h, List.getElem?_set] at hi
    split_ifs at hi
    · cases hi
      exact ⟨trivial, fun p hp => absurd hp List.not_mem_nil⟩
    · exact hajena d hi (hfuera d hi hno)
  | sigue j c d' hj hquien he hcd h =>
    rw [h, List.getElem?_set] at hi
    split_ifs at hi with hij
    · subst hij
      obtain rfl := Option.some.inj hi
      unfold firmeTras at hfirme
      rw [hj] at hfirme
      simp only [Option.join_some, if_pos hquien] at hfirme
      exact leida_propia hv hcorrer hcorrer' hm hped hj he hcd hfirme
    · refine hajena d hi fun hotro => hij ?_
      exact Option.some.inj (hquien.symm.trans hotro)

theorem vigente_paso (hv : Vigente v) (h : vigilar L ⟨.prioridades, t⟩ v e = .ok v') :
    Vigente v' := by
  obtain ⟨hpaso, hped, hfirme⟩ := vigilar_eq_ok h
  obtain ⟨hcorrer, hm⟩ := movimiento_of_paso hpaso
  constructor
  · exact fichas_paso hv.fichas hm
  · exact fun hcorrer' => vivasEstablecidas_movimiento (hv.vivas hcorrer) hcorrer' hm
  · exact fun hcorrer' i d hi hf => leidas_paso hv hcorrer hcorrer' hm hped hfirme hi hf

theorem etapa_of_pide {p : ℕ × ℕ} (h : p ∈ pide (etapa s e)) :
    ∃ qid, etapa s e = some (.enviar p.1 p.2 qid) := by
  unfold pide at h
  split at h
  · rename_i a w qid heq
    obtain rfl := List.mem_singleton.mp h
    exact ⟨qid, heq⟩
  · exact absurd h List.not_mem_nil

theorem justificada_of_vigente (hv : Vigente v) (hcorrer : v.master.correr = true)
    (hC : SinTropiezo v e) {p : ℕ × ℕ} (hp : p ∈ pide (etapa v.master e)) :
    Justificada v p.1 p.2 := by
  obtain ⟨qid, he⟩ := etapa_of_pide hp
  obtain ⟨i, hquien, hi⟩ := quien_of_etapa he
  obtain ⟨⟨hpeor, hlibres, m, ⟨_, b, hb, hbm⟩, hmenor⟩, hpedidos⟩ :=
    hv.leidas hcorrer i _ hi (hC i hquien (List.ne_nil_of_mem hp))
  constructor
  · exact obtenerWorkerLibre_eq_none_iff.mp hlibres
  · exact hpeor.listado
  · exact hpeor.ejecuta
  · exact hpeor.peor
  · exact ⟨b, hb, hbm.trans_menor hmenor⟩
  · exact hpedidos p (List.mem_singleton_self p)

end Justificacion

section Corridas

/-- In a run in which every thread that sends goes by what was so when it read it and has not
been undone since, every request it sends is justified. -/
theorem pedidosJustificados_run (L : ListSort ℕ) (t : ℤ) {xs : List Evento}
    (hC : EachStep (vigilar L ⟨.prioridades, t⟩) SinTropiezo vigiladoInicial xs) :
    EachStep (vigilar L ⟨.prioridades, t⟩) PedidoJustificado vigiladoInicial xs :=
  eachStep_of_invariant (fun _ _ _ hv _ h => vigente_paso hv h)
    (fun _ _ _ hv hC h _ hp =>
      justificada_of_vigente hv (movimiento_of_paso (vigilar_eq_ok h).1).1 hC hp)
    vigente_inicial hC

/-- A Worker connects and is given a query of priority 5. -/
def corridaOcupado : List Evento :=
  [.conectaWorker 7, .hilo 0 true, .hilo 0 true, .conectaQuery [] 5, .hilo 1 true, .hilo 1 true,
    .hilo 1 true, .hilo 1 true, .hilo 1 true, .hilo 1 true, .hilo 1 true, .planificador true,
    .planificador true, .planificador true, .planificador true, .planificador true,
    .planificador true]

/-- The planner takes the query while its thread goes by what it read of READY. -/
example : EachStep (vigilar (insertionSort ℕ) ⟨.prioridades, 0⟩) SinTropiezo vigiladoInicial
    [.conectaWorker 7, .hilo 0 true, .hilo 0 true, .conectaQuery [] 5, .hilo 1 true, .hilo 1 true,
      .hilo 1 true, .hilo 1 true, .hilo 1 true, .planificador true, .planificador true,
      .planificador true, .planificador true, .planificador true, .planificador true,
      .hilo 1 true, .hilo 1 true] := by decide

/-- A query of priority 1 arrives, and its thread goes through verificar_desalojo. -/
def llegadaUrgente (k : ℕ) : List Evento :=
  [.conectaQuery [] 1, .hilo k true, .hilo k true, .hilo k true, .hilo k true, .hilo k true,
    .hilo k true, .hilo k true]

theorem pedidosJustificados_run_urgente :
    EachStep (vigilar (insertionSort ℕ) ⟨.prioridades, 0⟩) PedidoJustificado vigiladoInicial
      (corridaOcupado ++ llegadaUrgente 2 ++ [.hilo 2 true]) :=
  pedidosJustificados_run (insertionSort ℕ) 0 (by decide)

/-- With a second Worker connected and free, the first one is asked all the same. -/
theorem not_pedidosJustificados_workerLibre :
    ¬ EachStep (vigilar (insertionSort ℕ) ⟨.prioridades, 0⟩) PedidoJustificado vigiladoInicial
      (corridaOcupado ++ [.conectaWorker 8, .hilo 2 true] ++ llegadaUrgente 3 ++
        [.hilo 3 true]) := by
  intro h
  have hlast := eachStep_last h (run_eq_after (by decide)) (by decide)
  have hlibres := (hlast (1, 0) (by decide)).sinLibres
  exact absurd (hlibres 2 (by decide)) (by decide)

end Corridas

end MasterOfFiles.EvictionRequests
