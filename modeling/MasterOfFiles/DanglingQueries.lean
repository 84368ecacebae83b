import MasterOfFiles.QueryHolders

/-!
Which pointers to queries stay good. enviar_fin_query frees a query and takes it out
of lists that are never made, but not out of queries_activas, so the pointer there
dangles from then on. A run without a dangling pointer is one that finishes no query.
-/
namespace MasterOfFiles.DanglingQueries

open PartialRuns RunTraces SortedLists SchedulerState SchedulerSteps SchedulerMoves ReadyQueue
open QueryHolders

variable {L : ListSort ℕ} {cfg : Config} {s s' : Master} {e : Evento}

section Liberaciones

/-- The query that enviar_fin_query frees in a thread's next step. -/
def porLiberar : Hilo → List ℕ
  | .liberarQuery q => [q]
  | .finDesconexion _ q => [q]
  | _ => []

theorem porTerminar_of_porLiberar {hl : Hilo} {q : ℕ} (h : q ∈ porLiberar hl) :
    q ∈ porTerminar hl := by
  cases hl <;> first | exact h | exact absurd h List.not_mem_nil

/-- No query is freed in this step. -/
def NoTermina (s : Master) : Evento → Prop
  | .hilo k _ => ∀ hl, s.hilos[k]? = some hl → porLiberar hl = []
  | _ => True

theorem paso_libera {k q : ℕ} {envio : Bool} {hl : Hilo} (hk : s.hilos[k]? = some hl)
    (hq : q ∈ porLiberar hl) (h : paso L cfg s (.hilo k envio) = .ok s') :
    s'.memQueries q = none ∧ s'.queriesActivas = s.queriesActivas ∧ s'.correr = true := by
  obtain ⟨hcorrer, hm⟩ := movimiento_of_paso h
  unfold paso at h
  rw [if_pos hcorrer] at h
  simp only [hk] at h
  cases hl with
  | liberarQuery p =>
    obtain rfl := List.mem_singleton.mp hq
    simp only [atenderCliente] at h
    split at h
    · cases h
    · cases h
      exact ⟨Function.update_self .., rfl, hcorrer⟩
  | finDesconexion w p =>
    obtain rfl := List.mem_singleton.mp hq
    simp only [atenderCliente] at h
    split at h
    · cases h
    · cases h
      exact ⟨Function.update_self .., rfl, hcorrer⟩
  | _ => exact absurd hq List.not_mem_nil

/-- A step, as the lifetime of queries sees it. -/
inductive PasoVidas (s : Master) (e : Evento) (s' : Master) : Prop
  | conserva (hact : s'.queriesActivas = s.queriesActivas)
    (hmem : ∀ q, (s.memQueries q).isSome → (s'.memQueries q).isSome)
  | registra (k : ℕ) (x : Query) (path : ByteBuffers.Bytes) (prioridad : ℤ) (qid : ℕ)
    (hk : s.hilos[k]? = some (.registrarQuery path prioridad qid))
    (hk' : s'.hilos[k]? = some (.encolar k .query))
    (hact : s'.queriesActivas = s.queriesActivas ++ [k])
    (hmem : s'.memQueries = Function.update s.memQueries k (some x))
  | libera (k q : ℕ) (envio : Bool) (hl : Hilo) (he : e = .hilo k envio)
    (hk : s.hilos[k]? = some hl) (hq : q ∈ porLiberar hl)
  | apaga (h : s'.correr = false)

theorem isSome_update {m : ℕ → Option Query} {q : ℕ} {x : Query} (p : ℕ)
    (h : (m p).isSome) : (Function.update m q (some x) p).isSome := by
  by_cases hpq : p = q
  · subst hpq
    rw [Function.update_self]
    rfl
  · rwa [Function.update_of_ne hpq]

theorem isSome_envejecer {m : ℕ → Option Query} {l : List ℕ} (p : ℕ) (h : (m p).isSome) :
    (envejecer m l p).isSome := by
  induction l generalizing m with
  | nil => exact h
  | cons a l ih =>
    refine ih ?_
    by_cases hpa : p = a
    · subst hpa
      simpa using h
    · simpa only [Function.update_of_ne hpa] using h

theorem pasoVidas_of_movimiento (h : Movimiento L cfg s e s') : PasoVidas s e s' := by
  cases h with
  | asigna envio q w x y hp hq hw => exact .conserva rfl isSome_update
  | desaloja envio k pc w q x y hk hw hy hq => exact .conserva rfl isSome_update
  | enviaFin envio k q x hk hq => exact .conserva rfl isSome_update
  | desconectaOcupado envio k w q x y hk hmutex hw hy hq => exact .conserva rfl isSome_update
  | tick envio l hag ha hvivas hl => exact .conserva rfl isSome_envejecer
  | registraQuery envio k path prioridad qid hk =>
    have hlt := (List.getElem?_eq_some_iff.mp hk).1
    exact .registra k _ path prioridad qid hk (List.getElem?_set_self hlt) rfl rfl
  | liberaQuery envio k q x hk hq =>
    exact .libera k q envio _ rfl hk (List.mem_singleton_self q)
  | finDesconexion envio k w q x hk hq =>
    exact .libera k q envio _ rfl hk (List.mem_singleton_self q)
  | sigint m hm => exact .apaga rfl
  | _ => exact .conserva rfl fun _ => id

/-- Destroying a list of queries that are there, each once, frees none twice. -/
theorem run_destruirQuery {m : ℕ → Option Query} {l : List ℕ} (hl : l.Nodup)
    (h : ∀ q ∈ l, (m q).isSome) : ∃ m', run destruirQuery m l = .ok m' := by
  induction l generalizing m with
  | nil => exact ⟨m, rfl⟩
  | cons q l ih =>
    obtain ⟨hq, hnodup⟩ := List.nodup_cons.mp hl
    obtain ⟨x, hx⟩ := Option.isSome_iff_exists.mp (h q (List.mem_cons_self ..))
    have hstep : destruirQuery m q = .ok (Function.update m q none) := by
      simp only [destruirQuery, hx]
    rw [run_cons l hstep]
    refine ih hnodup fun p hp => ?_
    rw [Function.update_of_ne (ne_of_mem_of_not_mem hp hq)]
    exact h p (List.mem_cons_of_mem q hp)

end Liberaciones

section Errores

theorem ordenar_ne {m : ℕ → Option Query} {l : List ℕ} :
    ordenar L cfg m l ≠ .error .dobleLiberacion := by
  unfold ordenar
  split_ifs <;> simp

theorem buscarPeor_ne : buscarPeorQueryEnEjecucion s ≠ .error .dobleLiberacion := by
  intro h
  obtain ⟨peor, w, hw⟩ := error_of_run h
  unfold peorDe at hw
  repeat' split at hw
  all_goals cases hw

theorem verificarDesalojo_ne {d : Desalojo} :
    verificarDesalojo cfg s d ≠ .error .dobleLiberacion := by
  cases d with
  | leerReady =>
    simp only [verificarDesalojo]
    repeat' split
    all_goals simp
  | leerPeor m =>
    simp only [verificarDesalojo]
    split
    · simp
    · split
      · simp
      · rename_i f hf
        intro h
        exact buscarPeor_ne (Except.error.inj h ▸ hf)
  | comparar m peor =>
    cases peor with
    | none => simp [verificarDesalojo]
    | some p =>
      simp only [verificarDesalojo]
      repeat' split
      all_goals simp
  | enviar e w qid => simp [verificarDesalojo]

theorem planificadorFifo_ne {envio : Bool} :
    planificadorFifo s envio ≠ .error .dobleLiberacion := by
  unfold planificadorFifo
  repeat' split
  all_goals simp

theorem agingReady_ne : agingReady L cfg s ≠ .error .dobleLiberacion := by
  unfold agingReady
  repeat' split
  all_goals intro h
  all_goals cases h
  · exact ordenar_ne ‹_›
  · exact verificarDesalojo_ne ‹_›

theorem atender_ne {k : ℕ} {m : Mensaje} {w : Option ℕ} :
    atenderCliente L cfg s k (.atender m w) ≠ .error .dobleLiberacion := by
  cases w with
  | none => simp [atenderCliente]
  | some w =>
    cases m with
    | queryDesalojada qid pc =>
      simp only [atenderCliente, queryDesalojada]
      repeat' split
      all_goals simp
    | finQuery qid =>
      simp only [atenderCliente, finQuery]
      repeat' split
      all_goals simp
    | desconexion =>
      simp only [atenderCliente, manejarDesconexionWorker]
      repeat' split
      all_goals simp

/-- Only a step that frees can free a second time. -/
theorem libera_of_atenderCliente {k : ℕ} {hl : Hilo}
    (h : atenderCliente L cfg s k hl = .error .dobleLiberacion) :
    ∃ q ∈ porLiberar hl, s.memQueries q = none := by
  cases hl with
  | liberarQuery q =>
    simp only [atenderCliente] at h
    split at h
    · rename_i hq
      exact ⟨q, List.mem_singleton_self q, hq⟩
    · cases h
  | finDesconexion w q =>
    simp only [atenderCliente] at h
    split at h
    · rename_i hq
      exact ⟨q, List.mem_singleton_self q, hq⟩
    · cases h
  | atender m w => exact absurd h atender_ne
  | recibirFin qid q w =>
    simp only [atenderCliente, recibirFin] at h
    repeat' split at h
    all_goals cases h
  | encolar q v =>
    simp only [atenderCliente] at h
    split at h
    · cases h
    · rename_i f hf
      exact absurd hf (by rw [Except.error.inj h]; exact ordenar_ne)
  | verificar d v =>
    simp only [atenderCliente] at h
    split at h
    · cases h
    · cases h
    · rename_i f hf
      exact absurd hf (by rw [Except.error.inj h]; exact verificarDesalojo_ne)
  | _ =>
    simp only [atenderCliente] at h
    repeat' split at h
    all_goals cases h

theorem libera_of_paso (h : paso L cfg s e = .error .dobleLiberacion) :
    (∃ (k : ℕ) (hl : Hilo), s.hilos[k]? = some hl ∧ ∃ q ∈ porLiberar hl, s.memQueries q = none) ∨
      run destruirQuery s.memQueries s.queriesActivas = .error .dobleLiberacion := by
  unfold paso at h
  split at h
  · cases e with
    | conectaQuery path prioridad => cases h
    | conectaWorker id => cases h
    | mensaje k m =>
      simp only at h
      split at h
      · simp only [recibirOperacion, manejarDesconexionQc_eq] at h
        repeat' split at h
        all_goals cases h
      · cases h
    | planificador envio => exact absurd h planificadorFifo_ne
    | aging envio =>
      simp only at h
      split at h
      · exact absurd h agingReady_ne
      · cases h
    | hilo k envio =>
      simp only at h
      split at h
      · exact Or.inl ⟨k, _, ‹_›, libera_of_atenderCliente h⟩
      · cases h
    | sigint =>
      simp only [sigint] at h
      split at h
      · cases h
      · rename_i f hf
        exact Or.inr (Except.error.inj h ▸ hf)
  · cases h

end Errores

section Corridas

/-- Every query that has been registered is still there. -/
structure Vivas (s : Master) : Prop where
  activas : ∀ q ∈ s.queriesActivas, (s.memQueries q).isSome
  nodup : s.queriesActivas.Nodup
  establecidas : ∀ q ∈ s.queriesActivas, Establecida s q
  enCurso : ∀ q, EnCurso s q → q ∈ s.queriesActivas
  porTerminar : ∀ (k : ℕ) (hl : Hilo), s.hilos[k]? = some hl →
    ∀ q ∈ porTerminar hl, q ∈ s.queriesActivas

/-- Until the process ends, nothing that READY, queries_activas or a listed Worker
points to has been freed, and no step frees a query a second time. -/
def SinColgantes (L : ListSort ℕ) (cfg : Config) (s : Master) : Prop :=
  s.correr = true →
    (∀ q ∈ s.queriesActivas, (s.memQueries q).isSome) ∧
    (∀ q ∈ s.colaReadyFIFO, (s.memQueries q).isSome) ∧
    (∀ w ∈ s.listaWorkersConectados, ∀ y, s.memWorkers w = some y →
      ∀ q ∈ y.ejecutando, (s.memQueries q).isSome) ∧
    ∀ e, paso L cfg s e ≠ .error .dobleLiberacion

theorem sinColgantes_of_vivas (h : Vivas s) : SinColgantes L cfg s := by
  intro _
  refine ⟨h.activas, fun q hq => h.activas q (h.enCurso q (.cola hq)), ?_, fun e he => ?_⟩
  · intro w _ y hy q hq
    exact h.activas q (h.enCurso q (.worker ⟨w, y, hy, hq⟩))
  · rcases libera_of_paso he with ⟨k, hl, hk, q, hq, hnone⟩ | hrun
    · have hlive := h.activas q (h.porTerminar k hl hk q (porTerminar_of_porLiberar hq))
      rw [hnone] at hlive
      cases hlive
    · obtain ⟨m, hm⟩ := run_destruirQuery h.nodup h.activas
      rw [hm] at hrun
      cases hrun

theorem porTerminar_paso (h : Movimiento L cfg s e s') (hs : Vivas s)
    (hact : ∀ q ∈ s.queriesActivas, q ∈ s'.queriesActivas) (i : ℕ) (hl : Hilo)
    (hi : s'.hilos[i]? = some hl) : ∀ q ∈ porTerminar hl, q ∈ s'.queriesActivas := by
  intro q hq
  refine hact q ?_
  cases pasoHilos_of_movimiento h with
  | igual heq => exact hs.porTerminar i hl (heq ▸ hi) q hq
  | nuevo hn hr hp heq =>
    rcases hilo_of_append (heq ▸ hi) with rfl | hold
    · cases hl <;> first | exact absurd hq List.not_mem_nil | exact absurd hr id
    · exact hs.porTerminar i hl hold q hq
  | mueve k hk hk' hkh hsig heq =>
    rcases hilo_of_set hkh (heq ▸ hi) with ⟨rfl, rfl⟩ | hold
    · rcases hsig.termina q hq with hold | hej
      · exact hs.porTerminar i hk hkh q hold
      · exact hs.enCurso q (.worker hej)
    · exact hs.porTerminar i hl hold q hq
  | registra k path prioridad qid hk hacts heq =>
    rcases hilo_of_set hk (heq ▸ hi) with ⟨rfl, rfl⟩ | hold
    · exact absurd hq List.not_mem_nil
    · exact hs.porTerminar i hl hold q hq
  | desconecta k hk he heq =>
    rcases hilo_of_set hk (heq ▸ hi) with ⟨rfl, rfl⟩ | hold
    · exact absurd hq List.not_mem_nil
    · exact hs.porTerminar i hl hold q hq

theorem enCurso_paso (h : Movimiento L cfg s e s') (hs : Vivas s)
    (hact : ∀ q ∈ s.queriesActivas, q ∈ s'.queriesActivas) (q : ℕ) (hq : EnCurso s' q) :
    q ∈ s'.queriesActivas := by
  rcases enCurso_of_movimiento h hq with hold | ⟨_, _, hnew⟩
  · exact hact q (hs.enCurso q hold)
  · exact hnew

theorem vivas_paso (hs : Vivas s) (hC : NoTermina s e) (h : paso L cfg s e = .ok s')
    (hcorrer : s'.correr = true) : Vivas s' := by
  have hm := (movimiento_of_paso h).2
  have hest : ∀ q, Establecida s q → Establecida s' q := fun q =>
    establecida_of_movimiento hm
  cases pasoVidas_of_movimiento hm with
  | conserva hact hmem =>
    have hsub : ∀ q ∈ s.queriesActivas, q ∈ s'.queriesActivas := fun q hq => hact ▸ hq
    refine ⟨?_, hact ▸ hs.nodup, ?_, enCurso_paso hm hs hsub, porTerminar_paso hm hs hsub⟩
    · intro q hq
      exact hmem q (hs.activas q (hact ▸ hq))
    · intro q hq
      exact hest q (hs.establecidas q (hact ▸ hq))
  | registra k x path prioridad qid hk hk' hact hmem =>
    have hsub : ∀ q ∈ s.queriesActivas, q ∈ s'.queriesActivas := fun q hq => by
      rw [hact]
      exact List.mem_append_left _ hq
    have hnew : k ∉ s.queriesActivas := fun hin =>
      not_establecida_of_reciente hk trivial (hs.establecidas k hin)
    refine ⟨?_, ?_, ?_, enCurso_paso hm hs hsub, porTerminar_paso hm hs hsub⟩
    · intro q hq
      rw [hact] at hq
      rw [hmem]
      rcases List.mem_append.mp hq with hold | hk
      · exact isSome_update q (hs.activas q hold)
      · obtain rfl := List.mem_singleton.mp hk
        simp
    · rw [hact]
      simpa [List.nodup_append, hs.nodup] using fun q hq => ne_of_mem_of_not_mem hq hnew
    · intro q hq
      rw [hact] at hq
      rcases List.mem_append.mp hq with hold | hk
      · exact hest q (hs.establecidas q hold)
      · obtain rfl := List.mem_singleton.mp hk
        exact ⟨_, hk', id⟩
  | libera k q envio hl he hk hq =>
    subst he
    rw [hC hl hk] at hq
    exact absurd hq List.not_mem_nil
  | apaga hoff =>
    rw [hcorrer] at hoff
    cases hoff

theorem vivas_inicial : Vivas inicial where
  activas _ hq := absurd hq List.not_mem_nil
  nodup := List.nodup_nil
  establecidas _ hq := absurd hq List.not_mem_nil
  enCurso q hq := absurd (registradas_inicial q hq) (fun ⟨_, h, _⟩ => nomatch h)
  porTerminar _ _ hk := nomatch hk

/-- A step keeps the pointers good exactly when it finishes no query. -/
theorem sinColgantes_paso (hs : Vivas s) (h : paso L cfg s e = .ok s') :
    SinColgantes L cfg s' ↔ NoTermina s e := by
  constructor
  · intro hP
    cases e with
    | hilo k envio =>
      intro hl hk
      by_contra hne
      obtain ⟨q, hq⟩ := List.exists_mem_of_ne_nil _ hne
      obtain ⟨hnone, hact, hcorrer⟩ := paso_libera hk hq h
      have hin : q ∈ s'.queriesActivas := by
        rw [hact]
        exact hs.porTerminar k hl hk q (porTerminar_of_porLiberar hq)
      have hlive := (hP hcorrer).1 q hin
      rw [hnone] at hlive
      cases hlive
    | _ => trivial
  · intro hC hcorrer
    exact sinColgantes_of_vivas (vivas_paso hs hC h hcorrer) hcorrer

/-- No pointer dangles and no query is freed twice in a run, SIGINT included, exactly
when no step of the run finishes a query. -/
theorem sinColgantes_run_iff (L : ListSort ℕ) (cfg : Config) (xs : List Evento) :
    AlongRun (paso L cfg) (SinColgantes L cfg) inicial xs ↔
      EachStep (paso L cfg) NoTermina inicial xs := by
  refine alongRun_iff_eachStep (I := fun s => s.correr = true → Vivas s) (A := fun _ => True)
    (fun s x s' _ hI _ h => ?_) (fun s x s' _ hI _ hC h hcorrer => ?_) (fun _ => vivas_inicial)
    (sinColgantes_of_vivas vivas_inicial) xs (fun _ _ => trivial)
  · exact sinColgantes_paso (hI (movimiento_of_paso h).1) h
  · exact vivas_paso (hI (movimiento_of_paso h).1) hC h hcorrer

theorem not_sinColgantes_corridaTerminada :
    ¬ AlongRun (paso (insertionSort ℕ) ⟨.fifo, 0⟩) (SinColgantes (insertionSort ℕ) ⟨.fifo, 0⟩)
      inicial corridaTerminada := by
  intro h
  have hs := alongRun_last h (run_eq_after (by decide))
  have hlive := (hs (by decide)).1 0 (by decide)
  exact absurd hlive (by decide)

end Corridas

end MasterOfFiles.DanglingQueries
