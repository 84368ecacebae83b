import MasterOfFiles.QueryHolders

/-!
Whose Query is run. A Query stands for the Query Control that opened its connection,
keeps the name of the script that was sent there, and gets into READY once, as long as no
Worker gives a Query back. So the planner hands it to one Worker at most, once and from
its first instruction, whatever the algorithm and the interleaving.
-/
namespace MasterOfFiles.ScriptProvenance

open ByteBuffers PartialRuns RunTraces SchedulerState SchedulerSteps SchedulerMoves
open SortedLists ReadyQueue
open ListSums (getElem?_set_cases)
open QueryHolders (ordenar_perm)

section Conexiones

/-- What a new connection asks for: a path with a priority, or nothing if it is a Worker's. -/
def conexion : Evento → Option (Option (Bytes × ℤ))
  | .conectaQuery path prioridad => some (some (path, prioridad))
  | .conectaWorker _ => some none
  | _ => none

def conexiones (xs : List Evento) : List (Option (Bytes × ℤ)) := xs.filterMap conexion

/-- No Worker reports that it has given a Query back. -/
def SinDesalojada : Evento → Prop
  | .mensaje _ (.queryDesalojada _ _) => False
  | _ => True

instance : DecidablePred SinDesalojada
  | .mensaje _ (.queryDesalojada _ _) => isFalse id
  | .mensaje _ (.finQuery _) | .mensaje _ .desconexion => isTrue trivial
  | .conectaQuery _ _ | .conectaWorker _ | .planificador _ | .aging _ | .hilo _ _ | .sigint =>
    isTrue trivial

/-- A connection that is opened has the number under which `ped` knows it. -/
def Numerada (ped : ℕ → Option (Bytes × ℤ)) (s : Master) (e : Evento) : Prop :=
  SinDesalojada e ∧ ∀ c, conexion e = some c → ped s.hilos.length = c

/-- What the thread of connection `k` may be at: it carries what its client sent, and
puts nothing into READY but its own Query, the first time. -/
def HiloPropio (ped : ℕ → Option (Bytes × ℤ)) (k : ℕ) : Hilo → Prop
  | .crearQuery path prioridad => ped k = some (path, prioridad)
  | .registrarQuery path prioridad _ => ped k = some (path, prioridad)
  | .encolar q v => q = k ∧ v = .query
  | .registrarLibre _ (.desalojada _) => False
  | .avisarLibre (.desalojada _) => False
  | .buscar (.queryDesalojada _ _) => False
  | .atender (.queryDesalojada _ _) _ => False
  | _ => True

/-- Whether the thread's own Query has still to get into READY. -/
def faltaEntrar : Hilo → ℕ
  | .crearQuery _ _ => 1
  | .registrarQuery _ _ _ => 1
  | .encolar _ .query => 1
  | _ => 0

/-- How often the Query of connection `q` may still get into READY. -/
def porEntrar (s : Master) (q : ℕ) : ℕ := (s.hilos[q]?.map faltaEntrar).getD 1

/-- A step, as the threads see it: at most one of them moves, or a connection is opened. -/
inductive PasoPropio (ped : ℕ → Option (Bytes × ℤ)) (s : Master) (e : Evento) (s' : Master) : Prop
  | igual (h : s'.hilos = s.hilos) (hc : conexion e = none) (ha : agregada s e = [])
  | abre (hl : Hilo) (c : Option (Bytes × ℤ)) (hc : conexion e = some c)
    (hp : ped s.hilos.length = c → HiloPropio ped s.hilos.length hl)
    (hf : faltaEntrar hl ≤ 1) (h : s'.hilos = s.hilos ++ [hl]) (ha : agregada s e = [])
  | mueve (k : ℕ) (hl hl' : Hilo) (hk : s.hilos[k]? = some hl) (h : s'.hilos = s.hilos.set k hl')
    (hp : HiloPropio ped k hl → HiloPropio ped k hl') (hf : faltaEntrar hl' ≤ faltaEntrar hl)
    (hc : conexion e = none) (ha : agregada s e = [])
  | encola (k q : ℕ) (v : Rol) (hk : s.hilos[k]? = some (.encolar q v)) (hc : conexion e = none)
    (h : s'.hilos = s.hilos.set k (.avisarQuery v)) (ha : agregada s e = [q])

variable {L : ListSort ℕ} {cfg : Config} {s s' : Master} {e : Evento}
  {ped : ℕ → Option (Bytes × ℤ)}

theorem hiloPropio_bucle (k : ℕ) (v : Rol) : HiloPropio ped k (bucle v) := by
  cases v <;> trivial

theorem faltaEntrar_bucle (v : Rol) : faltaEntrar (bucle v) = 0 := by
  cases v <;> rfl

/-- Only a thread on its way into READY appends to it. -/
theorem agregada_eq_nil (envio : Bool) {k : ℕ} {hl : Hilo} (hk : s.hilos[k]? = some hl)
    (hno : ∀ q v, hl ≠ .encolar q v) : agregada s (.hilo k envio) = [] := by
  simp only [agregada, hk]
  cases hl with
  | encolar q v => exact absurd rfl (hno q v)
  | _ => rfl

/-- A thread that moves where it owes nothing. -/
theorem PasoPropio.libre {envio : Bool} {k : ℕ} {hl hl' : Hilo} (hk : s.hilos[k]? = some hl)
    (h : s'.hilos = s.hilos.set k hl') (hp : HiloPropio ped k hl → HiloPropio ped k hl')
    (hf : faltaEntrar hl' = 0) (hno : ∀ q v, hl ≠ .encolar q v) :
    PasoPropio ped s (.hilo k envio) s' := by
  exact .mueve k hl hl' hk h hp (by omega) rfl (agregada_eq_nil envio hk hno)

theorem pasoPropio_of_movimiento (he : SinDesalojada e) (h : Movimiento L cfg s e s') :
    PasoPropio ped s e s' := by
  cases h with
  | conectaQuery path prioridad =>
    exact .abre (.crearQuery path prioridad) _ rfl id (Nat.le_refl 1) rfl rfl
  | conectaWorker id =>
    exact .abre (.altaWorker id) _ rfl (fun _ => trivial) (Nat.zero_le 1) rfl rfl
  | mensaje k m hk =>
    refine .mueve k _ _ hk rfl (fun _ => ?_) (Nat.zero_le _) rfl rfl
    cases m with
    | queryDesalojada qid pc => exact he
    | _ => trivial
  | desconectaQc k hk => exact .mueve k _ _ hk rfl (fun _ => trivial) (Nat.zero_le _) rfl rfl
  | creaQuery envio k path prioridad hk =>
    exact .mueve k _ _ hk rfl id (Nat.le_refl 1) rfl (agregada_eq_nil envio hk (by simp))
  | registraQuery envio k path prioridad qid hk =>
    refine .mueve k _ _ hk rfl (fun _ => ⟨rfl, rfl⟩) (Nat.le_refl 1) rfl ?_
    exact agregada_eq_nil envio hk (by simp)
  | encola envio k q v l hk hl =>
    exact .encola k q v hk rfl rfl (by simp only [agregada, hk])
  | busca envio k m hk =>
    refine .libre hk rfl (fun hp => ?_) rfl (by simp)
    cases m with
    | queryDesalojada qid pc => exact hp
    | _ => trivial
  | desaloja envio k pc w q x y hk => exact .libre hk rfl False.elim rfl (by simp)
  | registraLibre envio k w t y hk =>
    refine .libre hk rfl (fun hp => ?_) rfl (by simp)
    cases t with
    | desalojada q => exact hp
    | fin q => trivial
  | avisaLibre envio k t hk =>
    cases t with
    | desalojada q => exact .libre hk rfl False.elim rfl (by simp)
    | fin q => exact .libre hk rfl (fun _ => trivial) rfl (by simp)
  | avisaQuery envio k v hk =>
    refine .libre hk rfl (fun _ => ?_) ?_ (by simp)
    · split_ifs
      · trivial
      · exact hiloPropio_bucle k v
    · split_ifs
      · rfl
      · exact faltaEntrar_bucle v
  | terminaVerificar envio k d v hk hd =>
    exact .libre hk rfl (fun _ => hiloPropio_bucle k v) (faltaEntrar_bucle v) (by simp)
  | altaWorker | avisaWorker | sinFicha | descarta | esperaFin | descartaFin | termina | enviaFin
  | liberaQuery | desconectaLibre | desconectaOcupado | finDesconexion | liberaWorker
  | verifica => exact .libre (by assumption) rfl (fun _ => trivial) rfl (by simp)
  | _ => exact .igual rfl rfl rfl

end Conexiones

section Registros

/-- What holds of every record holds of them once one of them has been written. -/
theorem queries_update {P : ℕ → Query → Prop} {m : ℕ → Option Query}
    (h : ∀ q x, m q = some x → P q x) (p : ℕ) {y : Option Query} (hy : ∀ x, y = some x → P p x) :
    ∀ q x, Function.update m p y q = some x → P q x := by
  intro q x hx
  by_cases hqp : q = p
  · subst hqp
    rw [Function.update_self] at hx
    exact hy x hx
  · rw [Function.update_of_ne hqp] at hx
    exact h q x hx

theorem queries_envejecer {P : ℕ → Query → Prop} (hP : ∀ q x, P q x → P q (bajarPrioridad x))
    {m : ℕ → Option Query} (h : ∀ q x, m q = some x → P q x) (l : List ℕ) :
    ∀ q x, envejecer m l q = some x → P q x := by
  induction l generalizing m with
  | nil => exact h
  | cons p l ih =>
    refine ih (queries_update h p fun x hx => ?_)
    obtain ⟨y, hy, rfl⟩ := Option.map_eq_some_iff.mp hx
    exact hP p y (h p y hy)

theorem queries_destruir {P : ℕ → Query → Prop} {m m' : ℕ → Option Query}
    (h : ∀ q x, m q = some x → P q x) {l : List ℕ} (hrun : run destruirQuery m l = .ok m') :
    ∀ q x, m' q = some x → P q x := by
  refine run_invariant (I := fun m => ∀ q x, m q = some x → P q x) ?_ h ⟨l, hrun⟩
  intro m q m' hm hop
  unfold destruirQuery at hop
  split at hop
  · simp at hop
  · obtain rfl := Except.ok.inj hop
    exact queries_update hm q fun x hx => by simp at hx

end Registros

section Propios

variable {L : ListSort ℕ} {cfg : Config} {s s' : Master} {e : Evento}
  {ped : ℕ → Option (Bytes × ℤ)}

/-- A record of the Query of connection `q`, which nobody has begun. -/
def QueryPropia (ped : ℕ → Option (Bytes × ℤ)) (q : ℕ) (x : Query) : Prop :=
  x.pc = 0 ∧ ∃ p, ped q = some p ∧ x.path = pathNombreArchivo p.1

/-- Everything the Master holds of a Query is what its own connection has sent. -/
structure Propios (ped : ℕ → Option (Bytes × ℤ)) (s : Master) : Prop where
  hilos : ∀ k hl, s.hilos[k]? = some hl → HiloPropio ped k hl
  queries : ∀ q x, s.memQueries q = some x → QueryPropia ped q x
  paquete : ∀ q w p, s.planificador = .enviar q w p →
    ∃ qid pedido, ped q = some pedido ∧ p = .enviarPath qid 0 (pathNombreArchivo pedido.1)

theorem propios_inicial : Propios ped inicial where
  hilos k hl h := by cases h
  queries q x h := by cases h
  paquete q w p h := by cases h

theorem hilos_propios_paso (h : Propios ped s) (he : Numerada ped s e)
    (hp : PasoPropio ped s e s') : ∀ k hl, s'.hilos[k]? = some hl → HiloPropio ped k hl := by
  intro k hl hk
  cases hp with
  | igual heq hc ha => exact h.hilos k hl (heq ▸ hk)
  | abre hl₁ c hc hpropio hf heq ha =>
    rw [heq, List.getElem?_append] at hk
    split_ifs at hk with hlt
    · exact h.hilos k hl hk
    · have hlen := (List.getElem?_eq_some_iff.mp hk).1
      rw [List.length_singleton] at hlen
      obtain rfl : k = s.hilos.length := by omega
      obtain rfl : hl₁ = hl := by simpa using hk
      exact hpropio (he.2 c hc)
  | mueve k₁ hl₁ hl' hk₁ heq hpropio hf hc ha =>
    rw [heq] at hk
    rcases getElem?_set_cases hk₁ hk with ⟨rfl, rfl⟩ | hold
    · exact hpropio (h.hilos k hl₁ hk₁)
    · exact h.hilos k hl hold.2
  | encola k₁ q v hk₁ hc heq ha =>
    rw [heq] at hk
    rcases getElem?_set_cases hk₁ hk with ⟨rfl, rfl⟩ | hold
    · trivial
    · exact h.hilos k hl hold.2

theorem queryPropia_bajarPrioridad (q : ℕ) (x : Query) (h : QueryPropia ped q x) :
    QueryPropia ped q (bajarPrioridad x) := by
  unfold bajarPrioridad
  split_ifs
  · exact h
  · exact h

/-- The records stay what they are: only a Worker that gives a Query back changes a
counter, and nothing changes a path. -/
theorem queries_propias_paso (h : Propios ped s) (hm : Movimiento L cfg s e s') :
    ∀ q x, s'.memQueries q = some x → QueryPropia ped q x := by
  have hescribe (p : ℕ) {y : Option Query} (hy : ∀ x, y = some x → QueryPropia ped p x) :=
    queries_update (P := QueryPropia ped) h.queries p hy
  have hmismo (p : ℕ) {x y : Query} (hx : s.memQueries p = some x) (hpc : y.pc = x.pc)
      (hpath : y.path = x.path) := hescribe p (y := some y) fun z hz => by
    obtain rfl := Option.some.inj hz
    obtain ⟨hcero, pedido, hpedido, hnombre⟩ := h.queries p x hx
    exact ⟨hpc.trans hcero, pedido, hpedido, hpath.trans hnombre⟩
  have hlibera (p : ℕ) := hescribe p (y := none) fun x hx => by cases hx
  cases hm with
  | asigna envio q w x y hp hq hw => exact hmismo q hq rfl rfl
  | tick envio l hag ha hvivas hl =>
    exact queries_envejecer queryPropia_bajarPrioridad h.queries s.colaReadyFIFO
  | registraQuery envio k path prioridad qid hk =>
    refine hescribe k fun x hx => ?_
    obtain rfl := Option.some.inj hx
    exact ⟨rfl, _, h.hilos k _ hk, rfl⟩
  | desaloja envio k pc w q x y hk => exact (h.hilos k _ hk).elim
  | enviaFin envio k q x hk hq => exact hmismo q hq rfl rfl
  | liberaQuery envio k q x hk hq => exact hlibera q
  | desconectaOcupado envio k w q x y hk hmutex hw hy hq => exact hmismo q hq rfl rfl
  | finDesconexion envio k w q x hk hq => exact hlibera q
  | sigint m hm => exact queries_destruir h.queries hm
  | _ => exact h.queries

/-- A packet is made of the record of the Query it is about. -/
theorem paquete_propio_paso (h : Propios ped s) (hm : Movimiento L cfg s e s') {q w : ℕ}
    {p : Paquete} (hp' : s'.planificador = .enviar q w p) :
    ∃ qid pedido, ped q = some pedido ∧ p = .enviarPath qid 0 (pathNombreArchivo pedido.1) := by
  cases hm with
  | asigna envio q₁ w₁ x y hp hq hw =>
    obtain ⟨rfl, rfl, rfl⟩ := Planificador.enviar.inj hp'
    obtain ⟨hcero, pedido, hpedido, hnombre⟩ := h.queries q₁ x hq
    refine ⟨x.qid, pedido, hpedido, ?_⟩
    rw [armarPaquete, if_pos hcero, hcero, hnombre]
  | esperaQuery | esperaWorker | colaVacia | desencola | sinWorker | tomaWorker | envia
  | envioFallido | reencola | postQuery | postWorker => cases hp'
  | _ => exact h.paquete q w p hp'

theorem propios_paso (h : Propios ped s) (he : Numerada ped s e) (hop : paso L cfg s e = .ok s') :
    Propios ped s' where
  hilos := hilos_propios_paso h he (pasoPropio_of_movimiento he.1 (movimiento_of_paso hop).2)
  queries := queries_propias_paso h (movimiento_of_paso hop).2
  paquete _ _ _ := paquete_propio_paso h (movimiento_of_paso hop).2

end Propios

section Cuentas

variable {L : ListSort ℕ} {cfg : Config} {s s' : Master} {e : Evento}
  {ped : ℕ → Option (Bytes × ℤ)}

/-- Whatever the algorithm, what is sent was pending or has just come in. -/
theorem count_pendientes_paso (h : Movimiento L cfg s e s') (q : ℕ) :
    (enviada s e).count q + (pendientes s').count q =
      (pendientes s).count q + (agregada s e).count q := by
  unfold pendientes
  rw [List.count_append, List.count_append]
  cases pasoCola_of_movimiento h with
  | quieta hcola hret hclaves hagrega henvia => simp [hcola, hret, hagrega, henvia]
  | registra k x path prioridad qid hk hx hcola hret hmem hagrega henvia =>
    simp [hcola, hret, hagrega, henvia]
  | agrega p hcola hret hmem hagrega henvia =>
    rw [(ordenar_perm hcola).count_eq, List.count_append, hret, hagrega, henvia, List.count_nil]
    omega
  | saca p hcola hret hret' hmem hagrega henvia =>
    rw [hcola, hret, hret', hagrega, henvia, List.count_singleton, List.count_cons, List.count_nil]
    omega
  | envia p hcola hret hret' hmem hagrega henvia =>
    rw [hcola, hret, hret', hagrega, henvia, List.count_nil]
    omega
  | repone p he hp hcola hret' hmem hagrega henvia =>
    have hret : retenida s.planificador = [p] := by
      rw [hp]
      rfl
    rw [hcola, hret, hret', hagrega, henvia, List.count_cons, List.count_singleton, List.count_nil]
    omega
  | envejece hag hvivas hcola hret hmem hagrega henvia =>
    rw [(ordenar_perm hcola).count_eq, hret, hagrega, henvia, List.count_nil]
    omega

/-- A Query that gets into READY could do so before, and cannot any more. -/
theorem count_agregada_porEntrar (h : Propios ped s) (hp : PasoPropio ped s e s') (q : ℕ) :
    (agregada s e).count q + porEntrar s' q ≤ porEntrar s q := by
  cases hp with
  | igual heq hc ha =>
    rw [ha, List.count_nil, porEntrar, heq]
    exact Nat.le_of_eq (Nat.zero_add _)
  | abre hl c hc hpropio hf heq ha =>
    rw [ha, List.count_nil, porEntrar, porEntrar, heq]
    rcases Nat.lt_trichotomy q s.hilos.length with hlt | rfl | hgt
    · rw [List.getElem?_append_left hlt]
      omega
    · simpa using hf
    · rw [List.getElem?_eq_none (by simp; omega), List.getElem?_eq_none (by omega)]
      exact Nat.le_of_eq (Nat.zero_add _)
  | mueve k hl hl' hk heq hpropio hf hc ha =>
    rw [ha, List.count_nil, porEntrar, porEntrar, heq]
    by_cases hkq : k = q
    · subst hkq
      rw [List.getElem?_set_self (List.getElem?_eq_some_iff.mp hk).1, hk]
      simpa using hf
    · rw [List.getElem?_set_ne hkq]
      omega
  | encola k p v hk hc heq ha =>
    obtain ⟨rfl, rfl⟩ : p = k ∧ v = .query := h.hilos k _ hk
    rw [ha, porEntrar, porEntrar, heq]
    by_cases hpq : p = q
    · subst hpq
      rw [List.getElem?_set_self (List.getElem?_eq_some_iff.mp hk).1, hk, List.count_singleton_self]
      exact Nat.le_refl 1
    · rw [List.getElem?_set_ne hpq, List.count_singleton, if_neg (by simpa using hpq)]
      omega

/-- How often the Query of connection `q` may still be sent. -/
def porEnviar (s : Master) (q : ℕ) : ℕ := (pendientes s).count q + porEntrar s q

theorem count_enviada_porEnviar (h : Propios ped s) (he : Numerada ped s e)
    (hop : paso L cfg s e = .ok s') (q : ℕ) :
    (enviada s e).count q + porEnviar s' q ≤ porEnviar s q := by
  have hmov := (movimiento_of_paso hop).2
  have hcola := count_pendientes_paso hmov q
  have hentra := count_agregada_porEntrar h (pasoPropio_of_movimiento he.1 hmov) q
  unfold porEnviar
  omega

end Cuentas

section Corridas

variable {L : ListSort ℕ} {cfg : Config} {s s' : Master} {e : Evento}
  {ped : ℕ → Option (Bytes × ℤ)}

theorem length_hilos_paso (he : SinDesalojada e) (hop : paso L cfg s e = .ok s') :
    s'.hilos.length = s.hilos.length + (conexion e).toList.length := by
  have hpaso : PasoPropio (fun _ => none) s e s' :=
    pasoPropio_of_movimiento he (movimiento_of_paso hop).2
  cases hpaso with
  | igual heq hc ha => simp [heq, hc]
  | abre hl c hc hpropio hf heq ha => simp [heq, hc]
  | mueve k hl hl' hk heq hpropio hf hc ha => simp [heq, hc]
  | encola k q v hk hc heq ha => simp [heq, hc]

/-- The connections of a run are numbered as they are opened. -/
theorem numerada_run {xs : List Evento} (hsin : ∀ e ∈ xs, SinDesalojada e)
    (hped : ∀ i c, (conexiones xs)[i]? = some c → ped (s.hilos.length + i) = c) :
    EachStep (paso L cfg) (Numerada ped) s xs := by
  induction xs generalizing s with
  | nil => trivial
  | cons e xs ih =>
    obtain ⟨he, hresto⟩ := List.forall_mem_cons.mp hsin
    intro t hop
    have hlength := length_hilos_paso he hop
    cases hc : conexion e with
    | none =>
      refine ⟨⟨he, fun c hsome => by rw [hc] at hsome; cases hsome⟩, ih hresto ?_⟩
      rw [hlength, hc]
      rw [conexiones, List.filterMap_cons_none hc] at hped
      exact hped
    | some c =>
      rw [conexiones, List.filterMap_cons_some hc] at hped
      refine ⟨⟨he, fun c' hsome => ?_⟩, ih hresto fun i c' hi => ?_⟩
      · obtain rfl := Option.some.inj (hc.symm.trans hsome)
        exact hped 0 c rfl
      · have hsuc := hped (i + 1) c' hi
        rwa [hlength, hc, Option.toList_some, List.length_singleton, Nat.add_right_comm]

/-- What the planner sends in a step: the Query's connection, the Worker and the packet. -/
def despacho (s : Master) : Evento → List (ℕ × ℕ × Paquete)
  | .planificador true => match s.planificador with
    | .enviar q w p => [(q, w, p)]
    | _ => []
  | _ => []

def despachos (L : ListSort ℕ) (cfg : Config) (xs : List Evento) : List (ℕ × ℕ × Paquete) :=
  outputs (paso L cfg) despacho inicial xs

/-- What the clients of a run have asked for, by connection. -/
def pedidos (xs : List Evento) (k : ℕ) : Option (Bytes × ℤ) := (conexiones xs)[k]?.join

theorem numerada_pedidos {xs : List Evento} (hsin : ∀ e ∈ xs, SinDesalojada e) :
    EachStep (paso L cfg) (Numerada (pedidos xs)) inicial xs := by
  refine numerada_run hsin fun i c hi => ?_
  have hcero : inicial.hilos.length + i = i := Nat.zero_add i
  rw [hcero, pedidos, hi]
  rfl

theorem mem_despacho {d : ℕ × ℕ × Paquete} (h : d ∈ despacho s e) :
    s.planificador = .enviar d.1 d.2.1 d.2.2 := by
  unfold despacho at h
  split at h
  · split at h
    · next hp =>
      obtain rfl := List.mem_singleton.mp h
      exact hp
    · exact absurd h List.not_mem_nil
  · exact absurd h List.not_mem_nil

/-- What is sent is the name of the script that the Query's own client asked for. -/
theorem despachos_propios {xs : List Evento} (hsin : ∀ e ∈ xs, SinDesalojada e) :
    ∀ d ∈ despachos L cfg xs, ∃ qid pedido, pedidos xs d.1 = some pedido ∧
      d.2.2 = .enviarPath qid 0 (pathNombreArchivo pedido.1) :=
  forall_mem_outputs_of_eachStep (fun _ _ _ h he hop => propios_paso h he hop)
    (fun _ _ _ h _ _ _ hd => h.paquete _ _ _ (mem_despacho hd)) propios_inicial
    (numerada_pedidos hsin)

theorem despachos_fst (L : ListSort ℕ) (cfg : Config) (xs : List Evento) :
    outputs (paso L cfg) enviada inicial xs = (despachos L cfg xs).map Prod.fst := by
  refine outputs_view rfl (fun ys zs => List.map_append) (fun s e => ?_) inicial xs
  cases e with
  | planificador envio =>
    cases envio with
    | false => rfl
    | true =>
      unfold enviada despacho
      cases s.planificador <;> rfl
  | _ => rfl

/-- No Query is sent twice. -/
theorem nodup_despachos {xs : List Evento} (hsin : ∀ e ∈ xs, SinDesalojada e) :
    ((despachos L cfg xs).map Prod.fst).Nodup := by
  rw [← despachos_fst, List.nodup_iff_count_le_one]
  intro q
  exact count_outputs_le (f := fun s => porEnviar s q) (fun _ _ _ h he hop => propios_paso h he hop)
    (fun _ _ _ h he hop => count_enviada_porEnviar h he hop q) propios_inicial
    (numerada_pedidos hsin)

end Corridas

end MasterOfFiles.ScriptProvenance
