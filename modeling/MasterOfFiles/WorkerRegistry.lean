import Mathlib.Data.Int.Notation
import MasterOfFiles.RunTraces

/-!
The list of Workers a Storage keeps. Each connection has a thread of atender_worker,
which adds an entry behind a handshake and takes it out when the Worker goes away, both
under mutex_workers. A step is one receive, one operation on the mutex or on the list, or
the code between two of these. The branch of the disconnection locks the mutex before its
log line and again before its loop, so nothing behind the second lock is ever run.
-/
namespace MasterOfFiles.WorkerRegistry

open PartialRuns RunTraces

section Hilos

/-- Where a thread of atender_worker is. -/
inductive Lugar
  | recibir
  | leerId
  | lockAlta
  | agregar
  | unlockAlta
  | responder
  | lockAviso
  | lockBaja
  | quitar
  | unlockBaja
  | cerrar
  | fin
  deriving DecidableEq

/-- `saludo` tells whether the connection has begun a handshake. -/
structure Hilo where
  fd : ℕ
  lugar : Lugar
  workerId : ℤ
  saludo : Bool
  deriving DecidableEq

/-- t_hilo_worker. -/
structure HiloWorker where
  idWorker : ℤ
  fdHilo : ℕ
  hilo : ℕ
  deriving DecidableEq

/-- `mutexWorkers` is the thread that holds the mutex. -/
structure Registro where
  hilos : List Hilo
  workers : List HiloWorker
  mutexWorkers : Option ℕ
  deriving DecidableEq

def inicial : Registro := ⟨[], [], none⟩

/-- What recibir_operacion returns; every opcode below one is a disconnection. -/
inductive Operacion
  | pedirTamBloque
  | otra
  | desconexion
  deriving DecidableEq

/-- A connection, an opcode or a Worker's id that arrives or fails to, or the next step of
a thread. -/
inductive Evento
  | conecta (fd : ℕ)
  | recibe (k : ℕ) (op : Operacion)
  | recibeId (k : ℕ) (id : Option ℤ)
  | hilo (k : ℕ)
  deriving DecidableEq

/-- Why a step is not taken. -/
inductive Fallo
  | bloqueado
  deriving DecidableEq

end Hilos

section Pasos

def avanzar (s : Registro) (k : ℕ) (h : Hilo) (lugar : Lugar) : Registro :=
  { s with hilos := s.hilos.set k { h with lugar := lugar } }

/-- pthread_mutex_lock; a thread waits for the mutex whoever holds it. -/
def lock (s : Registro) (k : ℕ) (h : Hilo) (lugar : Lugar) : Except Fallo Registro :=
  match s.mutexWorkers with
  | none => .ok { avanzar s k h lugar with mutexWorkers := some k }
  | some _ => .error .bloqueado

def unlock (s : Registro) (k : ℕ) (h : Hilo) (lugar : Lugar) : Registro :=
  { avanzar s k h lugar with mutexWorkers := none }

def recibirOperacion (s : Registro) (k : ℕ) (h : Hilo) : Operacion → Registro
  | .pedirTamBloque =>
    { s with hilos := s.hilos.set k { h with lugar := .leerId, saludo := true } }
  | .otra => s
  | .desconexion => avanzar s k h (if h.workerId ≠ -1 then .lockAviso else .cerrar)

/-- A receive that fails leaves worker_id as it was. -/
def recibirId (s : Registro) (k : ℕ) (h : Hilo) (id : Option ℤ) : Registro :=
  let h := { h with lugar := .lockAlta, workerId := id.getD h.workerId }
  { s with hilos := s.hilos.set k h }

/-- The step of a thread that waits for no message. -/
def atenderWorker (s : Registro) (k : ℕ) (h : Hilo) : Except Fallo Registro :=
  match h.lugar with
  | .lockAlta => lock s k h .agregar
  | .agregar =>
    .ok { avanzar s k h .unlockAlta with workers := s.workers ++ [⟨h.workerId, h.fd, k⟩] }
  | .unlockAlta => .ok (unlock s k h .responder)
  | .responder => .ok (avanzar s k h .recibir)
  | .lockAviso => lock s k h .lockBaja
  | .lockBaja => lock s k h .quitar
  | .quitar =>
    .ok { avanzar s k h .unlockBaja with
      workers := s.workers.eraseP fun w => w.idWorker = h.workerId }
  | .unlockBaja => .ok (unlock s k h .cerrar)
  | .cerrar => .ok (avanzar s k h .fin)
  | .recibir | .leerId | .fin => .error .bloqueado

def paso (s : Registro) : Evento → Except Fallo Registro
  | .conecta fd => .ok { s with hilos := s.hilos ++ [⟨fd, .recibir, -1, false⟩] }
  | .recibe k op => match s.hilos[k]? with
    | some h => if h.lugar = .recibir then .ok (recibirOperacion s k h op) else .error .bloqueado
    | none => .error .bloqueado
  | .recibeId k id => match s.hilos[k]? with
    | some h => if h.lugar = .leerId then .ok (recibirId s k h id) else .error .bloqueado
    | none => .error .bloqueado
  | .hilo k => match s.hilos[k]? with
    | some h => atenderWorker s k h
    | none => .error .bloqueado

end Pasos

section Propiedad

def pideMutex : Lugar → Bool
  | .lockAlta | .lockAviso | .lockBaja => true
  | _ => false

/-- Inside the handshake, with all of it received. -/
def saludando : Lugar → Bool
  | .lockAlta | .agregar | .unlockAlta | .responder => true
  | _ => false

/-- No handler is mid-way. -/
def Quieto (s : Registro) : Prop := ∀ h ∈ s.hilos, h.lugar = .recibir ∨ h.lugar = .fin

/-- The entries of the thread `k` that there should be: one for a Worker that is connected
and has done its handshake. -/
def entradas (s : Registro) (k : ℕ) : List HiloWorker :=
  match s.hilos[k]? with
  | some h => if h.lugar = .recibir ∧ h.saludo then [⟨h.workerId, h.fd, k⟩] else []
  | none => []

/-- The threads that are running get the thread `k` back to its loop, its answer sent. -/
def SeResponde (s : Registro) (k : ℕ) : Prop :=
  ∃ s', Reaches (fun s j => paso s (.hilo j)) s s' ∧
    (s'.hilos[k]?).map Hilo.lugar = some .recibir

structure RegistroSano (s : Registro) : Prop where
  sin_relock : ∀ k h, s.hilos[k]? = some h → pideMutex h.lugar → s.mutexWorkers ≠ some k
  suelta : ∀ k h, s.hilos[k]? = some h → h.lugar = .fin → s.mutexWorkers ≠ some k
  una_entrada : Quieto s → ∀ k, s.workers.filter (fun w => w.hilo = k) = entradas s k
  se_responde : ∀ k h, s.hilos[k]? = some h → saludando h.lugar → SeResponde s k

/-- A Worker does one handshake and does not disconnect after it. -/
def nadieSeVa (s : Registro) : Evento → Bool
  | .conecta _ => true
  | .recibe _ .otra => true
  | .recibe k _ => (s.hilos[k]?).all fun h => !h.saludo
  | .recibeId _ _ => true
  | .hilo _ => true

end Propiedad

section Invariante

def retiene : Lugar → Bool
  | .agregar | .unlockAlta => true
  | _ => false

/-- What a thread can be like when no Worker leaves after its handshake. -/
structure HiloSano (h : Hilo) : Prop where
  nuevo : h.saludo = false →
    h.workerId = -1 ∧ (h.lugar = .recibir ∨ h.lugar = .cerrar ∨ h.lugar = .fin)
  saludado : h.saludo = true →
    h.lugar = .recibir ∨ h.lugar = .leerId ∨ saludando h.lugar = true

theorem HiloSano.saludo_eq {h : Hilo} (hsano : HiloSano h)
    (hlugar : h.lugar = .leerId ∨ saludando h.lugar = true) : h.saludo = true := by
  by_contra hno
  obtain ⟨-, hl⟩ := hsano.nuevo (Bool.eq_false_iff.mpr hno)
  rcases hl with hl | hl | hl <;> simp [hl, saludando] at hlugar

theorem hiloSano_of_saludo {h : Hilo} (hsaludo : h.saludo = true)
    (hlugar : h.lugar = .recibir ∨ h.lugar = .leerId ∨ saludando h.lugar = true) :
    HiloSano h :=
  ⟨fun hno => absurd (hno.symm.trans hsaludo) Bool.false_ne_true, fun _ => hlugar⟩

/-- The entry a thread has in the list, once it has added it. -/
def propias (k : ℕ) (h : Hilo) : List HiloWorker :=
  if h.saludo ∧ (h.lugar = .recibir ∨ h.lugar = .unlockAlta ∨ h.lugar = .responder) then
    [⟨h.workerId, h.fd, k⟩]
  else []

structure Ordenado (s : Registro) : Prop where
  sano : ∀ (k : ℕ) (h : Hilo), s.hilos[k]? = some h → HiloSano h
  mutex : ∀ k, s.mutexWorkers = some k ↔ (s.hilos[k]?).any (fun h => retiene h.lugar) = true
  entradas : ∀ k, s.workers.filter (fun w => w.hilo = k) = (s.hilos[k]?).elim [] (propias k)

variable {s : Registro} {k : ℕ} {h h' : Hilo}

theorem ordenado_inicial : Ordenado inicial := by
  constructor
  · intro k h hk
    simp [inicial] at hk
  · intro k
    simp [inicial]
  · intro k
    rfl

/-- A step of the thread `k` has to be looked at for that thread alone. -/
theorem ordenado_set (hs : Ordenado s) (hk : s.hilos[k]? = some h) (hsano : HiloSano h')
    {mutex : Option ℕ} (hmutex : ∀ j, mutex = some j ↔
      if j = k then retiene h'.lugar = true else s.mutexWorkers = some j)
    {workers : List HiloWorker} (hworkers : ∀ j, workers.filter (fun w => w.hilo = j) =
      if j = k then propias k h' else s.workers.filter (fun w => w.hilo = j)) :
    Ordenado ⟨s.hilos.set k h', workers, mutex⟩ := by
  have hset : ∀ j, (s.hilos.set k h')[j]? = if j = k then some h' else s.hilos[j]? := by
    intro j
    by_cases hjk : j = k
    · rw [if_pos hjk, hjk]
      exact List.getElem?_set_self (List.getElem?_eq_some_iff.mp hk).1
    · rw [if_neg hjk]
      exact List.getElem?_set_ne (Ne.symm hjk)
  constructor
  · intro j h'' hj
    rw [hset] at hj
    split_ifs at hj with hjk
    · obtain rfl := Option.some.inj hj
      exact hsano
    · exact hs.sano j h'' hj
  · intro j
    rw [hmutex, hset]
    split_ifs with hjk
    · rfl
    · exact hs.mutex j
  · intro j
    rw [hworkers, hset]
    split_ifs with hjk
    · rw [hjk]
      rfl
    · exact hs.entradas j

theorem filter_workers (hs : Ordenado s) (hk : s.hilos[k]? = some h)
    (hpropias : propias k h' = propias k h) (j : ℕ) :
    s.workers.filter (fun w => w.hilo = j) =
      if j = k then propias k h' else s.workers.filter (fun w => w.hilo = j) := by
  by_cases hjk : j = k
  · rw [if_pos hjk, hs.entradas, hjk, hk, hpropias]
    rfl
  · rw [if_neg hjk]

/-- A step that leaves the mutex and the list alone. -/
theorem ordenado_avanzar (hs : Ordenado s) (hk : s.hilos[k]? = some h) (hsano : HiloSano h')
    (hretiene : retiene h'.lugar = retiene h.lugar) (hpropias : propias k h' = propias k h) :
    Ordenado { s with hilos := s.hilos.set k h' } := by
  apply ordenado_set hs hk hsano
  · intro j
    split_ifs with hjk
    · rw [hs.mutex, hjk, hk, hretiene]
      rfl
    · rfl
  · exact filter_workers hs hk hpropias

theorem filter_append_propia (k j : ℕ) (workers : List HiloWorker) (w : HiloWorker)
    (hw : w.hilo = k) : (workers ++ [w]).filter (fun w => w.hilo = j) =
      workers.filter (fun w => w.hilo = j) ++ if j = k then [w] else [] := by
  rw [List.filter_append]
  by_cases hjk : j = k
  · simp [hjk, hw]
  · simp [hjk, hw, Ne.symm hjk]

theorem ordenado_lock {s' : Registro} (hs : Ordenado s) (hk : s.hilos[k]? = some h)
    (hlugar : h.lugar = .lockAlta) (hop : lock s k h .agregar = .ok s') : Ordenado s' := by
  have hsaludo : h.saludo = true :=
    (hs.sano k h hk).saludo_eq (Or.inr (by rw [hlugar]; rfl))
  unfold lock at hop
  cases hmutex : s.mutexWorkers with
  | some j => simp [hmutex] at hop
  | none =>
    obtain rfl : { avanzar s k h .agregar with mutexWorkers := some k } = s' := by
      simpa [hmutex] using hop
    apply ordenado_set hs hk
    · exact hiloSano_of_saludo hsaludo (Or.inr (Or.inr rfl))
    · intro j
      by_cases hjk : j = k
      · simp [hjk, retiene]
      · simp [hjk, Ne.symm hjk, hmutex]
    · apply filter_workers hs hk
      simp [propias, hlugar]

theorem ordenado_unlock (hs : Ordenado s) (hk : s.hilos[k]? = some h)
    (hlugar : h.lugar = .unlockAlta) : Ordenado (unlock s k h .responder) := by
  have hsaludo : h.saludo = true :=
    (hs.sano k h hk).saludo_eq (Or.inr (by rw [hlugar]; rfl))
  have hmutex : s.mutexWorkers = some k := by
    apply (hs.mutex k).mpr
    simp [hk, hlugar, retiene]
  apply ordenado_set hs hk
  · exact hiloSano_of_saludo hsaludo (Or.inr (Or.inr rfl))
  · intro j
    by_cases hjk : j = k
    · simp [hjk, retiene]
    · simp [hjk, Ne.symm hjk, hmutex]
  · apply filter_workers hs hk
    simp [propias, hlugar]

theorem ordenado_agregar (hs : Ordenado s) (hk : s.hilos[k]? = some h)
    (hlugar : h.lugar = .agregar) : Ordenado { avanzar s k h .unlockAlta with
      workers := s.workers ++ [⟨h.workerId, h.fd, k⟩] } := by
  have hsaludo : h.saludo = true :=
    (hs.sano k h hk).saludo_eq (Or.inr (by rw [hlugar]; rfl))
  apply ordenado_set hs hk
  · exact hiloSano_of_saludo hsaludo (Or.inr (Or.inr rfl))
  · intro j
    by_cases hjk : j = k
    · rw [if_pos hjk]
      change s.mutexWorkers = some j ↔ _
      rw [hs.mutex, hjk, hk]
      simp [retiene, hlugar]
    · rw [if_neg hjk]
      rfl
  · intro j
    rw [filter_append_propia k j s.workers _ rfl]
    by_cases hjk : j = k
    · rw [if_pos hjk, if_pos hjk, hjk, hs.entradas, hk]
      simp [propias, hlugar, hsaludo]
    · rw [if_neg hjk, if_neg hjk, List.append_nil]

theorem ordenado_conecta (hs : Ordenado s) (fd : ℕ) :
    Ordenado { s with hilos := s.hilos ++ [⟨fd, .recibir, -1, false⟩] } := by
  have hconcat : ∀ j : ℕ, (s.hilos ++ [(⟨fd, .recibir, -1, false⟩ : Hilo)])[j]? =
      s.hilos[j]? ∨ s.hilos[j]? = none ∧
        (s.hilos ++ [(⟨fd, .recibir, -1, false⟩ : Hilo)])[j]? =
          some ⟨fd, .recibir, -1, false⟩ := by
    intro j
    rcases Nat.lt_trichotomy j s.hilos.length with hlt | rfl | hgt
    · exact Or.inl (List.getElem?_append_left hlt)
    · exact Or.inr ⟨List.getElem?_eq_none (Nat.le_refl _), by simp⟩
    · refine Or.inl ?_
      rw [List.getElem?_eq_none (Nat.le_of_lt hgt), List.getElem?_eq_none]
      rw [List.length_append]
      exact hgt
  constructor
  · intro j h hj
    rcases hconcat j with heq | ⟨-, heq⟩
    · exact hs.sano j h (heq ▸ hj)
    · obtain rfl := Option.some.inj (heq.symm.trans hj)
      exact ⟨fun _ => ⟨rfl, Or.inl rfl⟩, fun hno => absurd hno Bool.false_ne_true⟩
  · intro j
    rw [hs.mutex]
    rcases hconcat j with heq | ⟨hnone, heq⟩
    · rw [heq]
    · rw [heq, hnone]
      simp [retiene]
  · intro j
    rw [hs.entradas]
    rcases hconcat j with heq | ⟨hnone, heq⟩
    · rw [heq]
    · rw [heq, hnone]
      simp [propias]

theorem ordenado_recibirOperacion {op : Operacion} (hs : Ordenado s) (hk : s.hilos[k]? = some h)
    (hlugar : h.lugar = .recibir) (hnuevo : op ≠ .otra → h.saludo = false) :
    Ordenado (recibirOperacion s k h op) := by
  cases op with
  | otra => exact hs
  | pedirTamBloque =>
    apply ordenado_avanzar hs hk
    · exact hiloSano_of_saludo rfl (Or.inr (Or.inl rfl))
    · simp [hlugar, retiene]
    · simp [propias, hnuevo Operacion.noConfusion]
  | desconexion =>
    have hsaludo := hnuevo Operacion.noConfusion
    have hid := ((hs.sano k h hk).nuevo hsaludo).1
    simp only [recibirOperacion, hid, ne_eq, not_true_eq_false, if_false]
    apply ordenado_avanzar hs hk
    · exact ⟨fun _ => ⟨hid, Or.inr (Or.inl rfl)⟩,
        fun hsi => absurd (hsaludo.symm.trans hsi) Bool.false_ne_true⟩
    · simp [hlugar, retiene]
    · simp [propias, hsaludo]

/-- One case for each place a thread can be in. -/
theorem ordenado_atenderWorker {s' : Registro} (hs : Ordenado s) (hk : s.hilos[k]? = some h)
    (hop : atenderWorker s k h = .ok s') : Ordenado s' := by
  have hsano := hs.sano k h hk
  cases hlugar : h.lugar with
  | lockAlta =>
    simp only [atenderWorker, hlugar] at hop
    exact ordenado_lock hs hk hlugar hop
  | agregar =>
    simp only [atenderWorker, hlugar] at hop
    obtain rfl := Except.ok.inj hop
    exact ordenado_agregar hs hk hlugar
  | unlockAlta =>
    simp only [atenderWorker, hlugar] at hop
    obtain rfl := Except.ok.inj hop
    exact ordenado_unlock hs hk hlugar
  | responder =>
    simp only [atenderWorker, hlugar] at hop
    obtain rfl := Except.ok.inj hop
    have hsaludo := hsano.saludo_eq (Or.inr (by rw [hlugar]; rfl))
    apply ordenado_avanzar hs hk
    · exact hiloSano_of_saludo hsaludo (Or.inl rfl)
    · simp [hlugar, retiene]
    · simp [propias, hlugar]
  | cerrar =>
    simp only [atenderWorker, hlugar] at hop
    obtain rfl := Except.ok.inj hop
    have hnuevo : h.saludo = false := by
      by_contra hno
      have hl := hsano.saludado (by simpa using hno)
      simp [hlugar, saludando] at hl
    apply ordenado_avanzar hs hk
    · exact ⟨fun hno => ⟨(hsano.nuevo hno).1, Or.inr (Or.inr rfl)⟩,
        fun hsi => absurd (hnuevo.symm.trans hsi) Bool.false_ne_true⟩
    · simp [hlugar, retiene]
    · simp [propias, hnuevo]
  | recibir => simp [atenderWorker, hlugar] at hop
  | leerId => simp [atenderWorker, hlugar] at hop
  | fin => simp [atenderWorker, hlugar] at hop
  | _ =>
    -- the places behind a disconnection are not reached
    cases hsaludo : h.saludo with
    | false =>
      obtain ⟨-, hl⟩ := hsano.nuevo hsaludo
      simp [hlugar] at hl
    | true =>
      have hl := hsano.saludado hsaludo
      simp [hlugar, saludando] at hl

/-- The step lemma. -/
theorem ordenado_paso {s' : Registro} {e : Evento} (hs : Ordenado s) (he : nadieSeVa s e = true)
    (hop : paso s e = .ok s') : Ordenado s' := by
  cases e with
  | conecta fd =>
    obtain rfl := Except.ok.inj hop
    exact ordenado_conecta hs fd
  | recibe k op =>
    cases hk : s.hilos[k]? with
    | none => simp [paso, hk] at hop
    | some h =>
      simp only [paso, hk] at hop
      split_ifs at hop with hlugar
      obtain rfl := Except.ok.inj hop
      refine ordenado_recibirOperacion hs hk hlugar fun hno => ?_
      cases op with
      | otra => exact absurd rfl hno
      | _ => simpa [nadieSeVa, hk] using he
  | recibeId k id =>
    cases hk : s.hilos[k]? with
    | none => simp [paso, hk] at hop
    | some h =>
      simp only [paso, hk] at hop
      split_ifs at hop with hlugar
      obtain rfl := Except.ok.inj hop
      have hsaludo := (hs.sano k h hk).saludo_eq (Or.inl hlugar)
      apply ordenado_avanzar hs hk
      · exact hiloSano_of_saludo hsaludo (Or.inr (Or.inr rfl))
      · simp [hlugar, retiene]
      · simp [propias, hlugar]
  | hilo k =>
    cases hk : s.hilos[k]? with
    | none => simp [paso, hk] at hop
    | some h =>
      simp only [paso, hk] at hop
      exact ordenado_atenderWorker hs hk hop

end Invariante

section Respuesta

variable {s t : Registro} {k j : ℕ} {h : Hilo}

theorem seResponde_paso (hop : paso s (.hilo j) = .ok t) (ht : SeResponde t k) :
    SeResponde s k := by
  obtain ⟨s', hreach, hlugar⟩ := ht
  exact ⟨s', reaches_head hop hreach, hlugar⟩

theorem paso_hilo (hk : s.hilos[k]? = some h) : paso s (.hilo k) = atenderWorker s k h := by
  simp only [paso, hk]

theorem getElem?_avanzar (hk : s.hilos[k]? = some h) (lugar : Lugar) :
    (avanzar s k h lugar).hilos[k]? = some { h with lugar := lugar } :=
  List.getElem?_set_self (List.getElem?_eq_some_iff.mp hk).1

theorem seResponde_responder (hk : s.hilos[k]? = some h) (hlugar : h.lugar = .responder) :
    SeResponde s k := by
  have hop : paso s (.hilo k) = .ok (avanzar s k h .recibir) := by
    rw [paso_hilo hk, atenderWorker, hlugar]
  apply seResponde_paso hop
  refine ⟨_, Reaches.refl _, ?_⟩
  rw [getElem?_avanzar hk]
  rfl

theorem seResponde_unlock (hk : s.hilos[k]? = some h) (hlugar : h.lugar = .unlockAlta) :
    SeResponde s k := by
  have hop : paso s (.hilo k) = .ok (unlock s k h .responder) := by
    rw [paso_hilo hk, atenderWorker, hlugar]
  apply seResponde_paso hop
  exact seResponde_responder (getElem?_avanzar hk .responder) rfl

theorem seResponde_agregar (hk : s.hilos[k]? = some h) (hlugar : h.lugar = .agregar) :
    SeResponde s k := by
  have hop : paso s (.hilo k) = .ok { avanzar s k h .unlockAlta with
      workers := s.workers ++ [⟨h.workerId, h.fd, k⟩] } := by
    rw [paso_hilo hk, atenderWorker, hlugar]
  apply seResponde_paso hop
  exact seResponde_unlock (getElem?_avanzar hk .unlockAlta) rfl

theorem seResponde_libre (hk : s.hilos[k]? = some h) (hlugar : h.lugar = .lockAlta)
    (hmutex : s.mutexWorkers = none) : SeResponde s k := by
  have hop : paso s (.hilo k) =
      .ok { avanzar s k h .agregar with mutexWorkers := some k } := by
    rw [paso_hilo hk, atenderWorker, hlugar]
    simp only [lock, hmutex]
  apply seResponde_paso hop
  exact seResponde_agregar (getElem?_avanzar hk .agregar) rfl

/-- The thread that holds the mutex gives it back in its own steps. -/
theorem seResponde_lock (hs : Ordenado s) (hk : s.hilos[k]? = some h)
    (hlugar : h.lugar = .lockAlta) : SeResponde s k := by
  have hunlock : ∀ {s : Registro} {j : ℕ} {h' : Hilo}, s.hilos[k]? = some h → j ≠ k →
      s.hilos[j]? = some h' → h'.lugar = .unlockAlta → SeResponde s k := by
    intro s j h' hk hjk hj hlugar'
    have hop : paso s (.hilo j) = .ok (unlock s j h' .responder) := by
      rw [paso_hilo hj, atenderWorker, hlugar']
    apply seResponde_paso hop
    refine seResponde_libre ?_ hlugar rfl
    exact (List.getElem?_set_ne hjk).trans hk
  cases hmutex : s.mutexWorkers with
  | none => exact seResponde_libre hk hlugar hmutex
  | some j =>
    have hretiene := (hs.mutex j).mp hmutex
    cases hj : s.hilos[j]? with
    | none => simp [hj] at hretiene
    | some h' =>
      have hjk : j ≠ k := by
        rintro rfl
        obtain rfl := Option.some.inj (hk.symm.trans hj)
        simp [hk, hlugar, retiene] at hretiene
      cases hlugar' : h'.lugar with
      | agregar =>
        have hop : paso s (.hilo j) = .ok { avanzar s j h' .unlockAlta with
            workers := s.workers ++ [⟨h'.workerId, h'.fd, j⟩] } := by
          rw [paso_hilo hj, atenderWorker, hlugar']
        apply seResponde_paso hop
        refine hunlock ?_ hjk (getElem?_avanzar hj .unlockAlta) rfl
        exact (List.getElem?_set_ne hjk).trans hk
      | unlockAlta => exact hunlock hk hjk hj hlugar'
      | _ => simp [hj, hlugar', retiene] at hretiene

theorem registroSano_of_ordenado (hs : Ordenado s) : RegistroSano s := by
  have hlibre : ∀ k h, s.hilos[k]? = some h → retiene h.lugar = false →
      s.mutexWorkers ≠ some k := by
    intro k h hk hretiene hmutex
    have := (hs.mutex k).mp hmutex
    simp [hk, hretiene] at this
  constructor
  · intro k h hk hpide
    apply hlibre k h hk
    cases hlugar : h.lugar <;> simp [hlugar, pideMutex, retiene] at hpide ⊢
  · intro k h hk hfin
    apply hlibre k h hk
    rw [hfin]
    rfl
  · intro hquieto k
    rw [hs.entradas]
    unfold entradas
    cases hk : s.hilos[k]? with
    | none => rfl
    | some h =>
      rcases hquieto h (List.mem_of_getElem? hk) with hlugar | hlugar
      · simp [propias, hlugar]
      · simp [propias, hlugar]
  · intro k h hk hsaludando
    cases hlugar : h.lugar with
    | lockAlta => exact seResponde_lock hs hk hlugar
    | agregar => exact seResponde_agregar hk hlugar
    | unlockAlta => exact seResponde_unlock hk hlugar
    | responder => exact seResponde_responder hk hlugar
    | _ => simp [hlugar, saludando] at hsaludando

end Respuesta

section Corrida

/-- While no Worker goes away after its handshake, the registry is as it should be in
every state of a run. -/
theorem registroSano_run {xs : List Evento}
    (hxs : EachStep paso (fun s e => nadieSeVa s e = true) inicial xs) :
    AlongRun paso RegistroSano inicial xs :=
  alongRun_of_eachStep (A := fun _ => True)
    (fun _ _ _ _ hs he hop => ordenado_paso hs he hop)
    (fun _ hs => registroSano_of_ordenado hs) ordenado_inicial (fun _ _ => trivial) hxs

/-- Two Workers whose handshakes overlap, and a connection that says nothing. -/
def saludos : List Evento :=
  [.conecta 4, .conecta 5, .conecta 6, .recibe 0 .pedirTamBloque, .recibe 1 .pedirTamBloque,
    .recibeId 0 (some 7), .hilo 0, .recibeId 1 (some 8), .hilo 0, .hilo 0, .hilo 1, .hilo 0,
    .recibe 2 .desconexion, .hilo 1, .hilo 1, .hilo 1, .hilo 2, .recibe 0 .otra]

theorem registroSano_saludos : AlongRun paso RegistroSano inicial saludos := by
  apply registroSano_run
  decide

/-- A Worker does its handshake and goes away. -/
def despedida : List Evento :=
  [.conecta 4, .recibe 0 .pedirTamBloque, .recibeId 0 (some 7), .hilo 0, .hilo 0, .hilo 0,
    .hilo 0, .recibe 0 .desconexion, .hilo 0]

theorem not_registroSano_despedida : ¬AlongRun paso RegistroSano inicial despedida := by
  intro h
  have hsano : RegistroSano ⟨[⟨4, .lockBaja, 7, true⟩], [⟨7, 4, 0⟩], some 0⟩ :=
    alongRun_last h rfl
  exact hsano.sin_relock 0 ⟨4, .lockBaja, 7, true⟩ rfl rfl rfl

end Corrida

end MasterOfFiles.WorkerRegistry
