import MasterOfFiles.BoundedRuns
import MasterOfFiles.ReportDelivery

/-!
That the network comes to rest with everything delivered. Each connection, packet,
message and READ stands for as many steps as it still needs, and every step but a new
connection takes one off, so no order of steps goes on for ever. In a state where no
such step can be taken, with a Worker connected and every run closed by an END, all the
Queries are over.
-/
namespace MasterOfFiles.DispatchCompletion

open PartialRuns RunTraces BoundedRuns ListSums SortedLists SchedulerState SchedulerSteps
open WorkerMessages QueryOwnership SemaphoreCounts
open DispatchNetwork DispatchViews ReportDelivery

variable {L : ListSort ℕ} {t : ℤ} {guion : ℕ → Guion} {r r' : Red} {s : Master} {m : Master}

section Carga

/-- The steps of a run with these READs to report, those of the Master that serve what it
reports included. -/
def cargaCorrida (faltan : List Lectura) (termina : Bool) : ℕ :=
  5 * faltan.length + if termina then 9 else 1

variable (guion : ℕ → Guion)

def cargaQuery (q : ℕ) : ℕ := 1 + cargaCorrida (guion q).lecturas (guion q).termina

def cargaPlanificador : Planificador → ℕ
  | .esperaWorker => 5
  | .desencolar => 4
  | .buscarWorker q => 3 + cargaQuery guion q
  | .asignar q _ => 2 + cargaQuery guion q
  | .enviar q _ _ => 1 + cargaQuery guion q
  | _ => 0

/-- A Query Control's thread carries the steps of its Query until it is in READY. -/
def cargaHilo (k : ℕ) : Hilo → ℕ
  | .crearQuery _ _ => 11 + cargaQuery guion k
  | .registrarQuery _ _ _ => 10 + cargaQuery guion k
  | .encolar q _ => 9 + cargaQuery guion q
  | .avisarQuery _ => 8
  | .bucleQuery => 1
  | .altaWorker _ => 2
  | .avisarWorker => 1
  | .buscar _ => 7
  | .atender _ _ => 6
  | .recibirFin _ _ _ => 5
  | .registrarLibre _ _ => 4
  | .avisarLibre _ => 3
  | .enviarFin _ => 2
  | .liberarQuery _ => 1
  | _ => 0

def cargaAviso : Aviso → ℕ
  | .lectura _ => 4
  | .fin _ => 8

def cargaLector : Lector → ℕ
  | .buscar _ => 3
  | .atender _ _ => 2
  | .enviar _ _ => 1

def cargaHiloEn (s : Master) (k : ℕ) : ℕ := (s.hilos[k]?.map (cargaHilo guion k)).getD 0

/-- What is between the Master and one Worker. -/
def cargaVia (r : Red) (k : ℕ) : ℕ :=
  total (fun p => cargaQuery guion p.query) (r.alWorker k) +
    ((r.corrida k).map fun c => cargaCorrida c.faltan (guion c.query).termina).getD 0 +
    total cargaAviso (r.alMaster k) + ((r.lector k).map cargaLector).getD 0

def cargaMaster (s : Master) : ℕ :=
  6 * s.semQueriesPendientes + total (cargaQuery guion) s.colaReadyFIFO +
    cargaPlanificador guion s.planificador +
    total (cargaHiloEn guion s) (List.range s.hilos.length)

/-- The steps that are left before the network is at rest. -/
def carga (r : Red) : ℕ :=
  cargaMaster guion r.master + total (cargaVia guion r) (List.range r.master.hilos.length)

end Carga

section Pasos

/-- A step of the network that is not a new connection. -/
def Interna : Accion → Prop
  | .master (.conectaQuery _ _) => False
  | .master (.conectaWorker _) => False
  | _ => True

/-- Nor does a Query Control close its own. -/
def Propia : Accion → Prop
  | .master (.mensaje _ _) => False
  | a => Interna a

theorem interna_of_propia {a : Accion} (h : Propia a) : Interna a := by
  cases a with
  | master e =>
    cases e with
    | mensaje k m => exact trivial
    | _ => exact h
  | _ => exact h

theorem largo_of_queryDe (hs : EnLinea s) {w q : ℕ} (hw : queryDe s w = some q) :
    w < s.hilos.length := by
  obtain ⟨hl, hk, _⟩ := hs.custodia.fichas.establecidas w (ejecuta_pos hs hw).2
  exact (List.getElem?_eq_some_iff.mp hk).1

/-- A thread moves on, and may post to semQueriesPendientes or append to READY. -/
theorem cargaMaster_hilo (guion : ℕ → Guion) {k a b : ℕ} {hl hl' : Hilo}
    (hk : s.hilos[k]? = some hl) (hh : m.hilos = s.hilos.set k hl')
    (hsem : m.semQueriesPendientes = s.semQueriesPendientes + a)
    (hcola : total (cargaQuery guion) m.colaReadyFIFO =
      total (cargaQuery guion) s.colaReadyFIFO + b)
    (hplan : m.planificador = s.planificador) :
    cargaMaster guion m + cargaHilo guion k hl =
      cargaMaster guion s + cargaHilo guion k hl' + 6 * a + b := by
  have hlt := (List.getElem?_eq_some_iff.mp hk).1
  have huno : total (cargaHiloEn guion m) (List.range s.hilos.length) + cargaHiloEn guion s k =
      total (cargaHiloEn guion s) (List.range s.hilos.length) + cargaHiloEn guion m k :=
    total_of_ne List.nodup_range (List.mem_range.mpr hlt) fun i _ hi => by
      unfold cargaHiloEn
      rw [hh, List.getElem?_set_ne (Ne.symm hi)]
  have hold : cargaHiloEn guion s k = cargaHilo guion k hl := by simp [cargaHiloEn, hk]
  have hnew : cargaHiloEn guion m k = cargaHilo guion k hl' := by
    unfold cargaHiloEn
    rw [hh, List.getElem?_set_self hlt]
    rfl
  unfold cargaMaster
  rw [hsem, hcola, hplan, hh, List.length_set]
  omega

theorem length_hilos {e : Evento} (hm : MovimientoDeRed s e m) (hint : Interna (.master e)) :
    m.hilos.length = s.hilos.length := by
  cases hm with
  | conectaQuery path prioridad => exact absurd hint id
  | conectaWorker id => exact absurd hint False.elim
  | _ => simp

/-- A step of the Master takes one off, besides what it sends to a Worker. -/
theorem cargaMaster_movimiento (guion : ℕ → Guion) {e : Evento} (hm : MovimientoDeRed s e m)
    (hint : Interna (.master e)) (he : ∀ k n, e ≠ .mensaje k (.finQuery (some n))) :
    cargaMaster guion m + ((paqueteEnviado s e).map fun p => cargaQuery guion p.2.query).getD 0 <
      cargaMaster guion s := by
  have hmueve : ∀ {k : ℕ} {hl hl' : Hilo}, s.hilos[k]? = some hl → m.hilos = s.hilos.set k hl' →
      m.semQueriesPendientes = s.semQueriesPendientes → m.colaReadyFIFO = s.colaReadyFIFO →
      m.planificador = s.planificador → cargaHilo guion k hl' < cargaHilo guion k hl →
      cargaMaster guion m < cargaMaster guion s := by
    intro k hl hl' hk hh hsem hcola hplan hlt
    have hcarga := cargaMaster_hilo guion (a := 0) (b := 0) hk hh hsem
      (by rw [hcola, Nat.add_zero]) hplan
    omega
  have hquietos : m.hilos = s.hilos → total (cargaHiloEn guion m) (List.range m.hilos.length) =
      total (cargaHiloEn guion s) (List.range s.hilos.length) := fun h => by
    unfold cargaHiloEn
    rw [h]
  cases hm with
  | conectaQuery path prioridad => exact absurd hint id
  | conectaWorker id => exact absurd hint False.elim
  | recibe k n hk => exact absurd rfl (he k n)
  | esperaQuery hp hsem =>
    unfold cargaMaster
    rw [hquietos rfl, hp]
    simp only [paqueteEnviado, hp, cargaPlanificador, Option.map_none, Option.getD_none]
    omega
  | esperaWorker hp hsem =>
    unfold cargaMaster
    rw [hquietos rfl, hp]
    simp only [paqueteEnviado, hp, cargaPlanificador, Option.map_none, Option.getD_none]
    omega
  | desencola q l hp hcola =>
    unfold cargaMaster
    rw [hquietos rfl, hp, hcola]
    simp only [paqueteEnviado, hp, cargaPlanificador, total_cons, Option.map_none,
      Option.getD_none]
    omega
  | tomaWorker q w y hp hlibre hy =>
    unfold cargaMaster
    rw [hquietos rfl, hp]
    simp only [paqueteEnviado, hp, cargaPlanificador, Option.map_none, Option.getD_none]
    omega
  | asigna q w x y hp hq hw hy =>
    unfold cargaMaster
    rw [hquietos rfl, hp]
    simp only [paqueteEnviado, hp, cargaPlanificador, Option.map_none, Option.getD_none]
    omega
  | envia q w p hp =>
    unfold cargaMaster
    rw [hquietos rfl, hp]
    simp only [paqueteEnviado, hp, cargaPlanificador, Option.map_some, Option.getD_some]
    omega
  | encola k q hk =>
    have hcarga := cargaMaster_hilo guion (a := 0) (b := cargaQuery guion q) (m := {
      s with
      colaReadyFIFO := s.colaReadyFIFO ++ [q]
      hilos := s.hilos.set k (.avisarQuery .query) }) hk rfl rfl (by simp) rfl
    simp only [cargaHilo] at hcarga
    simp only [paqueteEnviado, Option.map_none, Option.getD_none]
    omega
  | avisaQuery k hk =>
    have hcarga := cargaMaster_hilo guion (a := 1) (b := 0) (m := {
      s with
      semQueriesPendientes := s.semQueriesPendientes + 1
      hilos := s.hilos.set k .bucleQuery }) hk rfl rfl rfl rfl
    simp only [cargaHilo] at hcarga
    simp only [paqueteEnviado, Option.map_none, Option.getD_none]
    omega
  | _ =>
    refine hmueve (by assumption) rfl rfl rfl rfl ?_
    simp [cargaHilo]

/-- What is between the Master and one Worker changes. -/
theorem vias_de_una (guion : ℕ → Guion) (r r' : Red) {k n : ℕ} (hk : k < n)
    (hotros : ∀ i, i ≠ k → cargaVia guion r' i = cargaVia guion r i) :
    total (cargaVia guion r') (List.range n) + cargaVia guion r k =
      total (cargaVia guion r) (List.range n) + cargaVia guion r' k :=
  total_of_ne List.nodup_range (List.mem_range.mpr hk) fun i _ hi => hotros i hi

theorem carga_master (hr : Entregando guion r) {e : Evento} (hd : deRed r.master e = true)
    (hint : Interna (.master e)) (h : paso L ⟨.fifo, t⟩ r.master e = .ok m) :
    carga guion { r with
      master := m
      alWorker := conPaquete r.alWorker (paqueteEnviado r.master e)
      alControl := conFin r.alControl (finEnviado r.master e) } < carga guion r := by
  have hm := movimientoDeRed_of_paso hr.linea (finesAtendidos_of_entregando hr) (Or.inl hd) h
  have he : ∀ k n, e ≠ .mensaje k (.finQuery (some n)) := by
    rintro k n rfl
    simp [deRed] at hd
  have hmaster := cargaMaster_movimiento guion hm hint he
  unfold carga
  rw [show m.hilos.length = r.master.hilos.length from length_hilos hm hint]
  cases hpaq : paqueteEnviado r.master e with
  | none =>
    rw [hpaq] at hmaster
    have hvias : total (cargaVia guion { r with
        master := m
        alControl := conFin r.alControl (finEnviado r.master e) })
        (List.range r.master.hilos.length) =
        total (cargaVia guion r) (List.range r.master.hilos.length) := rfl
    simp only [Option.map_none, Option.getD_none] at hmaster
    simp only [conPaquete]
    omega
  | some p =>
    obtain ⟨w, p⟩ := p
    rw [hpaq] at hmaster
    have hsale : saliente r.master = some (w, p) := by
      cases e with
      | planificador envio =>
        cases envio with
        | true => exact hpaq
        | false => cases hpaq
      | _ => cases hpaq
    obtain ⟨q, hq, -⟩ := activo_of_not_ocioso hr (w := w) fun h => h.saliente p hsale
    have hvias := vias_de_una guion r { r with
      master := m
      alWorker := agregar r.alWorker w p
      alControl := conFin r.alControl (finEnviado r.master e) }
      (largo_of_queryDe hr.linea hq) fun i hi => by
        simp [cargaVia, agregar, Function.update_of_ne hi]
    have hvia : cargaVia guion { r with
        master := m
        alWorker := agregar r.alWorker w p
        alControl := conFin r.alControl (finEnviado r.master e) } w =
        cargaVia guion r w + cargaQuery guion p.query := by
      simp [cargaVia, agregar]
      omega
    simp only [Option.map_some, Option.getD_some] at hmaster
    simp only [conPaquete]
    omega

/-- Something between the Master and a Worker moves on, which takes a step off. -/
theorem carga_via (hr : Entregando guion r) {w : ℕ} (hactivo : ¬ Ocioso r w)
    (hm : r'.master = r.master)
    (hotros : ∀ i, i ≠ w → cargaVia guion r' i = cargaVia guion r i)
    (hmenos : cargaVia guion r' w < cargaVia guion r w) : carga guion r' < carga guion r := by
  obtain ⟨q, hq, -⟩ := activo_of_not_ocioso hr hactivo
  have hvias := vias_de_una guion r r' (largo_of_queryDe hr.linea hq) hotros
  unfold carga
  rw [hm]
  omega

theorem cargaVia_lector {k : ℕ} {l : Lector} {o : Option Lector} {f : ℕ → List Entrega}
    (hl : r.lector k = some l) (ho : (o.map cargaLector).getD 0 < cargaLector l) :
    cargaVia guion { r with lector := Function.update r.lector k o, alControl := f } k <
      cargaVia guion r k := by
  simp only [cargaVia, Function.update_self, hl, Option.map_some, Option.getD_some]
  omega

/-- The end of a run goes from the connection to the thread that serves it. -/
theorem carga_mensaje (hr : Entregando guion r) {k n : ℕ} {resto : List Aviso}
    (ha : r.alMaster k = .fin n :: resto)
    (h : paso L ⟨.fifo, t⟩ r.master (.mensaje k (.finQuery (some n))) = .ok m) :
    carga guion { r with master := m, alMaster := Function.update r.alMaster k resto } <
      carga guion r := by
  obtain ⟨q, hq, -⟩ := activo_of_not_ocioso hr (w := k) fun h => by simp [h.alMaster] at ha
  have hm := movimientoDeRed_of_paso hr.linea (finesAtendidos_of_entregando hr)
    (Or.inr ⟨k, n, rfl⟩) h
  have hvias := vias_de_una guion r { r with
    master := m
    alMaster := Function.update r.alMaster k resto } (largo_of_queryDe hr.linea hq) fun i hi => by
      simp [cargaVia, Function.update_of_ne hi]
  have hvia : cargaVia guion { r with
      master := m
      alMaster := Function.update r.alMaster k resto } k + 8 = cargaVia guion r k := by
    simp [cargaVia, ha, cargaAviso]
    omega
  unfold carga
  rw [show m.hilos.length = r.master.hilos.length from length_hilos hm trivial]
  cases hm with
  | recibe k n hk =>
    have hmaster := cargaMaster_hilo guion (a := 0) (b := 0) (m := { r.master with
      hilos := r.master.hilos.set k (.buscar (.finQuery (some n))) }) hk rfl rfl rfl rfl
    simp only [cargaHilo] at hmaster
    dsimp only
    omega

/-- Every step but a new connection takes one off. -/
theorem carga_paso (hr : Entregando guion r) {a : Accion} (hint : Interna a)
    (h : pasoRed L t guion r a = .ok r') : carga guion r' < carga guion r := by
  cases avance_of_pasoRed h with
  | master e m hd hm => exact carga_master hr hd hint hm
  | toma w q qid pc path resto hc hw =>
    refine carga_via hr (w := w) (fun h => ?_) rfl (fun i hi => ?_) ?_
    · rw [h.alWorker] at hw
      cases hw
    · simp [cargaVia, Function.update_of_ne hi]
    · simp [cargaVia, hw, hc, cargaQuery]
      omega
  | informa w q qid l ls hc =>
    refine carga_via hr (w := w) (fun h => ?_) rfl (fun i hi => ?_) ?_
    · rw [h.corrida] at hc
      cases hc
    · simp [cargaVia, agregar, Function.update_of_ne hi]
    · simp [cargaVia, agregar, hc, cargaCorrida, cargaAviso]
      omega
  | vuelve w q qid hc =>
    refine carga_via hr (w := w) (fun h => ?_) rfl (fun i hi => ?_) ?_
    · rw [h.corrida] at hc
      cases hc
    · split_ifs <;> simp [cargaVia, agregar, Function.update_of_ne hi]
    · by_cases hfin : (guion q).termina = true
      · simp [cargaVia, agregar, hc, cargaCorrida, cargaAviso, hfin]
        omega
      · simp [cargaVia, hc, cargaCorrida, hfin]
  | recibeLectura k l resto hl ha hk =>
    refine carga_via hr (w := k) (fun h => ?_) rfl (fun i hi => ?_) ?_
    · rw [h.alMaster] at ha
      cases ha
    · simp [cargaVia, Function.update_of_ne hi]
    · simp [cargaVia, hl, ha, cargaAviso, cargaLector]
      omega
  | recibeFin k n resto m hl ha hm => exact carga_mensaje hr ha hm
  | busca k l hl =>
    obtain ⟨hk, _⟩ := hr.lectores k _ hl
    refine carga_via hr (w := k) (fun h => ?_) rfl (fun i hi => ?_)
      (cargaVia_lector hl (by simp [cargaLector]))
    · simpa [leido_of_bucle hk, hl] using h.leido
    · simp [cargaVia, Function.update_of_ne hi]
  | sinWorker k l hl => exact absurd (hr.lectores k _ hl).2 (by simp [LectorVale])
  | atiende k w l y hl hy =>
    obtain ⟨hk, _⟩ := hr.lectores k _ hl
    refine carga_via hr (w := k) (fun h => ?_) rfl (fun i hi => ?_) (cargaVia_lector hl ?_)
    · simpa [leido_of_bucle hk, hl] using h.leido
    · simp [cargaVia, Function.update_of_ne hi]
    · split_ifs
      · cases y.ejecutando <;> simp [cargaLector]
      · simp [cargaLector]
  | envia k q l x hl hx =>
    obtain ⟨hk, _⟩ := hr.lectores k _ hl
    refine carga_via hr (w := k) (fun h => ?_) rfl (fun i hi => ?_)
      (cargaVia_lector hl (by simp [cargaLector]))
    · simpa [leido_of_bucle hk, hl] using h.leido
    · simp [cargaVia, Function.update_of_ne hi]

end Pasos

section Reposo

/-- Nothing happens unless a connection opens or a Query Control closes. -/
abbrev EnCalma (L : ListSort ℕ) (t : ℤ) (guion : ℕ → Guion) (r : Red) : Prop :=
  Quiet (pasoRed L t guion) Propia r

theorem accion_no_avanza (hq : EnCalma L t guion r) {a : Accion} (hint : Propia a) :
    ¬(pasoRed L t guion r a).isOk = true := by
  rw [hq a hint]
  exact Bool.false_ne_true

theorem paso_no_avanza (hq : EnCalma L t guion r) {e : Evento} (hint : Propia (.master e))
    (hd : deRed r.master e = true) : ¬(paso L ⟨.fifo, t⟩ r.master e).isOk = true := by
  intro hok
  refine accion_no_avanza hq hint ?_
  simp only [pasoRed, pasoMaster, hd, if_true]
  cases h : paso L ⟨.fifo, t⟩ r.master e with
  | ok m => rfl
  | error f => simp [h, Except.isOk, Except.toBool] at hok

variable (hr : Entregando guion r) (hq : EnCalma L t guion r)
include hr hq

theorem hilo_no_avanza {k : ℕ} {hl : Hilo} (hk : r.master.hilos[k]? = some hl) :
    ¬(atenderCliente L ⟨.fifo, t⟩ r.master k hl).isOk = true := by
  rw [← hr.linea.paso_hilo true L t hk]
  exact paso_no_avanza hq trivial rfl

/-- A thread waits only in its loop, or is done. -/
theorem hilo_quieto {k : ℕ} {hl : Hilo} (hk : r.master.hilos[k]? = some hl) :
    hl = .bucleWorker ∨ hl = .bucleQuery ∨ hl = .finQuery := by
  have hno := hilo_no_avanza hr hq hk
  have hpapel := hr.linea.papel_ne_otro hk
  have hfines := finesAtendidos_of_entregando hr
  have hfichas := hr.linea.custodia.fichas
  cases hl with
  | crearQuery path prioridad => exact absurd rfl hno
  | registrarQuery path prioridad qid => exact absurd rfl hno
  | bucleQuery => exact Or.inr (Or.inl rfl)
  | finQuery => exact Or.inr (Or.inr rfl)
  | altaWorker id =>
    refine absurd ?_ hno
    simp only [atenderCliente, hr.linea.mutex, Bool.false_eq_true, if_false]
    rfl
  | avisarWorker => exact absurd rfl hno
  | bucleWorker => exact Or.inl rfl
  | buscar msg =>
    refine absurd ?_ hno
    simp only [atenderCliente, hr.linea.mutex, Bool.false_eq_true, if_false]
    rfl
  | atender msg w =>
    obtain ⟨n, hk'⟩ := fin_of_atender hr.linea hk
    obtain ⟨q, hquery, _⟩ := hfines k n (papelDe_of_hilo hk')
    obtain ⟨y, hy, hejecuta⟩ := Option.bind_eq_some_iff.mp hquery
    refine absurd ?_ (hilo_no_avanza hr hq hk')
    simp only [atenderCliente, finQuery, hy, hejecuta]
    rfl
  | recibirFin qid q w =>
    cases qid with
    | none => exact absurd rfl hpapel
    | some n =>
      obtain ⟨rfl, _, y, hy, _, _, hejecuta⟩ := hfichas.hilos k _ hk
      obtain ⟨q', hquery, hnum⟩ := hfines _ n (papelDe_of_hilo hk)
      obtain rfl : q = q' := by simpa [queryDe, hy, hejecuta] using hquery
      obtain ⟨x, hx, rfl⟩ := Option.map_eq_some_iff.mp hnum
      refine absurd ?_ hno
      simp only [atenderCliente, recibirFin, hx, hy, if_true]
      rfl
  | registrarLibre w tr =>
    obtain ⟨rfl, _, y, hy, _⟩ := hfichas.hilos k _ hk
    refine absurd ?_ hno
    simp only [atenderCliente, hr.linea.mutex, Bool.false_eq_true, if_false, hy]
    rfl
  | avisarLibre tr => exact absurd rfl hno
  | enviarFin q =>
    obtain ⟨hsome, _⟩ := hr.cierres k q false (papelDe_of_hilo hk)
    obtain ⟨x, hx, _⟩ := Option.map_eq_some_iff.mp (Option.get_mem hsome)
    refine absurd ?_ hno
    simp only [atenderCliente, hx]
    rfl
  | liberarQuery q =>
    obtain ⟨hsome, _⟩ := hr.cierres k q true (papelDe_of_hilo hk)
    obtain ⟨x, hx, _⟩ := Option.map_eq_some_iff.mp (Option.get_mem hsome)
    refine absurd ?_ hno
    simp only [atenderCliente, hx]
    rfl
  | finDesconexion w q => exact absurd rfl hpapel
  | liberarWorker w => exact absurd rfl hpapel
  | finWorker => exact absurd rfl hpapel
  | encolar q v => exact absurd rfl hno
  | avisarQuery v => exact absurd rfl hno
  | verificar d v => exact absurd rfl hpapel

/-- No thread is in the branch of a READ. -/
theorem lector_quieto (k : ℕ) : r.lector k = none := by
  cases hl : r.lector k with
  | none => rfl
  | some l =>
    exfalso
    obtain ⟨hk, hvale⟩ := hr.lectores k l hl
    have hno := accion_no_avanza (a := .lee k) hq trivial
    cases l with
    | buscar l =>
      refine hno ?_
      simp only [pasoRed, leer, hl, hr.linea.mutex, Bool.false_eq_true, if_false]
      rfl
    | atender l w =>
      obtain rfl := hvale
      obtain ⟨y, hy, _⟩ := hr.linea.custodia.fichas.vivas k (hr.linea.listado hk trivial)
      refine hno ?_
      simp only [pasoRed, leer, hl, hy]
      rfl
    | enviar l q =>
      obtain ⟨n, _, _, hnum, _⟩ := hr.ocupados k q hvale.1
      obtain ⟨x, hx, _⟩ := Option.map_eq_some_iff.mp hnum
      refine hno ?_
      simp only [pasoRed, leer, hl, hx]
      rfl

theorem bucle_quieto {k : ℕ} (hk : k ∈ r.master.listaWorkersConectados) :
    r.master.hilos[k]? = some .bucleWorker := by
  obtain ⟨hl, hhl, _⟩ := hr.linea.custodia.fichas.establecidas k hk
  rcases hilo_quieto hr hq hhl with rfl | rfl | rfl
  · exact hhl
  all_goals
    have hsirve := (hr.linea.listados k).mpr hk
    rw [papelDe_of_hilo hhl] at hsirve
    exact absurd hsirve id

/-- Nothing is left on a connection to the Master. -/
theorem alMaster_quieto (k : ℕ) : r.alMaster k = [] := by
  cases ha : r.alMaster k with
  | nil => rfl
  | cons a resto =>
    exfalso
    obtain ⟨q, hquery, _⟩ := activo_of_not_ocioso hr (w := k) fun h => by simp [h.alMaster] at ha
    have hk := bucle_quieto hr hq (ejecuta_pos hr.linea hquery).2
    have hno := accion_no_avanza (a := .recibe k) hq trivial
    cases a with
    | lectura l =>
      refine hno ?_
      simp only [pasoRed, recibir, lector_quieto hr hq k, ha, hk, if_true]
      rfl
    | fin n =>
      have hpaso : paso L ⟨.fifo, t⟩ r.master (.mensaje k (.finQuery (some n))) =
          .ok { r.master with hilos := r.master.hilos.set k (.buscar (.finQuery (some n))) } := by
        unfold paso
        rw [if_pos hr.linea.correr]
        simp only [hk, recibirOperacion]
      refine hno ?_
      simp only [pasoRed, recibir, lector_quieto hr hq k, ha, hpaso]
      rfl

omit hr in
theorem corrida_quieta (w : ℕ) : r.corrida w = none := by
  cases hc : r.corrida w with
  | none => rfl
  | some c =>
    exfalso
    obtain ⟨q, qid, faltan⟩ := c
    have hno := accion_no_avanza (a := .informa w) hq trivial
    cases faltan with
    | nil =>
      refine hno ?_
      simp only [pasoRed, informar, hc]
      rfl
    | cons l ls =>
      refine hno ?_
      simp only [pasoRed, informar, hc]
      rfl

/-- The planner waits for a Query or for a Worker. -/
theorem planificador_quieto :
    (r.master.planificador = .esperaQuery ∧ r.master.semQueriesPendientes = 0) ∨
      (r.master.planificador = .esperaWorker ∧ r.master.semWorkersDisponibles = 0) := by
  have hno := paso_no_avanza (e := .planificador true) hq trivial rfl
  have hpaso : paso L ⟨.fifo, t⟩ r.master (.planificador true) =
      planificadorFifo r.master true := by
    unfold paso
    rw [if_pos hr.linea.correr]
  rw [hpaso] at hno
  have hplan := hr.linea.planifica
  unfold planificadorFifo at hno
  cases hp : r.master.planificador with
  | esperaQuery =>
    refine Or.inl ⟨rfl, ?_⟩
    by_contra hsem
    simp only [hp, if_neg hsem] at hno
    exact hno rfl
  | esperaWorker =>
    refine Or.inr ⟨rfl, ?_⟩
    by_contra hsem
    simp only [hp, if_neg hsem] at hno
    exact hno rfl
  | desencolar =>
    simp only [hp] at hno
    cases hcola : r.master.colaReadyFIFO with
    | nil => exact absurd rfl (hcola ▸ hno)
    | cons q l => exact absurd rfl (hcola ▸ hno)
  | buscarWorker q =>
    simp only [hp, hr.linea.mutex, Bool.false_eq_true, if_false] at hno
    cases hlibre : obtenerWorkerLibre r.master with
    | none => exact absurd rfl (hlibre ▸ hno)
    | some w => exact absurd rfl (hlibre ▸ hno)
  | asignar q w =>
    have hvive : vive r.master q = 1 := by
      have hub := hr.linea.custodia.ubicadas hr.linea.correr q
      have hle := lugares_le hr.linea q
      have hcon : conPlanificador r.master q = 1 := by simp [conPlanificador, hp, sinAsignar]
      unfold Ubicada at hub
      unfold lugares at hub hle
      omega
    obtain ⟨x, hx⟩ : ∃ x, r.master.memQueries q = some x := by
      rw [← Option.isSome_iff_exists]
      by_contra hno
      simp [vive, hno] at hvive
    have hin := hr.linea.custodia.tomada q w hp
    obtain ⟨y, hy, _⟩ := hr.linea.custodia.fichas.vivas w hin
    simp only [hp, hx, hy] at hno
    exact absurd rfl hno
  | enviar q w p =>
    simp only [hp] at hno
    exact absurd rfl hno
  | reencolar q => exact absurd hp (hplan.2.2 q)
  | postQuery => exact absurd hp hplan.1
  | postWorker => exact absurd hp hplan.2.1

theorem saliente_quieto : saliente r.master = none := by
  unfold saliente
  rcases planificador_quieto hr hq with ⟨hp, _⟩ | ⟨hp, _⟩
  · rw [hp]
  · rw [hp]

/-- A run that an END closes does not come to rest half way. -/
theorem queryDe_quieta (htermina : ∀ q, (guion q).termina = true) (w : ℕ) :
    queryDe r.master w = none := by
  cases hquery : queryDe r.master w with
  | none => rfl
  | some q =>
    exfalso
    obtain ⟨n, hechas, faltan, _, hmarcha, _, htodo⟩ := hr.ocupados w q hquery
    have hk := bucle_quieto hr hq (ejecuta_pos hr.linea hquery).2
    have hleido : leido r w = [] := by simp [leido_of_bucle hk, lector_quieto hr hq w]
    rw [hleido, alMaster_quieto hr hq w] at htodo
    cases hmarcha with
    | porEnviar path hs hw hc =>
      rw [saliente_quieto hr hq] at hs
      cases hs
    | enCamino path hs hw hc =>
      refine accion_no_avanza (a := .toma w) hq trivial ?_
      simp only [pasoRed, tomar, hw, hc]
      rfl
    | corriendo ls hs hw hc =>
      rw [corrida_quieta hq w] at hc
      cases hc
    | hecha hs hw hc =>
      have hfin : Aviso.fin n ∈ avisos (guion q) n := by simp [avisos, htermina]
      rw [← htodo] at hfin
      simp at hfin

/-- At rest every Query has been freed, if there is a Worker. -/
theorem memQueries_quieta (htermina : ∀ q, (guion q).termina = true)
    (hlista : r.master.listaWorkersConectados ≠ []) (q : ℕ) : r.master.memQueries q = none := by
  have hexactos := semaforosExactos_of_contado hr.linea.contado
  have hplan := planificador_quieto hr hq
  have hreposo : EnReposo r.master := by
    refine ⟨hplan.imp And.left And.left, fun hl hin => ?_⟩
    obtain ⟨k, hk⟩ := List.getElem?_of_mem hin
    rcases hilo_quieto hr hq hk with rfl | rfl | rfl <;> rfl
  -- every listed Worker is free
  have hlibres : libres r.master = r.master.listaWorkersConectados.length := by
    have hcuenta : ∀ w ∈ r.master.listaWorkersConectados,
        cuentaLibre (r.master.memWorkers w) = 1 := by
      intro w hw
      obtain ⟨y, hy, _⟩ := hr.linea.custodia.fichas.vivas w hw
      have hnone : y.ejecutando = none := by
        simpa [queryDe, hy] using queryDe_quieta hr hq htermina w
      cases hlibre : y.libre with
      | true => simp [hy, cuentaLibre, hlibre]
      | false =>
        rcases hr.linea.ocupados w y hy hlibre hnone with ⟨p, hp⟩ | ⟨tr, htr⟩
        · rcases hplan with ⟨h, _⟩ | ⟨h, _⟩
          · cases h.symm.trans hp
          · cases h.symm.trans hp
        · rcases hilo_quieto hr hq htr with h | h | h <;> cases h
    unfold libres
    rw [total_congr (g := fun _ => 1) hcuenta, total_const, Nat.mul_one]
  have hpos := List.length_pos_iff.mpr hlista
  have hcola : r.master.colaReadyFIFO = [] ∧ r.master.planificador = .esperaQuery := by
    rcases hplan with ⟨hp, hsem⟩ | ⟨hp, hsem⟩
    · have hqueries := hexactos.queries hreposo
      rw [hp, hsem] at hqueries
      exact ⟨List.eq_nil_of_length_eq_zero hqueries.symm, hp⟩
    · have hworkers := hexactos.workers hreposo
      rw [hp, hsem, hlibres] at hworkers
      simp only [unidadWorker] at hworkers
      omega
  -- nobody holds a Query
  have hmanos : ∀ hl ∈ r.master.hilos, enManos hl = [] ∧ porEntrar hl = [] := by
    intro hl hin
    obtain ⟨k, hk⟩ := List.getElem?_of_mem hin
    rcases hilo_quieto hr hq hk with rfl | rfl | rfl <;> exact ⟨rfl, rfl⟩
  have hcero : lugares r.master q = 0 := by
    have hworkers : enWorkers r.master q = 0 := by
      refine total_eq_zero fun w _ => ?_
      have hno : queryDe r.master w ≠ some q := by simp [queryDe_quieta hr hq htermina w]
      exact if_neg hno
    have hhilos : enHilos r.master q = 0 := total_eq_zero fun hl hin => by
      rw [(hmanos hl hin).1, List.count_nil]
    have hentra : entrando r.master q = 0 := total_eq_zero fun hl hin => by
      rw [(hmanos hl hin).2, List.count_nil]
    unfold lugares enCola conPlanificador
    rw [hcola.1, hcola.2, hworkers, hhilos, hentra]
    rfl
  have hub := hr.linea.custodia.ubicadas hr.linea.correr q
  unfold Ubicada at hub
  rw [hcero] at hub
  cases hx : r.master.memQueries q with
  | none => rfl
  | some x => simp [vive, hx] at hub

omit hq in
/-- A state is at rest if the threads are in their loops, the planner waits and no
Worker runs a Query. -/
theorem enCalma_of_reposo (L : ListSort ℕ) (t : ℤ)
    (hhilos : ∀ hl ∈ r.master.hilos, hl = .bucleWorker ∨ hl = .bucleQuery ∨ hl = .finQuery)
    (hplan : (r.master.planificador = .esperaQuery ∧ r.master.semQueriesPendientes = 0) ∨
      (r.master.planificador = .esperaWorker ∧ r.master.semWorkersDisponibles = 0))
    (hlibres : ∀ w ∈ r.master.listaWorkersConectados, queryDe r.master w = none) :
    EnCalma L t guion r := by
  have hociosos : ∀ w, Ocioso r w := fun w => by
    refine hr.ociosos w ?_
    cases hquery : queryDe r.master w with
    | none => rfl
    | some q =>
      have hnone := hlibres w (ejecuta_pos hr.linea hquery).2
      rw [hquery] at hnone
      cases hnone
  have hlector : ∀ k, r.lector k = none := fun k => by
    cases hl : r.lector k with
    | none => rfl
    | some l =>
      have hleido := (hociosos k).leido
      rw [leido_of_bucle (hr.lectores k l hl).1, hl] at hleido
      cases hleido
  intro a hint
  cases a with
  | master e =>
    cases e with
    | conectaQuery path prioridad => exact absurd hint id
    | conectaWorker id => exact absurd hint False.elim
    | mensaje k m => exact absurd hint False.elim
    | aging q => rfl
    | sigint => rfl
    | planificador envio =>
      cases envio with
      | false => rfl
      | true =>
        simp only [pasoRed, pasoMaster, deRed, if_true, paso, hr.linea.correr, planificadorFifo]
        rcases hplan with ⟨hp, hsem⟩ | ⟨hp, hsem⟩
        · simp only [hp, hsem, if_true]
          rfl
        · simp only [hp, hsem, if_true]
          rfl
    | hilo k envio =>
      cases envio with
      | false => rfl
      | true =>
        simp only [pasoRed, pasoMaster, deRed, if_true, paso, hr.linea.correr]
        cases hk : r.master.hilos[k]? with
        | none => rfl
        | some hl =>
          rcases hhilos hl (List.mem_of_getElem? hk) with rfl | rfl | rfl <;> rfl
  | toma w =>
    simp only [pasoRed, tomar, (hociosos w).corrida, (hociosos w).alWorker]
    rfl
  | informa w =>
    simp only [pasoRed, informar, (hociosos w).corrida]
    rfl
  | recibe k =>
    simp only [pasoRed, recibir, hlector k, (hociosos k).alMaster]
    rfl
  | lee k =>
    simp only [pasoRed, leer, hlector k]
    rfl

end Reposo

section Clases

inductive Clase
  | control
  | worker
  deriving DecidableEq

def clase : Hilo → Clase
  | .crearQuery _ _ => .control
  | .registrarQuery _ _ _ => .control
  | .encolar _ .query => .control
  | .avisarQuery .query => .control
  | .bucleQuery => .control
  | .finQuery => .control
  | _ => .worker

def claseDe : Accion → Option Clase
  | .master (.conectaQuery _ _) => some .control
  | .master (.conectaWorker _) => some .worker
  | _ => none

/-- Who opened each connection, in the order of the descriptors. -/
def conexiones (acciones : List Accion) : List Clase := acciones.filterMap claseDe

/-- A thread serves the same kind of connection to its end. -/
theorem clases_movimiento {e : Evento} (hm : MovimientoDeRed s e m) :
    m.hilos.map clase = s.hilos.map clase ++ (claseDe (.master e)).toList := by
  have hsigue : ∀ {k : ℕ} {hl : Hilo} (hl' : Hilo), s.hilos[k]? = some hl →
      clase hl' = clase hl → (s.hilos.set k hl').map clase = s.hilos.map clase := by
    intro k hl hl' hk hclase
    obtain ⟨hlt, rfl⟩ := List.getElem?_eq_some_iff.mp hk
    rw [List.map_set, hclase, ← List.map_set, List.set_getElem_self]
  cases hm with
  | conectaQuery path prioridad => simp [claseDe, clase]
  | conectaWorker id => simp [claseDe, clase]
  | esperaQuery hp hsem => simp [claseDe]
  | esperaWorker hp hsem => simp [claseDe]
  | desencola q l hp hcola => simp [claseDe]
  | tomaWorker q w y hp hlibre hy => simp [claseDe]
  | asigna q w x y hp hq hw hy => simp [claseDe]
  | envia q w p hp => simp [claseDe]
  | _ =>
    rw [show claseDe _ = none from rfl, Option.toList_none, List.append_nil]
    refine hsigue _ (by assumption) ?_
    rfl

theorem clases_paso (hr : Entregando guion r) {a : Accion} (h : pasoRed L t guion r a = .ok r') :
    r'.master.hilos.map clase = r.master.hilos.map clase ++ (claseDe a).toList := by
  have hfines := finesAtendidos_of_entregando hr
  cases avance_of_pasoRed h with
  | master e m hd hm =>
    exact clases_movimiento (movimientoDeRed_of_paso hr.linea hfines (Or.inl hd) hm)
  | recibeFin k n resto m hl ha hm =>
    exact clases_movimiento (movimientoDeRed_of_paso hr.linea hfines (Or.inr ⟨k, n, rfl⟩) hm)
  | _ => exact (List.append_nil _).symm

theorem clases_run {acciones : List Accion} (hr : Entregando guion r)
    (h : run (pasoRed L t guion) r acciones = .ok r') :
    r'.master.hilos.map clase = r.master.hilos.map clase ++ conexiones acciones := by
  induction acciones generalizing r with
  | nil =>
    cases h
    exact (List.append_nil _).symm
  | cons a acciones ih =>
    cases ha : pasoRed L t guion r a with
    | error f => simp [run, ha] at h
    | ok m =>
      rw [run_cons acciones ha] at h
      rw [ih (entregando_paso hr ha) h, clases_paso hr ha, List.append_assoc]
      congr 1
      cases hclase : claseDe a <;> simp [conexiones, hclase]

end Clases

section Cumplidas

/-- Each Query Control has been sent all its own, and nobody else anything. -/
def TodoEntregado (guion : ℕ → Guion) (clases : List Clase) (r : Red) : Prop :=
  ∀ k, r.alControl k = if clases[k]? = some .control then entregas (guion k) else []

theorem todoEntregado_of_enCalma (hr : Entregando guion r) (hq : EnCalma L t guion r)
    (htermina : ∀ q, (guion q).termina = true)
    (hworker : .worker ∈ r.master.hilos.map clase) :
    TodoEntregado guion (r.master.hilos.map clase) r := by
  have hlista : r.master.listaWorkersConectados ≠ [] := by
    obtain ⟨hl, hin, hclase⟩ := List.mem_map.mp hworker
    obtain ⟨k, hk⟩ := List.getElem?_of_mem hin
    rcases hilo_quieto hr hq hk with rfl | rfl | rfl
    · exact List.ne_nil_of_mem (hr.linea.listado hk trivial)
    · cases hclase
    · cases hclase
  intro k
  rw [List.getElem?_map]
  have hnum : numeroDe r.master k = none := by
    rw [numeroDe, memQueries_quieta hr hq htermina hlista k]
    rfl
  cases hk : r.master.hilos[k]? with
  | none =>
    rw [hr.ajenas k (by simp [papelDe, hk]), if_neg (by simp)]
  | some hl =>
    have hpapel := papelDe_of_hilo hk
    rcases hilo_quieto hr hq hk with rfl | rfl | rfl
    · rw [hr.ajenas k (by simp [hpapel, papel]), if_neg (by simp [clase])]
    · exact (hr.cumplidas k hpapel hnum).trans (if_pos rfl).symm
    · exact (hr.cumplidas k hpapel hnum).trans (if_pos rfl).symm

theorem todoEntregado_of_run (htermina : ∀ q, (guion q).termina = true) {acciones : List Accion}
    (h : run (pasoRed L t guion) redInicial acciones = .ok r) (hq : EnCalma L t guion r)
    (hworker : .worker ∈ conexiones acciones) : TodoEntregado guion (conexiones acciones) r := by
  have hclases := clases_run (entregando_inicial guion) h
  rw [show redInicial.master.hilos.map clase = [] from rfl, List.nil_append] at hclases
  rw [← hclases] at hworker ⊢
  exact todoEntregado_of_enCalma (entregando_run ⟨acciones, h⟩) hq htermina hworker

/-- Wherever the network comes to rest with a Worker connected, every Query Control that
has connected has been sent what the run of its Query reports, and its end, if no
connection was opened after one had been closed. -/
theorem todoEntregado_run (L : ListSort ℕ) (t : ℤ) (guion : ℕ → Guion)
    (htermina : ∀ q, (guion q).termina = true) (acciones : List Accion)
    (h : run (pasoSinReuso L t guion) redInicial acciones = .ok r) (hq : EnCalma L t guion r)
    (hworker : .worker ∈ conexiones acciones) : TodoEntregado guion (conexiones acciones) r :=
  todoEntregado_of_run htermina (run_of_sinReuso h) hq hworker

theorem todoEntregado_run_corrida :
    TodoEntregado (fun _ => unaLectura) [.control, .worker]
      (after (pasoRed (insertionSort ℕ) 0 fun _ => unaLectura) redInicial corridaEntregada) :=
  todoEntregado_run (insertionSort ℕ) 0 (fun _ => unaLectura) (fun _ => rfl) corridaEntregada
    (run_eq_after (by decide))
    (enCalma_of_reposo (entregando_run ⟨corridaEntregada, run_eq_after (by decide)⟩) _ _
      (by decide) (by decide) (by decide)) (by decide)

theorem decreasing_carga :
    Decreasing (pasoRed L t guion) Interna (Entregando guion) (carga guion) :=
  fun _ _ _ hint hr h => ⟨entregando_paso hr h, carga_paso hr hint h⟩

/-- Once nobody connects any more, the network takes no more steps than are left in it,
in any order, if no connection was opened after one had been closed. -/
theorem length_le_carga (L : ListSort ℕ) (t : ℤ) (guion : ℕ → Guion)
    (hr : Reaches (pasoSinReuso L t guion) redInicial r) {acciones : List Accion}
    (hint : ∀ a ∈ acciones, Interna a) (h : run (pasoRed L t guion) r acciones = .ok r') :
    acciones.length + carga guion r' ≤ carga guion r := by
  obtain ⟨previas, hprevias⟩ := hr
  have he := entregando_run ⟨previas, run_of_sinReuso hprevias⟩
  exact length_add_le decreasing_carga he hint h

theorem length_le_carga_corrida :
    (corridaEntregada.drop 2).length + carga (fun _ => unaLectura)
      (after (pasoRed (insertionSort ℕ) 0 fun _ => unaLectura) redInicial corridaEntregada) ≤
      carga (fun _ => unaLectura)
        (after (pasoRed (insertionSort ℕ) 0 fun _ => unaLectura) redInicial
          (corridaEntregada.take 2)) :=
  length_le_carga (insertionSort ℕ) 0 (fun _ => unaLectura)
    ⟨corridaEntregada.take 2, run_eq_after (by decide)⟩
    (by simp [corridaEntregada, Interna]) rfl

/-- Whatever has happened so far, as long as no connection was opened after one had been
closed, the network can still serve everybody on its own. -/
theorem exists_todoEntregado (L : ListSort ℕ) (t : ℤ) (guion : ℕ → Guion)
    (htermina : ∀ q, (guion q).termina = true) (acciones : List Accion)
    (hsin : run (pasoSinReuso L t guion) redInicial acciones = .ok r)
    (hworker : .worker ∈ conexiones acciones) :
    ∃ resto r', (∀ a ∈ resto, Propia a) ∧ run (pasoRed L t guion) r resto = .ok r' ∧
      EnCalma L t guion r' ∧ TodoEntregado guion (conexiones acciones) r' := by
  have h := run_of_sinReuso hsin
  have hr := entregando_run ⟨acciones, h⟩
  have hdecrece : Decreasing (pasoRed L t guion) Propia (Entregando guion) (carga guion) :=
    fun s a s' ha => decreasing_carga s a s' (interna_of_propia ha)
  obtain ⟨resto, r', hresto, hrun, hquiet⟩ := exists_quiet hdecrece hr
  have hnuevas : conexiones resto = [] := by
    refine List.filterMap_eq_nil_iff.mpr fun a ha => ?_
    have hpropia := hresto a ha
    cases a with
    | master e =>
      cases e with
      | conectaQuery path prioridad => exact absurd hpropia id
      | conectaWorker id => exact absurd hpropia False.elim
      | _ => rfl
    | _ => rfl
  have htodo := todoEntregado_of_run htermina ((run_append h resto).trans hrun) hquiet
  rw [conexiones, List.filterMap_append, ← conexiones, ← conexiones, hnuevas,
    List.append_nil] at htodo
  exact ⟨resto, r', hresto, hrun, hquiet, htodo hworker⟩

theorem exists_todoEntregado_dos : ∃ resto r',
    (∀ a ∈ resto, Propia a) ∧
      run (pasoRed (insertionSort ℕ) 0 fun _ => unaLectura)
        (after (pasoRed (insertionSort ℕ) 0 fun _ => unaLectura) redInicial
          (corridaEntregada.take 2)) resto = .ok r' ∧
      EnCalma (insertionSort ℕ) 0 (fun _ => unaLectura) r' ∧
      TodoEntregado (fun _ => unaLectura) [.control, .worker] r' :=
  exists_todoEntregado (insertionSort ℕ) 0 (fun _ => unaLectura) (fun _ => rfl)
    (corridaEntregada.take 2) (run_eq_after (by decide)) (by decide)

end Cumplidas

end MasterOfFiles.DispatchCompletion
