import MasterOfFiles.DispatchViews

/-!
What the Query Controls are sent. While a Worker runs a Query, what its Query Control
has got, what the Master's thread has in hand, what is on the connection and what the
run has still to report make up together what the run reports. Nobody else is sent
anything, so each Query Control gets the READs of its own Query, in order and once, and
then one end.
-/
namespace MasterOfFiles.ReportDelivery

open PartialRuns RunTraces ListSums SortedLists SchedulerState SchedulerSteps WorkerMessages
open QueryOwnership DispatchNetwork DispatchViews

variable {L : ListSort ℕ} {t : ℤ} {guion : ℕ → Guion} {r r' : Red} {s : Master}

section Lugares

theorem enManos_pos {k q : ℕ} {b : Bool} (hk : papelDe s k = .cierra q b) :
    ∃ hl, s.hilos[k]? = some hl ∧ 1 ≤ (enManos hl).count q := by
  obtain ⟨hl, hhl⟩ := hilo_of_papelDe (s := s) (k := k) (by simp [hk])
  refine ⟨hl, hhl, ?_⟩
  rw [papelDe_of_hilo hhl] at hk
  cases hl with
  | registrarLibre w tr =>
    cases tr with
    | desalojada p => cases hk
    | fin p =>
      obtain ⟨rfl, -⟩ := Papel.cierra.inj hk
      simp [enManos, deTramite]
  | avisarLibre tr =>
    cases tr with
    | desalojada p => cases hk
    | fin p =>
      obtain ⟨rfl, -⟩ := Papel.cierra.inj hk
      simp [enManos, deTramite]
  | enviarFin p =>
    obtain ⟨rfl, -⟩ := Papel.cierra.inj hk
    simp [enManos]
  | liberarQuery p =>
    obtain ⟨rfl, -⟩ := Papel.cierra.inj hk
    simp [enManos]
  | encolar p v => cases v <;> cases hk
  | avisarQuery v => cases v <;> cases hk
  | buscar m =>
    cases m with
    | finQuery qid => cases qid <;> cases hk
    | _ => cases hk
  | atender m w =>
    cases m with
    | finQuery qid => cases qid <;> cases w <;> cases hk
    | _ => cases hk
  | recibirFin qid p w => cases qid <;> cases hk
  | _ => cases hk

variable (hs : EnLinea s)
include hs

theorem ejecuta_pos {w q : ℕ} (hq : queryDe s w = some q) :
    ejecuta q (s.memWorkers w) = 1 ∧ w ∈ s.listaWorkersConectados := by
  obtain ⟨y, hy, hejecuta⟩ := Option.bind_eq_some_iff.mp hq
  refine ⟨?_, hs.anotados w (by simp [hy])⟩
  simp [ejecuta, hy, hejecuta]

theorem lugares_le (q : ℕ) : lugares s q ≤ 1 := by
  rw [hs.custodia.ubicadas hs.correr q]
  unfold vive
  split_ifs <;> omega

/-- A Query is run by one Worker. -/
theorem unica_queryDe {w w' q : ℕ} (hw : queryDe s w = some q) (hw' : queryDe s w' = some q) :
    w = w' := by
  by_contra hne
  obtain ⟨hpos, hin⟩ := ejecuta_pos hs hw
  obtain ⟨hpos', hin'⟩ := ejecuta_pos hs hw'
  obtain ⟨i, hi⟩ := List.getElem?_of_mem hin
  obtain ⟨j, hj⟩ := List.getElem?_of_mem hin'
  have hij : i ≠ j := by
    rintro rfl
    exact hne (Option.some.inj (hi.symm.trans hj))
  have htotal := add_le_total_of_ne (f := fun w => ejecuta q (s.memWorkers w)) hij hi hj
  have hle := lugares_le hs q
  unfold lugares enWorkers at hle
  omega

/-- A Query that a Worker runs is not being closed. -/
theorem not_cierra_of_queryDe {w k q : ℕ} {b : Bool} (hw : queryDe s w = some q) :
    papelDe s k ≠ .cierra q b := by
  intro hk
  obtain ⟨hpos, hin⟩ := ejecuta_pos hs hw
  obtain ⟨hl, hhl, hmano⟩ := enManos_pos hk
  have hworkers := le_total_of_mem (f := fun w => ejecuta q (s.memWorkers w)) hin
  have hhilos := le_total_of_mem (f := fun hl => (enManos hl).count q) (List.mem_of_getElem? hhl)
  have hle := lugares_le hs q
  unfold lugares enWorkers enHilos at hle
  omega

/-- A Query is closed by one thread. -/
theorem unica_cierra {k k' q : ℕ} {b b' : Bool} (hk : papelDe s k = .cierra q b)
    (hk' : papelDe s k' = .cierra q b') : k = k' := by
  by_contra hne
  obtain ⟨hl, hhl, hmano⟩ := enManos_pos hk
  obtain ⟨hl', hhl', hmano'⟩ := enManos_pos hk'
  have htotal := add_le_total_of_ne (f := fun hl => (enManos hl).count q) hne hhl hhl'
  have hle := lugares_le hs q
  unfold lugares enHilos at hle
  omega

/-- A Query that the planner is about to assign is with nobody else. -/
theorem sola_de_asignar {q w : ℕ} (hp : s.planificador = .asignar q w) :
    (∀ v, queryDe s v ≠ some q) ∧ ∀ k b, papelDe s k ≠ .cierra q b := by
  have hplan : conPlanificador s q = 1 := by simp [conPlanificador, hp, sinAsignar]
  have hle := lugares_le hs q
  constructor
  · intro v hv
    obtain ⟨hpos, hin⟩ := ejecuta_pos hs hv
    have hworkers := le_total_of_mem (f := fun w => ejecuta q (s.memWorkers w)) hin
    unfold lugares enWorkers at hle
    omega
  · intro k b hk
    obtain ⟨hl, hhl, hmano⟩ := enManos_pos hk
    have hhilos := le_total_of_mem (f := fun hl => (enManos hl).count q) (List.mem_of_getElem? hhl)
    unfold lugares enHilos at hle
    omega

end Lugares

section Invariante

def avisos (g : Guion) (n : ℕ) : List Aviso :=
  g.lecturas.map .lectura ++ if g.termina then [.fin n] else []

/-- What the Query Control is to be sent. -/
def entregas (g : Guion) : List Entrega :=
  g.lecturas.flatMap mensajeDe ++ if g.termina then [.fin] else []

/-- What the Master's thread has read and not served yet. -/
def leido (r : Red) (k : ℕ) : List Aviso :=
  (match papelDe r.master k with
    | .fin n => [.fin n]
    | _ => []) ++ (r.lector k).toList.map fun l => .lectura l.lectura

/-- Where the run of a Query is, and what it has still to report. -/
inductive Marcha (guion : ℕ → Guion) (r : Red) (w q n : ℕ) : List Aviso → Prop
  | porEnviar (path : ByteBuffers.Bytes)
    (hs : saliente r.master = some (w, ⟨q, .enviarPath n 0 path⟩)) (hw : r.alWorker w = [])
    (hc : r.corrida w = none) : Marcha guion r w q n (avisos (guion q) n)
  | enCamino (path : ByteBuffers.Bytes) (hs : ∀ p, saliente r.master ≠ some (w, p))
    (hw : r.alWorker w = [⟨q, .enviarPath n 0 path⟩]) (hc : r.corrida w = none) :
    Marcha guion r w q n (avisos (guion q) n)
  | corriendo (ls : List Lectura) (hs : ∀ p, saliente r.master ≠ some (w, p))
    (hw : r.alWorker w = []) (hc : r.corrida w = some ⟨q, n, ls⟩) :
    Marcha guion r w q n (avisos ⟨ls, (guion q).termina⟩ n)
  | hecha (hs : ∀ p, saliente r.master ≠ some (w, p)) (hw : r.alWorker w = [])
    (hc : r.corrida w = none) : Marcha guion r w q n []

/-- A Worker without a Query has nothing on its way in either direction. -/
structure Ocioso (r : Red) (w : ℕ) : Prop where
  leido : leido r w = []
  alMaster : r.alMaster w = []
  alWorker : r.alWorker w = []
  corrida : r.corrida w = none
  saliente : ∀ p, saliente r.master ≠ some (w, p)

/-- What the Query Control of `q` has got and what is still on its way from the Worker is
all that the run reports. -/
def Ocupado (guion : ℕ → Guion) (r : Red) (w q : ℕ) : Prop :=
  ∃ (n : ℕ) (hechas : List Lectura) (faltan : List Aviso),
    numeroDe r.master q = some n ∧ Marcha guion r w q n faltan ∧
    r.alControl q = hechas.flatMap mensajeDe ∧
    hechas.map .lectura ++ (leido r w ++ (r.alMaster w ++ faltan)) = avisos (guion q) n

/-- A thread in the branch of a READ serves the Query of its own Worker. -/
def LectorVale (s : Master) (k : ℕ) : Lector → Prop
  | .buscar _ => True
  | .atender _ w => w = some k
  | .enviar l q => queryDe s k = some q ∧ 0 < l.contenido.length

structure Entregando (guion : ℕ → Guion) (r : Red) : Prop where
  linea : EnLinea r.master
  lectores : ∀ k l, r.lector k = some l →
    r.master.hilos[k]? = some .bucleWorker ∧ LectorVale r.master k l
  ociosos : ∀ w, queryDe r.master w = none → Ocioso r w
  ocupados : ∀ w q, queryDe r.master w = some q → Ocupado guion r w q
  cierres : ∀ k q b, papelDe r.master k = .cierra q b → (numeroDe r.master q).isSome ∧
    r.alControl q ++ (if b then [] else [.fin]) = entregas (guion q)
  intactas : ∀ q, (numeroDe r.master q).isSome → (∀ w, queryDe r.master w ≠ some q) →
    (∀ k b, papelDe r.master k ≠ .cierra q b) → r.alControl q = []
  ajenas : ∀ q, papelDe r.master q ≠ .consulta → r.alControl q = []
  cumplidas : ∀ q, papelDe r.master q = .consulta → numeroDe r.master q = none →
    r.alControl q = entregas (guion q)

theorem entregando_inicial (guion : ℕ → Guion) : Entregando guion redInicial where
  linea := enLinea_inicial
  lectores k l h := nomatch h
  ociosos w _ := by
    constructor <;> simp [leido, redInicial, papelDe, inicial, saliente]
  ocupados w q h := by simp [queryDe, redInicial, inicial] at h
  cierres k q b h := by simp [papelDe, redInicial, inicial] at h
  intactas q _ _ _ := rfl
  ajenas q _ := rfl
  cumplidas q h := by simp [papelDe, redInicial, inicial] at h

/-- The end of a run stands at the end of what it reports. -/
theorem fin_de_avisos {hechas : List Lectura} {g : Guion} {n m : ℕ} {resto : List Aviso}
    (h : hechas.map .lectura ++ .fin n :: resto = avisos g m) :
    n = m ∧ resto = [] ∧ g.termina = true ∧ hechas = g.lecturas := by
  obtain ⟨ls, termina⟩ := g
  unfold avisos at h
  induction hechas generalizing ls with
  | nil =>
    cases ls with
    | nil =>
      cases termina with
      | true => simpa using h
      | false => simp at h
    | cons l ls => simp at h
  | cons a hechas ih =>
    cases ls with
    | nil => cases termina <;> simp at h
    | cons l ls =>
      simp only [List.map_cons, List.cons_append, List.cons.injEq, Aviso.lectura.injEq] at h
      obtain ⟨rfl, htail⟩ := h
      obtain ⟨hn, hresto, htermina, hls⟩ := ih ls htail
      exact ⟨hn, hresto, htermina, congrArg _ hls⟩

/-- The READs reported so far are the first ones. -/
theorem prefijo_de_avisos {hechas : List Lectura} {g : Guion} {n : ℕ} {resto : List Aviso}
    (h : hechas.map .lectura ++ resto = avisos g n) : hechas <+: g.lecturas := by
  obtain ⟨ls, termina⟩ := g
  unfold avisos at h
  induction hechas generalizing ls with
  | nil => exact List.nil_prefix
  | cons a hechas ih =>
    cases ls with
    | nil => cases termina <;> simp at h
    | cons l ls =>
      simp only [List.map_cons, List.cons_append, List.cons.injEq, Aviso.lectura.injEq] at h
      obtain ⟨rfl, htail⟩ := h
      exact (List.prefix_cons_inj a).mpr (ih ls htail)

theorem finesAtendidos_of_entregando (hr : Entregando guion r) : FinesAtendidos r.master := by
  intro k n hk
  have hleido : ∃ resto, leido r k = .fin n :: resto := by
    unfold leido
    rw [hk]
    exact ⟨_, rfl⟩
  obtain ⟨resto, hresto⟩ := hleido
  cases hq : queryDe r.master k with
  | none =>
    rw [(hr.ociosos k hq).leido] at hresto
    cases hresto
  | some q =>
    obtain ⟨m, hechas, faltan, hm, hmarcha, hctl, htodo⟩ := hr.ocupados k q hq
    rw [hresto] at htodo
    obtain ⟨rfl, -⟩ := fin_de_avisos htodo
    exact ⟨q, rfl, hm⟩

end Invariante

section Pasos

/-- Nothing changes on the way between the Master and this Worker. -/
structure IgualEn (r r' : Red) (w : ℕ) : Prop where
  leido : leido r' w = leido r w
  alMaster : r'.alMaster w = r.alMaster w
  alWorker : r'.alWorker w = r.alWorker w
  corrida : r'.corrida w = r.corrida w
  saliente : ∀ p, saliente r'.master = some (w, p) ↔ saliente r.master = some (w, p)

theorem ocioso_congr {w : ℕ} (h : Ocioso r w) (hi : IgualEn r r' w) : Ocioso r' w where
  leido := hi.leido.trans h.leido
  alMaster := hi.alMaster.trans h.alMaster
  alWorker := hi.alWorker.trans h.alWorker
  corrida := hi.corrida.trans h.corrida
  saliente p hp := h.saliente p ((hi.saliente p).mp hp)

theorem marcha_congr {w q n : ℕ} {faltan : List Aviso} (h : Marcha guion r w q n faltan)
    (hworker : r'.alWorker w = r.alWorker w) (hcorrida : r'.corrida w = r.corrida w)
    (hsale : ∀ p, saliente r'.master = some (w, p) ↔ saliente r.master = some (w, p)) :
    Marcha guion r' w q n faltan := by
  have hno : (∀ p, saliente r.master ≠ some (w, p)) → ∀ p, saliente r'.master ≠ some (w, p) :=
    fun h p hp => h p ((hsale p).mp hp)
  cases h with
  | porEnviar path hs hw hc =>
    exact .porEnviar path ((hsale _).mpr hs) (hworker.trans hw) (hcorrida.trans hc)
  | enCamino path hs hw hc =>
    exact .enCamino path (hno hs) (hworker.trans hw) (hcorrida.trans hc)
  | corriendo ls hs hw hc =>
    exact .corriendo ls (hno hs) (hworker.trans hw) (hcorrida.trans hc)
  | hecha hs hw hc => exact .hecha (hno hs) (hworker.trans hw) (hcorrida.trans hc)

theorem ocupado_congr {w q : ℕ} (h : Ocupado guion r w q) (hi : IgualEn r r' w)
    (hn : numeroDe r'.master q = numeroDe r.master q) (hctl : r'.alControl q = r.alControl q) :
    Ocupado guion r' w q := by
  obtain ⟨n, hechas, faltan, hnum, hmarcha, hgot, htodo⟩ := h
  refine ⟨n, hechas, faltan, hn.trans hnum,
    marcha_congr hmarcha hi.alWorker hi.corrida hi.saliente, hctl.trans hgot, ?_⟩
  rw [hi.leido, hi.alMaster]
  exact htodo

/-- Between the Master and one Worker something moves on, and nobody is sent anything. -/
theorem entregando_mueve (hr : Entregando guion r) (w : ℕ) (hm : r'.master = r.master)
    (hctl : r'.alControl = r.alControl)
    (hlector : ∀ k l, r'.lector k = some l →
      r.master.hilos[k]? = some .bucleWorker ∧ LectorVale r.master k l)
    (hotros : ∀ v, v ≠ w → IgualEn r r' v) (hactivo : queryDe r.master w ≠ none)
    (hocupado : ∀ q, queryDe r.master w = some q → Ocupado guion r' w q) :
    Entregando guion r' where
  linea := hm ▸ hr.linea
  lectores := hm ▸ hlector
  ociosos v hv := by
    rw [hm] at hv
    by_cases hvw : v = w
    · exact absurd (hvw ▸ hv) hactivo
    · exact ocioso_congr (hr.ociosos v hv) (hotros v hvw)
  ocupados v q hv := by
    rw [hm] at hv
    by_cases hvw : v = w
    · subst hvw
      exact hocupado q hv
    · exact ocupado_congr (hr.ocupados v q hv) (hotros v hvw) (by rw [hm]) (by rw [hctl])
  cierres := by
    rw [hm, hctl]
    exact hr.cierres
  intactas := by
    rw [hm, hctl]
    exact hr.intactas
  ajenas := by
    rw [hm, hctl]
    exact hr.ajenas
  cumplidas := by
    rw [hm, hctl]
    exact hr.cumplidas

/-- A Worker with anything on its way runs a Query. -/
theorem activo_of_not_ocioso (hr : Entregando guion r) {w : ℕ} (h : ¬ Ocioso r w) :
    ∃ q, queryDe r.master w = some q ∧ Ocupado guion r w q := by
  cases hq : queryDe r.master w with
  | none => exact absurd (hr.ociosos w hq) h
  | some q => exact ⟨q, rfl, hr.ocupados w q hq⟩

variable (hr : Entregando guion r)
include hr

theorem entregando_toma {w q qid pc : ℕ} {path : ByteBuffers.Bytes} {resto : List Encargo}
    (hw : r.alWorker w = ⟨q, .enviarPath qid pc path⟩ :: resto) :
    Entregando guion { r with
      alWorker := Function.update r.alWorker w resto
      corrida := Function.update r.corrida w (some ⟨q, qid, (guion q).lecturas⟩) } := by
  obtain ⟨p, hp, n, hechas, faltan, hnum, hmarcha, hgot, htodo⟩ := activo_of_not_ocioso hr
    (w := w) (fun h => by simp [h.alWorker] at hw)
  refine entregando_mueve hr w rfl rfl hr.lectores (fun v hv => ?_) (by simp [hp]) ?_
  · constructor <;> simp [leido, Function.update_of_ne hv]
  · intro q' hq'
    obtain rfl := Option.some.inj (hp.symm.trans hq')
    cases hmarcha with
    | porEnviar path' hs hw' hc' => simp [hw'] at hw
    | corriendo ls hs hw' hc' => simp [hw'] at hw
    | hecha hs hw' hc' => simp [hw'] at hw
    | enCamino path' hs hw' hc' =>
      rw [hw'] at hw
      obtain ⟨hencargo, rfl⟩ := List.cons.inj hw
      obtain ⟨rfl, hpaq⟩ := Encargo.mk.inj hencargo
      obtain ⟨rfl, -⟩ := Paquete.enviarPath.inj hpaq
      refine ⟨n, hechas, _, hnum, .corriendo (guion p).lecturas hs ?_ ?_, hgot, htodo⟩
      · simp
      · simp

theorem entregando_informa {w q qid : ℕ} {l : Lectura} {ls : List Lectura}
    (hc : r.corrida w = some ⟨q, qid, l :: ls⟩) :
    Entregando guion { r with
      corrida := Function.update r.corrida w (some ⟨q, qid, ls⟩)
      alMaster := agregar r.alMaster w (.lectura l) } := by
  obtain ⟨p, hp, n, hechas, faltan, hnum, hmarcha, hgot, htodo⟩ := activo_of_not_ocioso hr
    (w := w) (fun h => by simp [h.corrida] at hc)
  refine entregando_mueve hr w rfl rfl hr.lectores (fun v hv => ?_) (by simp [hp]) ?_
  · constructor <;> simp [leido, agregar, Function.update_of_ne hv]
  · intro q' hq'
    obtain rfl := Option.some.inj (hp.symm.trans hq')
    cases hmarcha with
    | porEnviar path' hs hw' hc' => simp [hc'] at hc
    | enCamino path' hs hw' hc' => simp [hc'] at hc
    | hecha hs hw' hc' => simp [hc'] at hc
    | corriendo ms hs hw' hc' =>
      rw [hc'] at hc
      obtain ⟨rfl, rfl, rfl⟩ := Corrida.mk.inj (Option.some.inj hc)
      refine ⟨n, hechas, _, hnum, .corriendo ls hs hw' ?_, hgot, ?_⟩
      · simp
      · rw [← htodo]
        simp [leido, agregar, avisos]

theorem entregando_vuelve {w q qid : ℕ} (hc : r.corrida w = some ⟨q, qid, []⟩) :
    Entregando guion { r with
      corrida := Function.update r.corrida w none
      alMaster := if (guion q).termina then agregar r.alMaster w (.fin qid) else r.alMaster } := by
  obtain ⟨p, hp, n, hechas, faltan, hnum, hmarcha, hgot, htodo⟩ := activo_of_not_ocioso hr
    (w := w) (fun h => by simp [h.corrida] at hc)
  refine entregando_mueve hr w rfl rfl hr.lectores (fun v hv => ?_) (by simp [hp]) ?_
  · constructor <;> split_ifs <;> simp [leido, agregar, Function.update_of_ne hv]
  · intro q' hq'
    obtain rfl := Option.some.inj (hp.symm.trans hq')
    cases hmarcha with
    | porEnviar path' hs hw' hc' => simp [hc'] at hc
    | enCamino path' hs hw' hc' => simp [hc'] at hc
    | hecha hs hw' hc' => simp [hc'] at hc
    | corriendo ms hs hw' hc' =>
      rw [hc'] at hc
      obtain ⟨rfl, rfl, rfl⟩ := Corrida.mk.inj (Option.some.inj hc)
      refine ⟨n, hechas, _, hnum, .hecha hs hw' ?_, hgot, ?_⟩
      · simp
      · rw [← htodo]
        by_cases hfin : (guion p).termina = true
        · simp [leido, agregar, avisos, hfin]
        · simp [leido, avisos, hfin]

omit hr in
theorem leido_of_bucle {k : ℕ} (hk : r.master.hilos[k]? = some .bucleWorker) :
    leido r k = (r.lector k).toList.map fun l => .lectura l.lectura := by
  unfold leido
  rw [papelDe_of_hilo hk]
  rfl

/-- In a step of the branch of a READ only the place of its thread changes. -/
theorem entregando_lector {k : ℕ} {o : Option Lector} {f : ℕ → List Aviso}
    (hk : r.master.hilos[k]? = some .bucleWorker) (ho : ∀ l ∈ o, LectorVale r.master k l)
    (hf : ∀ v, v ≠ k → f v = r.alMaster v) (hactivo : queryDe r.master k ≠ none)
    (hocupado : ∀ q, queryDe r.master k = some q →
      Ocupado guion { r with alMaster := f, lector := Function.update r.lector k o } k q) :
    Entregando guion { r with alMaster := f, lector := Function.update r.lector k o } := by
  refine entregando_mueve hr k rfl rfl (fun i l hi => ?_) (fun v hv => ?_) hactivo hocupado
  · by_cases hik : i = k
    · subst hik
      exact ⟨hk, ho l (by simpa using hi)⟩
    · exact hr.lectores i l (by simpa [Function.update_of_ne hik] using hi)
  · constructor <;> simp [leido, Function.update_of_ne hv, hf v hv]

theorem entregando_recibeLectura {k : ℕ} {l : Lectura} {resto : List Aviso}
    (hl : r.lector k = none) (ha : r.alMaster k = .lectura l :: resto)
    (hk : r.master.hilos[k]? = some .bucleWorker) :
    Entregando guion { r with
      alMaster := Function.update r.alMaster k resto
      lector := Function.update r.lector k (some (.buscar l)) } := by
  obtain ⟨p, hp, n, hechas, faltan, hnum, hmarcha, hgot, htodo⟩ := activo_of_not_ocioso hr
    (w := k) (fun h => by simp [h.alMaster] at ha)
  refine entregando_lector hr hk (fun l' hl' => ?_) (fun v hv => Function.update_of_ne hv ..)
    (by simp [hp]) (fun q hq => ?_)
  · obtain rfl := Option.some.inj hl'
    trivial
  · obtain rfl := Option.some.inj (hp.symm.trans hq)
    refine ⟨n, hechas, faltan, hnum, marcha_congr hmarcha rfl rfl (fun _ => Iff.rfl), hgot, ?_⟩
    rw [leido_of_bucle hk, hl, ha] at htodo
    rw [← htodo]
    simp [leido, papelDe_of_hilo hk, papel, Lector.lectura]

/-- The thread goes on with the READ it has in hand. -/
theorem entregando_sigue {k : ℕ} {l l' : Lector} (hl : r.lector k = some l)
    (hlec : l'.lectura = l.lectura) (hvale : LectorVale r.master k l') :
    Entregando guion { r with lector := Function.update r.lector k (some l') } := by
  obtain ⟨hk, _⟩ := hr.lectores k l hl
  obtain ⟨p, hp, n, hechas, faltan, hnum, hmarcha, hgot, htodo⟩ := activo_of_not_ocioso hr
    (w := k) (fun h => by simpa [leido_of_bucle hk, hl] using h.leido)
  refine entregando_lector hr (f := r.alMaster) hk (fun m hm => ?_) (fun v hv => rfl)
    (by simp [hp]) (fun q hq => ?_)
  · obtain rfl := Option.some.inj hm
    exact hvale
  · obtain rfl := Option.some.inj (hp.symm.trans hq)
    refine ⟨n, hechas, faltan, hnum, marcha_congr hmarcha rfl rfl (fun _ => Iff.rfl), hgot, ?_⟩
    rw [leido_of_bucle hk, hl] at htodo
    rw [← htodo]
    simp [leido, papelDe_of_hilo hk, papel, hlec]

/-- A READ without bytes has nothing to send. -/
theorem entregando_descarta {k w : ℕ} {l : Lectura} (hl : r.lector k = some (.atender l (some w)))
    (hvacia : ¬ 0 < l.contenido.length) :
    Entregando guion { r with lector := Function.update r.lector k none } := by
  obtain ⟨hk, _⟩ := hr.lectores k _ hl
  obtain ⟨p, hp, n, hechas, faltan, hnum, hmarcha, hgot, htodo⟩ := activo_of_not_ocioso hr
    (w := k) (fun h => by simpa [leido_of_bucle hk, hl] using h.leido)
  refine entregando_lector hr (f := r.alMaster) hk (fun m hm => by simp at hm) (fun v hv => rfl)
    (by simp [hp]) (fun q hq => ?_)
  obtain rfl := Option.some.inj (hp.symm.trans hq)
  have hnada : mensajeDe l = [] := if_neg hvacia
  refine ⟨n, hechas ++ [l], faltan, hnum, marcha_congr hmarcha rfl rfl (fun _ => Iff.rfl), ?_, ?_⟩
  · simp [hgot, hnada]
  · rw [leido_of_bucle hk, hl] at htodo
    rw [← htodo]
    simp [leido, papelDe_of_hilo hk, papel, Lector.lectura]

/-- The Query Control of the Worker's Query is sent the READ. -/
theorem entregando_envia {k q : ℕ} {l : Lectura} {x : Query}
    (hl : r.lector k = some (.enviar l q)) (hx : r.master.memQueries q = some x) :
    Entregando guion { r with
      lector := Function.update r.lector k none
      alControl := Function.update r.alControl x.socketQuery
        (r.alControl x.socketQuery ++ mensajeDe l) } := by
  obtain ⟨hk, hq, _⟩ := hr.lectores k _ hl
  obtain ⟨_, hsocket, hconsulta⟩ := hr.linea.nuevas q x hx
  rw [hsocket]
  have hotras : ∀ p, p ≠ q →
      Function.update r.alControl q (r.alControl q ++ mensajeDe l) p = r.alControl p :=
    fun p hp => Function.update_of_ne hp ..
  constructor
  · exact hr.linea
  · intro i m hi
    by_cases hik : i = k
    · subst hik
      simp at hi
    · exact hr.lectores i m (by simpa [Function.update_of_ne hik] using hi)
  · intro v hv
    have hvk : v ≠ k := fun h => by
      rw [h, hq] at hv
      cases hv
    refine ocioso_congr (hr.ociosos v hv) ?_
    constructor <;> simp [leido, Function.update_of_ne hvk]
  · intro v p hv
    by_cases hvk : v = k
    · subst hvk
      obtain rfl := Option.some.inj (hq.symm.trans hv)
      obtain ⟨n, hechas, faltan, hnum, hmarcha, hgot, htodo⟩ := hr.ocupados v q hq
      refine ⟨n, hechas ++ [l], faltan, hnum, marcha_congr hmarcha rfl rfl (fun _ => Iff.rfl), ?_,
        ?_⟩
      · simp [hgot]
      · rw [leido_of_bucle hk, hl] at htodo
        rw [← htodo]
        simp [leido, papelDe_of_hilo hk, papel, Lector.lectura]
    · have hpq : p ≠ q := fun h => hvk (unica_queryDe hr.linea (h ▸ hv) hq)
      refine ocupado_congr (hr.ocupados v p hv) ?_ rfl (hotras p hpq)
      constructor <;> simp [leido, Function.update_of_ne hvk]
  · intro i p b hi
    have hpq : p ≠ q := fun h => not_cierra_of_queryDe hr.linea hq (h ▸ hi)
    simp only [hotras p hpq]
    exact hr.cierres i p b hi
  · intro p hp hno hcierra
    have hpq : p ≠ q := fun h => hno k (h ▸ hq)
    simp only [hotras p hpq]
    exact hr.intactas p hp hno hcierra
  · intro p hp
    have hpq : p ≠ q := fun h => hp (h ▸ hconsulta)
    simp only [hotras p hpq]
    exact hr.ajenas p hp
  · intro p hp hnone
    have hpq : p ≠ q := fun h => by
      rw [h] at hnone
      simp [numeroDe, hx] at hnone
    simp only [hotras p hpq]
    exact hr.cumplidas p hp hnone

end Pasos

section Master

variable {e : Evento} {m : Master}

theorem leido_congr {w : ℕ} (hp : papelDe r'.master w = papelDe r.master w)
    (hl : r'.lector w = r.lector w) : leido r' w = leido r w := by
  unfold leido
  rw [hp, hl]

/-- A step that leaves the views as they are, but perhaps for a new Worker. -/
theorem entregando_quieta (hr : Entregando guion r) (hm : EnLinea m)
    (hlector : ∀ k l, r.lector k = some l → m.hilos[k]? = some .bucleWorker ∧ LectorVale m k l)
    (hq : queryDe m = queryDe r.master) (hn : numeroDe m = numeroDe r.master)
    (hs : saliente m = saliente r.master)
    (hp : ∀ k, papelDe m k = papelDe r.master k ∨
      papelDe r.master k = .fuera ∧ papelDe m k = .oyente) :
    Entregando guion { r with master := m } := by
  have higual : ∀ w, IgualEn r { r with master := m } w := by
    intro w
    refine ⟨?_, rfl, rfl, rfl, fun p => by rw [hs]⟩
    rcases hp w with h | ⟨h, h'⟩
    · exact leido_congr h rfl
    · unfold leido
      rw [h, h']
  have hcierra : ∀ k q b, papelDe m k = .cierra q b ↔ papelDe r.master k = .cierra q b := by
    intro k q b
    rcases hp k with h | ⟨h, h'⟩
    · rw [h]
    · simp [h, h']
  have hconsulta : ∀ k, papelDe m k = .consulta ↔ papelDe r.master k = .consulta := by
    intro k
    rcases hp k with h | ⟨h, h'⟩
    · rw [h]
    · simp [h, h']
  constructor
  · exact hm
  · exact hlector
  · exact fun w hw => ocioso_congr (hr.ociosos w (hq ▸ hw)) (higual w)
  · exact fun w q hw =>
      ocupado_congr (hr.ocupados w q (hq ▸ hw)) (higual w) (congrFun hn q) rfl
  · intro k q b hk
    simp only [hn]
    exact hr.cierres k q b ((hcierra k q b).mp hk)
  · intro q hnum hno hcie
    simp only [hn, hq] at hnum hno
    exact hr.intactas q hnum hno fun k b hk => hcie k b ((hcierra k q b).mpr hk)
  · exact fun q hno => hr.ajenas q fun h => hno ((hconsulta q).mpr h)
  · intro q hcons hnone
    simp only [hn] at hnone
    exact hr.cumplidas q ((hconsulta q).mp hcons) hnone

/-- A Query Control that registers its Query has not been sent anything. -/
theorem entregando_registra (hr : Entregando guion r) (hm : EnLinea m)
    (hlector : ∀ k l, r.lector k = some l → m.hilos[k]? = some .bucleWorker ∧ LectorVale m k l)
    {k n : ℕ} (hq : queryDe m = queryDe r.master) (hnone : numeroDe r.master k = none)
    (hn : numeroDe m = Function.update (numeroDe r.master) k (some n))
    (hs : saliente m = saliente r.master) (hfuera : papelDe r.master k = .fuera)
    (hp : papelDe m = Function.update (papelDe r.master) k .consulta) :
    Entregando guion { r with master := m } := by
  have hotro : ∀ i, i ≠ k → papelDe m i = papelDe r.master i := fun i hi => by
    rw [hp, Function.update_of_ne hi]
  have hself : papelDe m k = .consulta := by rw [hp, Function.update_self]
  have hnum : ∀ q, q ≠ k → numeroDe m q = numeroDe r.master q := fun q hi => by
    rw [hn, Function.update_of_ne hi]
  have higual : ∀ w, IgualEn r { r with master := m } w := by
    intro w
    refine ⟨?_, rfl, rfl, rfl, fun p => by rw [hs]⟩
    by_cases hwk : w = k
    · subst hwk
      unfold leido
      rw [hself, hfuera]
    · exact leido_congr (hotro w hwk) rfl
  have hvacia : r.alControl k = [] := hr.ajenas k (by simp [hfuera])
  constructor
  · exact hm
  · exact hlector
  · exact fun w hw => ocioso_congr (hr.ociosos w (hq ▸ hw)) (higual w)
  · intro w q hw
    have hocu := hr.ocupados w q (hq ▸ hw)
    have hqk : q ≠ k := by
      rintro rfl
      obtain ⟨a, _, _, ha, _⟩ := hocu
      rw [hnone] at ha
      cases ha
    exact ocupado_congr hocu (higual w) (hnum q hqk) rfl
  · intro i q b hi
    have hik : i ≠ k := by
      rintro rfl
      rw [hself] at hi
      cases hi
    obtain ⟨hsome, htodo⟩ := hr.cierres i q b (hotro i hik ▸ hi)
    have hqk : q ≠ k := by
      rintro rfl
      rw [hnone] at hsome
      cases hsome
    exact ⟨(hnum q hqk).symm ▸ hsome, htodo⟩
  · intro q hsome hno hcie
    by_cases hqk : q = k
    · rw [hqk]
      exact hvacia
    · refine hr.intactas q (hnum q hqk ▸ hsome) (fun w hw => hno w (hq.symm ▸ hw)) fun i b hi => ?_
      have hik : i ≠ k := by
        rintro rfl
        rw [hfuera] at hi
        cases hi
      exact hcie i b ((hotro i hik).trans hi)
  · intro q hno
    have hqk : q ≠ k := fun h => hno (h ▸ hself)
    exact hr.ajenas q (hotro q hqk ▸ hno)
  · intro q hcons hnada
    have hqk : q ≠ k := by
      rintro rfl
      simp [hn] at hnada
    exact hr.cumplidas q (hotro q hqk ▸ hcons) (hnum q hqk ▸ hnada)

/-- The Worker that the planner gives a Query had nothing on its way. -/
theorem entregando_asigna (hr : Entregando guion r) (hm : EnLinea m)
    (hlector : ∀ k l, r.lector k = some l → m.hilos[k]? = some .bucleWorker ∧ LectorVale m k l)
    {q w n : ℕ} {path : ByteBuffers.Bytes} (hnone : queryDe r.master w = none)
    (hq : queryDe m = Function.update (queryDe r.master) w (some q))
    (hnum : numeroDe r.master q = some n) (hn : numeroDe m = numeroDe r.master)
    (hplan : r.master.planificador = .asignar q w)
    (hs : saliente m = some (w, ⟨q, .enviarPath n 0 path⟩)) (hp : papelDe m = papelDe r.master) :
    Entregando guion { r with master := m } := by
  obtain ⟨hsola, hlibre⟩ := sola_de_asignar hr.linea hplan
  have hself : queryDe m w = some q := by rw [hq, Function.update_self]
  have hotra : ∀ v, v ≠ w → queryDe m v = queryDe r.master v := fun v hv => by
    rw [hq, Function.update_of_ne hv]
  have hsale : saliente r.master = none := by
    unfold saliente
    rw [hplan]
  have higual : ∀ v, v ≠ w → IgualEn r { r with master := m } v := by
    intro v hv
    refine ⟨leido_congr (congrFun hp v) rfl, rfl, rfl, rfl, fun p => ?_⟩
    simp [hs, hsale, Ne.symm hv]
  constructor
  · exact hm
  · exact hlector
  · intro v hv
    have hvw : v ≠ w := by
      rintro rfl
      rw [hself] at hv
      cases hv
    exact ocioso_congr (hr.ociosos v (hotra v hvw ▸ hv)) (higual v hvw)
  · intro v p hv
    by_cases hvw : v = w
    · subst hvw
      obtain rfl := Option.some.inj (hself.symm.trans hv)
      have hocio := hr.ociosos v hnone
      refine ⟨n, [], _, (congrFun hn q).trans hnum,
        .porEnviar path hs hocio.alWorker hocio.corrida,
        hr.intactas q (by simp [hnum]) hsola hlibre, ?_⟩
      have hleido : leido { r with master := m } v = leido r v := leido_congr (congrFun hp v) rfl
      rw [hleido, hocio.leido, hocio.alMaster]
      rfl
    · exact ocupado_congr (hr.ocupados v p (hotra v hvw ▸ hv)) (higual v hvw) (congrFun hn p) rfl
  · intro k p b hk
    simp only [hn, hp] at hk ⊢
    exact hr.cierres k p b hk
  · intro p hsome hno hcie
    simp only [hn, hp] at hsome hcie
    refine hr.intactas p hsome (fun v hv => ?_) hcie
    have hvw : v ≠ w := by
      rintro rfl
      rw [hnone] at hv
      cases hv
    exact hno v ((hotra v hvw).trans hv)
  · intro p hno
    exact hr.ajenas p (by simpa only [hp] using hno)
  · intro p hcons hnada
    simp only [hn, hp] at hcons hnada
    exact hr.cumplidas p hcons hnada

/-- The packet leaves the planner for the connection. -/
theorem entregando_envio (hr : Entregando guion r) (hm : EnLinea m)
    (hlector : ∀ k l, r.lector k = some l → m.hilos[k]? = some .bucleWorker ∧ LectorVale m k l)
    {w : ℕ} {p : Encargo} (hq : queryDe m = queryDe r.master) (hn : numeroDe m = numeroDe r.master)
    (hsale : saliente r.master = some (w, p)) (hs : saliente m = none)
    (hp : papelDe m = papelDe r.master) :
    Entregando guion { r with master := m, alWorker := agregar r.alWorker w p } := by
  have higual : ∀ v, v ≠ w → IgualEn r
      { r with master := m, alWorker := agregar r.alWorker w p } v := by
    intro v hv
    refine ⟨leido_congr (congrFun hp v) rfl, rfl, ?_, rfl, fun p => ?_⟩
    · simp [agregar, Function.update_of_ne hv]
    · simp [hs, hsale, Ne.symm hv]
  constructor
  · exact hm
  · exact hlector
  · intro v hv
    have hocio := hr.ociosos v (hq ▸ hv)
    have hvw : v ≠ w := by
      rintro rfl
      exact hocio.saliente p hsale
    exact ocioso_congr hocio (higual v hvw)
  · intro v q hv
    have hocu := hr.ocupados v q (hq ▸ hv)
    by_cases hvw : v = w
    · subst hvw
      obtain ⟨n, hechas, faltan, hnum, hmarcha, hgot, htodo⟩ := hocu
      have hleido : leido { r with master := m, alWorker := agregar r.alWorker v p } v =
        leido r v := leido_congr (congrFun hp v) rfl
      cases hmarcha with
      | porEnviar path hsale' hw hc =>
        rw [hsale] at hsale'
        obtain ⟨-, rfl⟩ := Prod.mk.inj (Option.some.inj hsale')
        refine ⟨n, hechas, _, (congrFun hn q).trans hnum, .enCamino path (by simp [hs]) ?_ hc, hgot,
          ?_⟩
        · simp [agregar, hw]
        · rw [hleido]
          exact htodo
      | enCamino path hno hw hc => exact absurd hsale (hno p)
      | corriendo ls hno hw hc => exact absurd hsale (hno p)
      | hecha hno hw hc => exact absurd hsale (hno p)
    · exact ocupado_congr hocu (higual v hvw) (congrFun hn q) rfl
  · intro k q b hk
    simp only [hn, hp] at hk ⊢
    exact hr.cierres k q b hk
  · intro q hsome hno hcie
    simp only [hn, hq, hp] at hsome hno hcie
    exact hr.intactas q hsome hno hcie
  · intro q hno
    exact hr.ajenas q (by simpa only [hp] using hno)
  · intro q hcons hnada
    simp only [hn, hp] at hcons hnada
    exact hr.cumplidas q hcons hnada

/-- The thread reads the end of the run. -/
theorem entregando_recibeFin (hr : Entregando guion r) (hm : EnLinea m) {k n : ℕ}
    {resto : List Aviso} (hl : r.lector k = none) (ha : r.alMaster k = .fin n :: resto)
    (hlector : ∀ k l, r.lector k = some l → m.hilos[k]? = some .bucleWorker ∧ LectorVale m k l)
    (hq : queryDe m = queryDe r.master) (hn : numeroDe m = numeroDe r.master)
    (hs : saliente m = saliente r.master) (hoye : papelDe r.master k = .oyente)
    (hp : papelDe m = Function.update (papelDe r.master) k (.fin n)) :
    Entregando guion { r with master := m, alMaster := Function.update r.alMaster k resto } := by
  have hotro : ∀ i, i ≠ k → papelDe m i = papelDe r.master i := fun i hi => by
    rw [hp, Function.update_of_ne hi]
  have hself : papelDe m k = .fin n := by rw [hp, Function.update_self]
  have higual : ∀ v, v ≠ k → IgualEn r
      { r with master := m, alMaster := Function.update r.alMaster k resto } v := by
    intro v hv
    refine ⟨leido_congr (hotro v hv) rfl, ?_, rfl, rfl, fun p => by rw [hs]⟩
    exact Function.update_of_ne hv ..
  have hactivo := activo_of_not_ocioso hr (w := k) (fun h => by simp [h.alMaster] at ha)
  have hcierra : ∀ i q b, papelDe m i = .cierra q b ↔ papelDe r.master i = .cierra q b := by
    intro i q b
    by_cases hik : i = k
    · subst hik
      simp [hself, hoye]
    · rw [hotro i hik]
  have hconsulta : ∀ i, papelDe m i = .consulta ↔ papelDe r.master i = .consulta := by
    intro i
    by_cases hik : i = k
    · subst hik
      simp [hself, hoye]
    · rw [hotro i hik]
  constructor
  · exact hm
  · exact hlector
  · intro v hv
    rw [hq] at hv
    have hvk : v ≠ k := by
      rintro rfl
      obtain ⟨q, hq', -⟩ := hactivo
      rw [hv] at hq'
      cases hq'
    exact ocioso_congr (hr.ociosos v hv) (higual v hvk)
  · intro v q hv
    rw [hq] at hv
    by_cases hvk : v = k
    · subst hvk
      obtain ⟨a, hechas, faltan, hnum, hmarcha, hgot, htodo⟩ := hr.ocupados v q hv
      refine ⟨a, hechas, faltan, (congrFun hn q).trans hnum,
        marcha_congr hmarcha rfl rfl (fun p => by rw [hs]), hgot, ?_⟩
      have hleido : leido r v = [] := by simp [leido, hoye, hl]
      rw [hleido, ha] at htodo
      rw [← htodo]
      simp [leido, hself, hl]
    · exact ocupado_congr (hr.ocupados v q hv) (higual v hvk) (congrFun hn q) rfl
  · intro i q b hi
    simp only [hn]
    exact hr.cierres i q b ((hcierra i q b).mp hi)
  · intro q hsome hno hcie
    simp only [hn, hq] at hsome hno
    exact hr.intactas q hsome hno fun i b hi => hcie i b ((hcierra i q b).mpr hi)
  · exact fun q hno => hr.ajenas q fun h => hno ((hconsulta q).mpr h)
  · intro q hcons hnada
    simp only [hn] at hnada
    exact hr.cumplidas q ((hconsulta q).mp hcons) hnada

/-- The Query is taken from its Worker: the run has reported all there is to report, and
only the end is left to send. -/
theorem entregando_termina (hr : Entregando guion r) (hm : EnLinea m)
    (hlector : ∀ k l, r.lector k = some l → m.hilos[k]? = some .bucleWorker ∧ LectorVale m k l)
    {k q n : ℕ} (hquery : queryDe r.master k = some q)
    (hq : queryDe m = Function.update (queryDe r.master) k none)
    (hnum : numeroDe r.master q = some n) (hn : numeroDe m = numeroDe r.master)
    (hs : saliente m = saliente r.master) (hleyo : papelDe r.master k = .fin n)
    (hp : papelDe m = Function.update (papelDe r.master) k (.cierra q false)) :
    Entregando guion { r with master := m } := by
  have hotro : ∀ i, i ≠ k → papelDe m i = papelDe r.master i := fun i hi => by
    rw [hp, Function.update_of_ne hi]
  have hself : papelDe m k = .cierra q false := by rw [hp, Function.update_self]
  have hotra : ∀ v, v ≠ k → queryDe m v = queryDe r.master v := fun v hv => by
    rw [hq, Function.update_of_ne hv]
  have higual : ∀ v, v ≠ k → IgualEn r { r with master := m } v := fun v hv =>
    ⟨leido_congr (hotro v hv) rfl, rfl, rfl, rfl, fun p => by rw [hs]⟩
  obtain ⟨a, hechas, faltan, ha, hmarcha, hgot, htodo⟩ := hr.ocupados k q hquery
  obtain ⟨resto, hleido⟩ : ∃ resto, leido r k = .fin n :: resto := by
    unfold leido
    rw [hleyo]
    exact ⟨_, rfl⟩
  rw [hleido] at htodo
  obtain ⟨-, hresto, htermina, rfl⟩ := fin_de_avisos htodo
  obtain ⟨hcola, hfaltan⟩ := List.append_eq_nil_iff.mp (List.append_eq_nil_iff.mp hresto).2
  have hlector' : r.lector k = none := by
    cases hl : r.lector k with
    | none => rfl
    | some l =>
      have hbucle := papelDe_of_hilo (hr.lectores k l hl).1
      rw [hleyo] at hbucle
      cases hbucle
  have hocio : Ocioso { r with master := m } k := by
    have hno : ∀ ls, faltan ≠ avisos ⟨ls, (guion q).termina⟩ a := by
      intro ls h
      rw [hfaltan] at h
      simp [avisos, htermina] at h
    cases hmarcha with
    | porEnviar path hsale hw hc => exact absurd rfl (hno (guion q).lecturas)
    | enCamino path hsale hw hc => exact absurd rfl (hno (guion q).lecturas)
    | corriendo ls hsale hw hc => exact absurd rfl (hno ls)
    | hecha hsale hw hc =>
      refine ⟨?_, hcola, hw, hc, fun p => hs ▸ hsale p⟩
      simp [leido, hself, hlector']
  constructor
  · exact hm
  · exact hlector
  · intro v hv
    by_cases hvk : v = k
    · subst hvk
      exact hocio
    · exact ocioso_congr (hr.ociosos v (hotra v hvk ▸ hv)) (higual v hvk)
  · intro v p hv
    have hvk : v ≠ k := by
      rintro rfl
      simp [hq] at hv
    exact ocupado_congr (hr.ocupados v p (hotra v hvk ▸ hv)) (higual v hvk) (congrFun hn p) rfl
  · intro i p b hi
    simp only [hn]
    by_cases hik : i = k
    · subst hik
      obtain ⟨rfl, rfl⟩ := Papel.cierra.inj (hself.symm.trans hi)
      refine ⟨by simp [hnum], ?_⟩
      simp [hgot, entregas, htermina]
    · exact hr.cierres i p b (hotro i hik ▸ hi)
  · intro p hsome hno hcie
    simp only [hn] at hsome
    have hpq : p ≠ q := by
      rintro rfl
      exact hcie k false hself
    refine hr.intactas p hsome (fun v hv => ?_) (fun i b hi => ?_)
    · by_cases hvk : v = k
      · subst hvk
        exact hpq (Option.some.inj (hv.symm.trans hquery))
      · exact hno v ((hotra v hvk).trans hv)
    · have hik : i ≠ k := by
        rintro rfl
        rw [hleyo] at hi
        cases hi
      exact hcie i b ((hotro i hik).trans hi)
  · intro p hno
    refine hr.ajenas p fun h => hno ?_
    have hpk : p ≠ k := by
      rintro rfl
      rw [hleyo] at h
      cases h
    exact (hotro p hpk).trans h
  · intro p hcons hnada
    simp only [hn] at hnada
    have hpk : p ≠ k := by
      rintro rfl
      simp [hself] at hcons
    exact hr.cumplidas p (hotro p hpk ▸ hcons) hnada

/-- The Query Control is told of the end. -/
theorem entregando_avisaFin (hr : Entregando guion r) (hm : EnLinea m)
    (hlector : ∀ k l, r.lector k = some l → m.hilos[k]? = some .bucleWorker ∧ LectorVale m k l)
    {k q : ℕ} (hq : queryDe m = queryDe r.master) (hn : numeroDe m = numeroDe r.master)
    (hs : saliente m = saliente r.master) (hcierra : papelDe r.master k = .cierra q false)
    (hp : papelDe m = Function.update (papelDe r.master) k (.cierra q true)) :
    Entregando guion { r with master := m, alControl := agregar r.alControl q .fin } := by
  have hotro : ∀ i, i ≠ k → papelDe m i = papelDe r.master i := fun i hi => by
    rw [hp, Function.update_of_ne hi]
  have hself : papelDe m k = .cierra q true := by rw [hp, Function.update_self]
  have hctl : ∀ p, p ≠ q → agregar r.alControl q .fin p = r.alControl p := fun p hpq =>
    Function.update_of_ne hpq ..
  obtain ⟨hsome, htodo⟩ := hr.cierres k q false hcierra
  obtain ⟨x, hx, -⟩ := Option.map_eq_some_iff.mp (Option.get_mem hsome)
  have hconsulta := (hr.linea.nuevas q x hx).2.2
  have higual : ∀ v, IgualEn r { r with
      master := m
      alControl := agregar r.alControl q .fin } v := by
    intro v
    refine ⟨?_, rfl, rfl, rfl, fun p => by rw [hs]⟩
    by_cases hvk : v = k
    · subst hvk
      unfold leido
      rw [hself, hcierra]
    · exact leido_congr (hotro v hvk) rfl
  constructor
  · exact hm
  · exact hlector
  · exact fun v hv => ocioso_congr (hr.ociosos v (hq ▸ hv)) (higual v)
  · intro v p hv
    rw [hq] at hv
    have hpq : p ≠ q := by
      rintro rfl
      exact not_cierra_of_queryDe hr.linea hv hcierra
    exact ocupado_congr (hr.ocupados v p hv) (higual v) (congrFun hn p) (hctl p hpq)
  · intro i p b hi
    simp only [hn]
    by_cases hik : i = k
    · subst hik
      obtain ⟨rfl, rfl⟩ := Papel.cierra.inj (hself.symm.trans hi)
      exact ⟨hsome, by simpa [agregar] using htodo⟩
    · have hold := hotro i hik ▸ hi
      have hpq : p ≠ q := by
        rintro rfl
        exact hik (unica_cierra hr.linea hold hcierra)
      rw [hctl p hpq]
      exact hr.cierres i p b hold
  · intro p hnum hno hcie
    simp only [hn, hq] at hnum hno
    have hpq : p ≠ q := by
      rintro rfl
      exact hcie k true hself
    refine (hctl p hpq).trans ?_
    refine hr.intactas p hnum hno fun i b hi => ?_
    by_cases hik : i = k
    · subst hik
      exact hpq (Papel.cierra.inj (hi.symm.trans hcierra)).1
    · exact hcie i b ((hotro i hik).trans hi)
  · intro p hno
    have hpq : p ≠ q := by
      rintro rfl
      refine hno ?_
      by_cases hpk : p = k
      · subst hpk
        rw [hconsulta] at hcierra
        cases hcierra
      · exact (hotro p hpk).trans hconsulta
    refine (hctl p hpq).trans ?_
    refine hr.ajenas p fun h => hno ?_
    have hpk : p ≠ k := by
      rintro rfl
      rw [hcierra] at h
      cases h
    exact (hotro p hpk).trans h
  · intro p hcons hnada
    simp only [hn] at hnada
    have hpq : p ≠ q := by
      rintro rfl
      rw [hnada] at hsome
      cases hsome
    have hpk : p ≠ k := by
      rintro rfl
      simp [hself] at hcons
    refine (hctl p hpq).trans ?_
    exact hr.cumplidas p (hotro p hpk ▸ hcons) hnada

/-- The record of the Query is freed, once its Query Control has been sent all. -/
theorem entregando_libera (hr : Entregando guion r) (hm : EnLinea m)
    (hlector : ∀ k l, r.lector k = some l → m.hilos[k]? = some .bucleWorker ∧ LectorVale m k l)
    {k q : ℕ} (hq : queryDe m = queryDe r.master)
    (hn : numeroDe m = Function.update (numeroDe r.master) q none)
    (hs : saliente m = saliente r.master) (hcierra : papelDe r.master k = .cierra q true)
    (hp : papelDe m = Function.update (papelDe r.master) k .oyente) :
    Entregando guion { r with master := m } := by
  have hotro : ∀ i, i ≠ k → papelDe m i = papelDe r.master i := fun i hi => by
    rw [hp, Function.update_of_ne hi]
  have hself : papelDe m k = .oyente := by rw [hp, Function.update_self]
  have hnum : ∀ p, p ≠ q → numeroDe m p = numeroDe r.master p := fun p hpq => by
    rw [hn, Function.update_of_ne hpq]
  obtain ⟨hsome, htodo⟩ := hr.cierres k q true hcierra
  have higual : ∀ v, IgualEn r { r with master := m } v := by
    intro v
    refine ⟨?_, rfl, rfl, rfl, fun p => by rw [hs]⟩
    by_cases hvk : v = k
    · subst hvk
      unfold leido
      rw [hself, hcierra]
    · exact leido_congr (hotro v hvk) rfl
  have hne : ∀ {i p : ℕ} {b : Bool}, i ≠ k → papelDe r.master i = .cierra p b → p ≠ q := by
    rintro i p b hik hi rfl
    exact hik (unica_cierra hr.linea hi hcierra)
  constructor
  · exact hm
  · exact hlector
  · exact fun v hv => ocioso_congr (hr.ociosos v (hq ▸ hv)) (higual v)
  · intro v p hv
    rw [hq] at hv
    have hpq : p ≠ q := by
      rintro rfl
      exact not_cierra_of_queryDe hr.linea hv hcierra
    exact ocupado_congr (hr.ocupados v p hv) (higual v) (hnum p hpq) rfl
  · intro i p b hi
    have hik : i ≠ k := by
      rintro rfl
      rw [hself] at hi
      cases hi
    have hold := hotro i hik ▸ hi
    simp only [hnum p (hne hik hold)]
    exact hr.cierres i p b hold
  · intro p hnow hno hcie
    have hpq : p ≠ q := by
      rintro rfl
      simp [hn] at hnow
    simp only [hnum p hpq, hq] at hnow hno
    refine hr.intactas p hnow hno fun i b hi => ?_
    by_cases hik : i = k
    · subst hik
      exact hpq (Papel.cierra.inj (hi.symm.trans hcierra)).1
    · exact hcie i b ((hotro i hik).trans hi)
  · intro p hno
    refine hr.ajenas p fun h => hno ?_
    have hpk : p ≠ k := by
      rintro rfl
      rw [hcierra] at h
      cases h
    exact (hotro p hpk).trans h
  · intro p hcons hnada
    have hpk : p ≠ k := by
      rintro rfl
      simp [hself] at hcons
    by_cases hpq : p = q
    · rw [hpq]
      simpa using htodo
    · exact hr.cumplidas p (hotro p hpk ▸ hcons) (hnum p hpq ▸ hnada)

end Master

section Corridas

variable {e : Evento} {m : Master}

/-- A thread in its loop stays there until it reads a message. -/
theorem bucle_of_movimiento {s' : Master} (hm : MovimientoDeRed s e s') {k : ℕ}
    (hk : s.hilos[k]? = some .bucleWorker) (he : ∀ n, e ≠ .mensaje k (.finQuery (some n))) :
    s'.hilos[k]? = some .bucleWorker := by
  have hset : ∀ {i : ℕ} {hl hl' : Hilo}, s.hilos[i]? = some hl → hl ≠ .bucleWorker →
      (s.hilos.set i hl')[k]? = some .bucleWorker := by
    intro i hl hl' hi hne
    rw [List.getElem?_set_ne, hk]
    rintro rfl
    exact hne (Option.some.inj (hi.symm.trans hk))
  cases hm with
  | conectaQuery path prioridad =>
    exact (List.getElem?_append_left (List.getElem?_eq_some_iff.mp hk).1).trans hk
  | conectaWorker id =>
    exact (List.getElem?_append_left (List.getElem?_eq_some_iff.mp hk).1).trans hk
  | recibe i n hi =>
    have hik : i ≠ k := by
      rintro rfl
      exact he n rfl
    exact (List.getElem?_set_ne hik).trans hk
  | esperaQuery hp hsem => exact hk
  | esperaWorker hp hsem => exact hk
  | desencola q l hp hcola => exact hk
  | tomaWorker q w y hp hlibre hy => exact hk
  | asigna q w x y hp hq hw hy => exact hk
  | envia q w p hp => exact hk
  | _ => exact hset (by assumption) (by simp)

theorem lectorVale_of_vista {s' : Master} (hv : Vista s e s') {k : ℕ} {l : Lector}
    (hoye : papelDe s k = .oyente) (h : LectorVale s k l) : LectorVale s' k l := by
  cases l with
  | buscar l => trivial
  | atender l w => exact h
  | enviar l q =>
    refine ⟨?_, h.2⟩
    have hq := h.1
    cases hv with
    | asigna p w n path hnone hq' hnum hn hplan hs hp hpaq hfin =>
      have hkw : k ≠ w := by
        rintro rfl
        rw [hnone] at hq
        cases hq
      rw [hq', Function.update_of_ne hkw, hq]
    | termina i p n hquery hq' hnum hn hs hleyo hp hpaq hfin =>
      have hki : k ≠ i := by
        rintro rfl
        rw [hoye] at hleyo
        cases hleyo
      rw [hq', Function.update_of_ne hki, hq]
    | quieta hq' hn hs hp hpaq hfin => rw [hq', hq]
    | registra i n hq' hnone hn hs hfuera hp hpaq hfin => rw [hq', hq]
    | envia w p hq' hn hsale hs hp hpaq hfin => rw [hq', hq]
    | recibe i n hq' hn hs he hoye hp => rw [hq', hq]
    | avisaFin i p hq' hn hs hcierra hp hpaq hfin => rw [hq', hq]
    | libera i p hq' hn hs hcierra hp hpaq hfin => rw [hq', hq]

theorem entregando_master (hr : Entregando guion r) (hd : deRed r.master e = true)
    (h : paso L ⟨.fifo, t⟩ r.master e = .ok m) :
    Entregando guion { r with
      master := m
      alWorker := conPaquete r.alWorker (paqueteEnviado r.master e)
      alControl := conFin r.alControl (finEnviado r.master e) } := by
  have hfines := finesAtendidos_of_entregando hr
  have hmov := movimientoDeRed_of_paso hr.linea hfines (Or.inl hd) h
  have hlinea := enLinea_paso hr.linea hfines (Or.inl hd) h
  have hv := vista_of_movimiento hr.linea hmov
  have he : ∀ k n, e ≠ .mensaje k (.finQuery (some n)) := by
    rintro k n rfl
    simp [deRed] at hd
  have hlector : ∀ k l, r.lector k = some l →
      m.hilos[k]? = some .bucleWorker ∧ LectorVale m k l := fun k l hl => by
    obtain ⟨hk, hvale⟩ := hr.lectores k l hl
    exact ⟨bucle_of_movimiento hmov hk (he k), lectorVale_of_vista hv (papelDe_of_hilo hk) hvale⟩
  cases hv with
  | quieta hq hn hs hp hpaq hfin =>
    rw [hpaq, hfin]
    refine entregando_quieta hr hlinea hlector hq hn hs fun k => (hp k).imp_right ?_
    exact fun h => ⟨h.1, h.2.1⟩
  | registra k n hq hnone hn hs hfuera hp hpaq hfin =>
    rw [hpaq, hfin]
    exact entregando_registra hr hlinea hlector hq hnone hn hs hfuera hp
  | asigna q w n path hnone hq hnum hn hplan hs hp hpaq hfin =>
    rw [hpaq, hfin]
    exact entregando_asigna hr hlinea hlector hnone hq hnum hn hplan hs hp
  | envia w p hq hn hsale hs hp hpaq hfin =>
    rw [hpaq, hfin]
    exact entregando_envio hr hlinea hlector hq hn hsale hs hp
  | recibe k n hq hn hs hmensaje hoye hp => exact absurd hmensaje (he k n)
  | termina k q n hquery hq hnum hn hs hleyo hp hpaq hfin =>
    rw [hpaq, hfin]
    exact entregando_termina hr hlinea hlector hquery hq hnum hn hs hleyo hp
  | avisaFin k q hq hn hs hcierra hp hpaq hfin =>
    rw [hpaq, hfin]
    exact entregando_avisaFin hr hlinea hlector hq hn hs hcierra hp
  | libera k q hq hn hs hcierra hp hpaq hfin =>
    rw [hpaq, hfin]
    exact entregando_libera hr hlinea hlector hq hn hs hcierra hp

theorem entregando_mensaje (hr : Entregando guion r) {k n : ℕ} {resto : List Aviso}
    (hl : r.lector k = none) (ha : r.alMaster k = .fin n :: resto)
    (h : paso L ⟨.fifo, t⟩ r.master (.mensaje k (.finQuery (some n))) = .ok m) :
    Entregando guion { r with master := m, alMaster := Function.update r.alMaster k resto } := by
  have hfines := finesAtendidos_of_entregando hr
  have htomado : TomadoPorRed r.master (.mensaje k (.finQuery (some n))) := Or.inr ⟨k, n, rfl⟩
  have hmov := movimientoDeRed_of_paso hr.linea hfines htomado h
  have hlinea := enLinea_paso hr.linea hfines htomado h
  have hv := vista_of_movimiento hr.linea hmov
  have hlector : ∀ i l, r.lector i = some l →
      m.hilos[i]? = some .bucleWorker ∧ LectorVale m i l := fun i l hi => by
    obtain ⟨hb, hvale⟩ := hr.lectores i l hi
    have hne : k ≠ i := by
      rintro rfl
      rw [hl] at hi
      cases hi
    refine ⟨bucle_of_movimiento hmov hb (fun a heq => ?_),
      lectorVale_of_vista hv (papelDe_of_hilo hb) hvale⟩
    exact hne (Evento.mensaje.inj heq).1
  cases hmov with
  | recibe k n hk =>
    exact entregando_recibeFin hr hlinea hl ha hlector rfl rfl rfl (papelDe_of_hilo hk)
      (papelDe_set hk rfl rfl)

/-- Every step of the network keeps the reports in order. -/
theorem entregando_paso (hr : Entregando guion r) {a : Accion}
    (h : pasoRed L t guion r a = .ok r') : Entregando guion r' := by
  cases avance_of_pasoRed h with
  | master e m hd hm => exact entregando_master hr hd hm
  | toma w q qid pc path resto hc hw => exact entregando_toma hr hw
  | informa w q qid l ls hc => exact entregando_informa hr hc
  | vuelve w q qid hc => exact entregando_vuelve hr hc
  | recibeLectura k l resto hl ha hk => exact entregando_recibeLectura hr hl ha hk
  | recibeFin k n resto m hl ha hm => exact entregando_mensaje hr hl ha hm
  | busca k l hl =>
    obtain ⟨hk, _⟩ := hr.lectores k _ hl
    refine entregando_sigue hr hl rfl ?_
    exact hr.linea.buscarWorkerPorSocket_eq (hr.linea.listado hk trivial)
  | sinWorker k l hl => exact absurd (hr.lectores k _ hl).2 (by simp [LectorVale])
  | atiende k w l y hl hy =>
    obtain ⟨hk, hvale⟩ := hr.lectores k _ hl
    obtain rfl := Option.some.inj hvale
    obtain ⟨q, hq, -⟩ := activo_of_not_ocioso hr (w := w)
      (fun h => by simpa [leido_of_bucle hk, hl] using h.leido)
    have hejecuta : y.ejecutando = some q := by simpa [queryDe, hy] using hq
    by_cases hlargo : 0 < l.contenido.length
    · rw [if_pos hlargo, hejecuta]
      exact entregando_sigue hr hl rfl ⟨hq, hlargo⟩
    · rw [if_neg hlargo]
      exact entregando_descarta hr hl hlargo
  | envia k q l x hl hx => exact entregando_envia hr hl hx

theorem entregando_run (hr : Reaches (pasoRed L t guion) redInicial r) : Entregando guion r :=
  run_invariant (fun _ _ _ hr h => entregando_paso hr h) (entregando_inicial guion) hr

/-- Its thread has registered the Query, and its record is freed. -/
def Terminada (s : Master) (q : ℕ) : Prop := papelDe s q = .consulta ∧ s.memQueries q = none

instance (s : Master) (q : ℕ) : Decidable (Terminada s q) := inferInstanceAs (Decidable (_ ∧ _))

/-- Each connection is sent what it should be in part, in whole if its Query is over, and
nothing if it is not a Query Control's. -/
structure BienEntregado (guion : ℕ → Guion) (r : Red) (q : ℕ) : Prop where
  parte : r.alControl q <+: entregas (guion q)
  todo : Terminada r.master q → r.alControl q = entregas (guion q)
  ajena : papelDe r.master q ≠ .consulta → r.alControl q = []

theorem prefijo_of_entregando (hr : Entregando guion r) (q : ℕ) :
    r.alControl q <+: entregas (guion q) := by
  by_cases hrun : ∃ w, queryDe r.master w = some q
  · obtain ⟨w, hw⟩ := hrun
    obtain ⟨n, hechas, faltan, -, -, hgot, htodo⟩ := hr.ocupados w q hw
    obtain ⟨ls, hls⟩ := prefijo_de_avisos htodo
    rw [hgot, entregas, ← hls, List.flatMap_append, List.append_assoc]
    exact List.prefix_append _ _
  by_cases hcie : ∃ k b, papelDe r.master k = .cierra q b
  · obtain ⟨k, b, hk⟩ := hcie
    rw [← (hr.cierres k q b hk).2]
    exact List.prefix_append _ _
  cases hnum : numeroDe r.master q with
  | some n =>
    have hnada := hr.intactas q (by simp [hnum]) (fun w hw => hrun ⟨w, hw⟩)
      (fun k b hk => hcie ⟨k, b, hk⟩)
    rw [hnada]
    exact List.nil_prefix
  | none =>
    by_cases hcons : papelDe r.master q = .consulta
    · exact hr.cumplidas q hcons hnum ▸ List.prefix_refl _
    · rw [hr.ajenas q hcons]
      exact List.nil_prefix

/-- Under FIFO, in any interleaving of any number of Query Controls and Workers, each
Query Control is sent the READs of its own Query and one end, in order and nothing else,
and all of it by the time its Query is freed, as long as no connection is opened after one
has been closed. -/
theorem bienEntregado_run (L : ListSort ℕ) (t : ℤ) (guion : ℕ → Guion)
    (hr : Reaches (pasoSinReuso L t guion) redInicial r) (q : ℕ) : BienEntregado guion r q := by
  obtain ⟨acciones, hrun⟩ := hr
  have he := entregando_run ⟨acciones, run_of_sinReuso hrun⟩
  refine ⟨prefijo_of_entregando he q, fun h => he.cumplidas q h.1 ?_, he.ajenas q⟩
  simp [numeroDe, h.2]

def unaLectura : Guion := ⟨[⟨[97, 58, 98], [120], by decide, by decide⟩], true⟩

/-- A Query Control and a Worker connect, and the Query reads once and ends. -/
def corridaEntregada : List Accion :=
  [.master (.conectaQuery [] 0), .master (.conectaWorker 7)] ++
    List.replicate 4 (.master (.hilo 0 true)) ++ List.replicate 2 (.master (.hilo 1 true)) ++
    List.replicate 6 (.master (.planificador true)) ++
    [.toma 1, .informa 1, .informa 1, .recibe 1, .lee 1, .lee 1, .lee 1, .recibe 1] ++
    List.replicate 7 (.master (.hilo 1 true))

theorem bienEntregado_run_corrida :
    BienEntregado (fun _ => unaLectura)
      (after (pasoSinReuso (insertionSort ℕ) 0 fun _ => unaLectura) redInicial
        corridaEntregada) 0 :=
  bienEntregado_run (insertionSort ℕ) 0 (fun _ => unaLectura)
    ⟨corridaEntregada, run_eq_after (by decide)⟩ 0

example : (after (pasoSinReuso (insertionSort ℕ) 0 fun _ => unaLectura) redInicial
    corridaEntregada).alControl 0 = entregas unaLectura := by decide

end Corridas

end MasterOfFiles.ReportDelivery
