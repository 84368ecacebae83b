import Mathlib.Data.Finset.Max
import Mathlib.Data.List.MinMax
import MasterOfFiles.AccessBounds

/-!
Which page LRU gives up. A frame keeps the time of the last access to its page in
milliseconds, so the times never contradict the order of the accesses but may not tell
it: of pages last used in the same millisecond the one in the first frame goes. A frame
that a failed fetch left without names keeps the time of the page it had, and goes first.
-/
namespace MasterOfFiles.AccessRecency

open ByteBuffers WorkerMemory FrameTables ReplacementPolicies PagingSimulation
open TransparentPaging FrameInvariants

variable {σ : Type*} {ram : Ram} {reloj : Reloj} {w : Worker σ}
  {m m' : Memoria} {h : List Clave} {i j v : ℕ} {k k' : Clave}

section Orden

/-- The last access to `k` comes before the last one to `k'`. The accesses are listed
with the latest first. -/
def UsadaAntes (h : List Clave) (k k' : Clave) : Prop := k ∈ h ∧ h.idxOf k' < h.idxOf k

instance (h : List Clave) (k k' : Clave) : Decidable (UsadaAntes h k k') :=
  inferInstanceAs (Decidable (_ ∧ _))

theorem not_usadaAntes_cons (k k' : Clave) (h : List Clave) : ¬ UsadaAntes (k :: h) k k' := by
  intro hantes
  have hlt := hantes.2
  rw [List.idxOf_cons_self] at hlt
  exact absurd hlt (Nat.not_lt_zero _)

/-- Of the other pages a further access tells nothing. -/
theorem usadaAntes_cons_iff {x : Clave} (hk : k ≠ x) (hk' : k' ≠ x) :
    UsadaAntes (x :: h) k k' ↔ UsadaAntes h k k' := by
  unfold UsadaAntes
  rw [List.idxOf_cons_ne h hk.symm, List.idxOf_cons_ne h hk'.symm, Nat.succ_lt_succ_iff,
    List.mem_cons, or_iff_right hk]

theorem usadaAntes_cons_self_iff {x : Clave} (hk : k ≠ x) :
    UsadaAntes (x :: h) k x ↔ k ∈ h := by
  unfold UsadaAntes
  rw [List.idxOf_cons_self, List.idxOf_cons_ne h hk.symm, List.mem_cons, or_iff_right hk]
  exact and_iff_left (Nat.succ_pos _)

/-- A page accessed twice in a row is where it was. -/
theorem usadaAntes_repetir_iff {x : Clave} :
    UsadaAntes (x :: x :: h) k k' ↔ UsadaAntes (x :: h) k k' := by
  rcases eq_or_ne k x with rfl | hk
  · exact iff_of_false (not_usadaAntes_cons _ _ _) (not_usadaAntes_cons _ _ _)
  · rcases eq_or_ne k' x with rfl | hk'
    · rw [usadaAntes_cons_self_iff hk, usadaAntes_cons_self_iff hk, List.mem_cons,
        or_iff_right hk]
    · exact usadaAntes_cons_iff hk hk'

end Orden

section Minimo

/-- The first place with the smallest value. -/
theorem argmin_range_eq_some_iff {u : ℕ → ℕ} {n : ℕ} :
    (List.range n).argmin u = some v ↔
      v < n ∧ (∀ j < n, u v ≤ u j) ∧ ∀ j < v, u v < u j := by
  have hidx : ∀ j < n, (List.range n).idxOf j = j := by
    intro j hj
    have hlt : j < (List.range n).length := by
      rw [List.length_range]
      exact hj
    have hidxOf := List.nodup_range.idxOf_getElem j hlt
    rwa [List.getElem_range] at hidxOf
  rw [List.argmin_eq_some_iff]
  simp only [List.mem_range]
  constructor
  · intro hmin
    obtain ⟨hv, hle, hfirst⟩ := hmin
    refine ⟨hv, hle, fun j hj => ?_⟩
    by_contra hno
    have hlt : j < n := hj.trans hv
    have hidxOf := hfirst j hlt (Nat.le_of_not_lt hno)
    rw [hidx v hv, hidx j hlt] at hidxOf
    exact absurd hj (Nat.not_lt.mpr hidxOf)
  · intro hmin
    obtain ⟨hv, hle, hfirst⟩ := hmin
    refine ⟨hv, hle, fun j hj huj => ?_⟩
    rw [hidx v hv, hidx j hj]
    by_contra hno
    exact absurd (hfirst j (Nat.lt_of_not_le hno)) (Nat.not_lt.mpr huj)

/-- The loop of algoritmo_LRU, among occupied frames: the first of the oldest ones. -/
theorem lruDesde_eq_argmin {u : ℕ → ℕ} {fs : List Marco} {victima : Option ℕ} {peor : ℕ}
    (hfs : ∀ n f, fs[n]? = some f → f.libre = false ∧ f.lastUsed = u (i + n))
    (hcota : ∀ f ∈ fs, f.lastUsed < 2 ^ 64 - 1)
    (hvictima : (List.range i).argmin u = victima)
    (hpeor : peor = (victima.map u).getD (2 ^ 64 - 1)) :
    lruDesde fs i victima peor = (List.range (i + fs.length)).argmin u := by
  induction fs generalizing i victima peor with
  | nil => exact hvictima.symm
  | cons f fs ih =>
    obtain ⟨hlibre, hu⟩ := hfs 0 f rfl
    have hresto : ∀ n g, fs[n]? = some g → g.libre = false ∧ g.lastUsed = u (i + 1 + n) := by
      intro n g hg
      have hsig := hfs (n + 1) g hg
      rwa [← Nat.add_assoc, Nat.add_right_comm] at hsig
    have hcota' : ∀ g ∈ fs, g.lastUsed < 2 ^ 64 - 1 :=
      fun g hg => hcota g (List.mem_cons_of_mem _ hg)
    have hlength : i + (f :: fs).length = i + 1 + fs.length := by
      rw [List.length_cons]
      omega
    have hsig : (List.range (i + 1)).argmin u =
        Option.casesOn victima (some i) fun c => if u i < u c then some i else some c := by
      rw [List.range_succ, List.argmin_concat, hvictima]
    unfold lruDesde
    rw [hlength]
    split_ifs with hmejor
    · refine ih hresto hcota' ?_ hu
      rw [hsig]
      cases victima with
      | none => rfl
      | some c =>
        have hlt : u i < u c := by
          have hlt := hmejor.2
          rwa [hu, hpeor] at hlt
        exact if_pos hlt
    · refine ih hresto hcota' ?_ hpeor
      rw [hsig]
      cases victima with
      | none =>
        refine absurd ⟨hlibre, ?_⟩ hmejor
        rw [hpeor]
        exact hcota f (List.mem_cons_self ..)
      | some c =>
        refine if_neg fun hlt => hmejor ⟨hlibre, ?_⟩
        rw [hu, hpeor]
        exact hlt

/-- The time of the last use of frame `i`. -/
def uso (m : Memoria) (i : ℕ) : ℕ := ((m.frames[i]?).map Marco.lastUsed).getD 0

/-- LRU gives up the first of the frames with the oldest time. -/
theorem algoritmoLRU_eq_some_iff (hm : Ordenada ram m)
    (hocupado : ∀ f ∈ m.frames, f.libre = false) : algoritmoLRU m = some v ↔
      v < m.frames.length ∧ (∀ j < m.frames.length, uso m v ≤ uso m j) ∧
        ∀ j < v, uso m v < uso m j := by
  have hbucle : lruDesde m.frames 0 none (2 ^ 64 - 1) =
      (List.range (0 + m.frames.length)).argmin (uso m) := by
    refine lruDesde_eq_argmin (fun n f hf => ⟨hocupado f (List.mem_of_getElem? hf), ?_⟩)
      (fun f hf => ?_) rfl rfl
    · unfold uso
      rw [Nat.zero_add, hf, Option.map_some, Option.getD_some]
    · obtain ⟨n, hn⟩ := List.mem_iff_getElem?.mp hf
      have hreloj := hm.reloj n f hn
      omega
  unfold algoritmoLRU
  rw [hbucle, Nat.zero_add, argmin_range_eq_some_iff]

end Minimo

section Accesos

variable (ram : Ram) (reloj : Reloj) (srv : Servidor σ)

/-- A call of traer_pagina: the state it is made in, the page it is for and the pages
accessed before, the latest first. -/
structure Busqueda (σ : Type*) where
  worker : Worker σ
  pagina : Clave
  accesos : List Clave

/-- The calls of traer_pagina in the loop of acceder_memoria, with the state and the
accesses the loop ends in. -/
def busquedasDesde (a : Acceso) : ℕ → Worker σ → List Clave → Bytes → ℕ → ℕ →
    List (Busqueda σ) × Worker σ × List Clave
  | 0, w, h, _, _, _ => ([], w, h)
  | rondas + 1, w, h, salida, desplaz, restante =>
    if restante = 0 then ([], w, h)
    else
      let k : Clave := ((a.file, a.tag), nroPagina ram (a.base + desplaz))
      match traerPagina ram reloj srv w k.1.1 k.1.2 k.2 with
      | (w', none) => ([⟨w, k, h⟩], w', h)
      | (w', some marco) =>
        let chunk := tramo ram (a.base + desplaz) restante
        let (w', salida) := accederMarco ram reloj a w' marco salida desplaz chunk
        let (bs, w', h') := busquedasDesde a rondas w' (k :: h) salida (desplaz + chunk)
          (restante - chunk)
        (⟨w, k, h⟩ :: bs, w', h')

/-- The calls of traer_pagina in a sequence of accesses. -/
def busquedas : List (Acceso × ℕ × Bytes) → Worker σ → List Clave → List (Busqueda σ)
  | [], _, _ => []
  | (a, size, salida) :: xs, w, h =>
    let (bs, w', h') := busquedasDesde ram reloj srv a size w h salida 0 size
    bs ++ busquedas xs w' h'

/-- Frame `i` holds the page whose most recent access comes first. -/
structure MenosReciente (m : Memoria) (h : List Clave) (i : ℕ) (k : Clave) : Prop where
  clave_eq : clave m i = some k
  antes : ∀ j k', clave m j = some k' → k' ≠ k → UsadaAntes h k k'

/-- The page is not in memory and no frame is free. -/
structure Reemplaza (b : Busqueda σ) : Prop where
  falta : b.worker.memoria.frames.findIdx?
    (frameMatchea b.pagina.1.1 b.pagina.1.2 b.pagina.2) = none
  llena : buscarMarcoLibre b.worker.memoria = none
  marcos : 0 < b.worker.memoria.frames.length

/-- The victim is the page whose most recent access comes first. -/
def VictimaMenosReciente (b : Busqueda σ) : Prop :=
  ∃ v k, (elegirAlgoritmo ram b.worker.memoria).2 = some v ∧
    MenosReciente b.worker.memoria b.accesos v k

/-- No frame in front of that of the page due has its time, and no frame without a page
has an older one. -/
def SinEmpate (b : Busqueda σ) : Prop :=
  ∃ i k, MenosReciente b.worker.memoria b.accesos i k ∧
    (∀ j < i, uso b.worker.memoria j ≠ uso b.worker.memoria i) ∧
    ∀ j < b.worker.memoria.frames.length, clave b.worker.memoria j = none →
      uso b.worker.memoria i ≤ uso b.worker.memoria j

end Accesos

section MismoUso

theorem uso_modificarMarco (m : Memoria) (i : ℕ) (g : Marco → Marco) (j : ℕ) :
    uso (modificarMarco m i g) j =
      if j = i then ((m.frames[i]?).map fun f => (g f).lastUsed).getD 0 else uso m j := by
  unfold uso
  rw [frames_modificarMarco]
  split_ifs
  · rw [Option.map_map]
    rfl
  · rfl

/-- The times are the same, and the clock has not been read. -/
structure MismoUso (m m' : Memoria) : Prop where
  uso_eq : ∀ j, uso m' j = uso m j
  lecturas : m'.lecturasReloj = m.lecturasReloj

theorem MismoUso.refl (m : Memoria) : MismoUso m m := ⟨fun _ => rfl, rfl⟩

theorem MismoUso.trans {m'' : Memoria} (hm : MismoUso m m') (hm' : MismoUso m' m'') :
    MismoUso m m'' :=
  ⟨fun j => (hm'.uso_eq j).trans (hm.uso_eq j), hm'.lecturas.trans hm.lecturas⟩

theorem mismoUso_modificarMarco (m : Memoria) (i : ℕ) {g : Marco → Marco}
    (hg : ∀ f, (g f).lastUsed = f.lastUsed) : MismoUso m (modificarMarco m i g) := by
  refine ⟨fun j => ?_, rfl⟩
  rw [uso_modificarMarco]
  split_ifs with hj
  · simp only [hg, hj]
    rfl
  · rfl

theorem mismoUso_soloUso (hm : SoloUso m m') : MismoUso m m' := by
  refine ⟨fun j => ?_, hm.lecturas⟩
  have huso : ∀ o : Option Marco, o.map Marco.lastUsed = (o.map sinUso).map Marco.lastUsed := by
    intro o
    cases o <;> rfl
  unfold uso
  rw [huso, hm.marcos, ← huso]

theorem mismoUso_volcarSi (ram : Ram) (srv : Servidor σ) (p : Marco → Bool) (w : Worker σ)
    (i : ℕ) : MismoUso w.memoria (volcarSi ram srv p w i).1.memoria := by
  rcases volcarSi_memoria ram srv p w i with heq | heq
  · rw [heq]
    exact MismoUso.refl _
  · rw [heq]
    exact mismoUso_modificarMarco _ i fun _ => rfl

/-- Making room for a page is no use of the page that goes. -/
theorem mismoUso_elegirMarco (ram : Ram) (srv : Servidor σ) (w : Worker σ) :
    MismoUso w.memoria (elegirMarco ram srv w).1.memoria := by
  unfold elegirMarco
  split
  · exact MismoUso.refl _
  · have hsolo := (elegirAlgoritmo_soloUso ram w.memoria).1
    cases helegir : elegirAlgoritmo ram w.memoria with
    | mk m₁ victima =>
      rw [helegir] at hsolo
      have huso := mismoUso_soloUso hsolo
      cases victima with
      | none => exact huso
      | some v =>
        simp only
        unfold desalojar
        have hflush : MismoUso m₁ (flushFrame ram srv { w with memoria := m₁ } v).1.memoria :=
          mismoUso_volcarSi ram srv _ { w with memoria := m₁ } v
        cases hres : flushFrame ram srv { w with memoria := m₁ } v with
        | mk w₁ ok =>
          rw [hres] at hflush
          cases ok with
          | false => exact huso.trans hflush
          | true =>
            refine huso.trans (hflush.trans ?_)
            exact mismoUso_modificarMarco _ v fun _ => rfl

end MismoUso

section AlDia

/-- The times tell when the pages were accessed: of pages accessed one behind the other
the first has no later time, and none is later than what the clock says next. -/
structure AlDia (reloj : Reloj) (m : Memoria) (h : List Clave) : Prop where
  usada : ∀ i k, clave m i = some k → k ∈ h
  orden : ∀ i j k k', clave m i = some k → clave m j = some k' → UsadaAntes h k k' →
    uso m i ≤ uso m j
  pasado : ∀ i, uso m i ≤ reloj.ms m.lecturasReloj

theorem AlDia.menos (hal : AlDia reloj m h) (hs : SinNueva m m') (hu : MismoUso m m') :
    AlDia reloj m' h where
  usada := fun i k hk => hal.usada i k (hs i k hk)
  orden := by
    intro i j k k' hk hk' hantes
    rw [hu.uso_eq, hu.uso_eq]
    exact hal.orden i j k k' (hs i k hk) (hs j k' hk') hantes
  pasado := by
    intro i
    rw [hu.uso_eq, hu.lecturas]
    exact hal.pasado i

/-- A frame is given a page and the time. -/
theorem AlDia.acceder (hal : AlDia reloj m h) (hk : clave m' i = some k)
    (huso : uso m' i = reloj.ms m.lecturasReloj)
    (hlecturas : m'.lecturasReloj = m.lecturasReloj + 1)
    (hotros : ∀ j, j ≠ i → clave m' j = clave m j ∧ uso m' j = uso m j)
    (hunica : ∀ j, j ≠ i → clave m j ≠ some k) : AlDia reloj m' (k :: h) where
  usada := by
    intro j k' hk'
    rcases eq_or_ne j i with rfl | hne
    · obtain rfl := Option.some.inj (hk.symm.trans hk')
      exact List.mem_cons_self ..
    · exact List.mem_cons_of_mem _ (hal.usada j k' ((hotros j hne).1.symm.trans hk'))
  orden := by
    intro j j' x x' hx hx' hantes
    rcases eq_or_ne j i with rfl | hne
    · obtain rfl := Option.some.inj (hk.symm.trans hx)
      exact absurd hantes (not_usadaAntes_cons _ _ _)
    · rw [(hotros j hne).2]
      rcases eq_or_ne j' i with rfl | hne'
      · rw [huso]
        exact hal.pasado j
      · rw [(hotros j' hne').2]
        rw [(hotros j hne).1] at hx
        rw [(hotros j' hne').1] at hx'
        have hxk : x ≠ k := fun heq => hunica j hne (heq ▸ hx)
        have hxk' : x' ≠ k := fun heq => hunica j' hne' (heq ▸ hx')
        exact hal.orden j j' x x' hx hx' ((usadaAntes_cons_iff hxk hxk').mp hantes)
  pasado := by
    intro j
    have hmono : reloj.ms m.lecturasReloj ≤ reloj.ms m'.lecturasReloj :=
      reloj.mono (by omega)
    rcases eq_or_ne j i with rfl | hne
    · rw [huso]
      exact hmono
    · rw [(hotros j hne).2]
      exact (hal.pasado j).trans hmono

theorem AlDia.repetida (hal : AlDia reloj m (k :: k :: h)) : AlDia reloj m (k :: h) where
  usada := by
    intro i x hx
    rcases List.mem_cons.mp (hal.usada i x hx) with rfl | hmem
    · exact List.mem_cons_self ..
    · exact hmem
  orden := fun i j x x' hx hx' hantes =>
    hal.orden i j x x' hx hx' (usadaAntes_repetir_iff.mpr hantes)
  pasado := hal.pasado

theorem alDia_inicial (reloj : Reloj) (ram : Ram) :
    AlDia reloj (inicializarMemoria ram) [] := by
  have hnada : ∀ i k, clave (inicializarMemoria ram) i ≠ some k := by
    intro i k hk
    obtain ⟨f, hf, hclave⟩ := Option.bind_eq_some_iff.mp hk
    rw [frames_inicial hf] at hclave
    simp [marcoInicial, claveDe] at hclave
  refine ⟨fun i k hk => absurd hk (hnada i k), fun i j k k' hk => absurd hk (hnada i k), ?_⟩
  intro i
  unfold uso
  cases hf : (inicializarMemoria ram).frames[i]? with
  | none => exact Nat.zero_le _
  | some f =>
    rw [frames_inicial hf]
    exact Nat.zero_le _

/-- The touch of a frame that holds a page. -/
theorem AlDia.tocar (hal : AlDia reloj m h) (hs : TablaSana ram m) (hk : clave m i = some k) :
    AlDia reloj (tocar reloj m i) (k :: h) := by
  obtain ⟨f, hf, _⟩ := Option.bind_eq_some_iff.mp hk
  have huso : ∀ j, uso (WorkerMemory.tocar reloj m i) j =
      if j = i then reloj.ms m.lecturasReloj else uso m j := by
    intro j
    refine (uso_modificarMarco m i (usado (reloj.ms m.lecturasReloj)) j).trans ?_
    rw [hf]
    rfl
  refine hal.acceder ((clave_tocar reloj m i i).trans hk) ?_ rfl (fun j hj => ⟨?_, ?_⟩)
    fun j hj hjk => hj (hs.unica j i k hjk hk)
  · rw [huso, if_pos rfl]
  · exact clave_tocar reloj m i j
  · rw [huso, if_neg hj]

theorem AlDia.asignar (hal : AlDia reloj m h) (hs : TablaSana ram m) (hi : i < ram.frames)
    (hun : ∀ j, clave m j ≠ some k) :
    AlDia reloj (asignarMarco reloj m i k.1.1 k.1.2 k.2) (k :: h) := by
  obtain ⟨f, hf, _⟩ := hs.ordenada.marco hi
  have hclave := clave_asignarMarco reloj m i k.1.1 k.1.2 k.2
  have huso : ∀ j, uso (asignarMarco reloj m i k.1.1 k.1.2 k.2) j =
      if j = i then reloj.ms m.lecturasReloj else uso m j := by
    intro j
    refine (uso_modificarMarco m i
      (asignado k.1.1 k.1.2 k.2 (reloj.ms m.lecturasReloj)) j).trans ?_
    rw [hf]
    rfl
  refine hal.acceder (i := i) ?_ ?_ rfl (fun j hj => ⟨?_, ?_⟩) fun j _ => hun j
  · rw [hclave, if_pos rfl, hf]
    rfl
  · rw [huso, if_pos rfl]
  · rw [hclave, if_neg hj]
  · rw [huso, if_neg hj]

/-- The load of a page accesses it, if Storage answers. -/
theorem cargarPagina_alDia (hal : AlDia reloj w.memoria h) (hs : TablaSana ram w.memoria)
    (srv : Servidor σ) (hi : i < ram.frames) (hun : ∀ j, clave w.memoria j ≠ some k) :
    ((cargarPagina ram reloj srv w i k.1.1 k.1.2 k.2).2 = none →
      AlDia reloj (cargarPagina ram reloj srv w i k.1.1 k.1.2 k.2).1.memoria h) ∧
    ((cargarPagina ram reloj srv w i k.1.1 k.1.2 k.2).2.isSome →
      AlDia reloj (cargarPagina ram reloj srv w i k.1.1 k.1.2 k.2).1.memoria (k :: h)) := by
  obtain ⟨b, _, hmemoria⟩ :=
    lecturaPaginaStorage_memoria ram srv w k.1.1 k.1.2 k.2 (baseDe w.memoria i)
  have hs₁ := lecturaPaginaStorage_sana hs hi srv k.1.1 k.1.2 k.2
  unfold cargarPagina
  cases hres : lecturaPaginaStorage ram srv w k.1.1 k.1.2 k.2 (baseDe w.memoria i) with
  | mk w₁ ok =>
    rw [hres] at hmemoria hs₁
    have hal₁ : AlDia reloj w₁.memoria h := by
      rw [hmemoria]
      exact hal.menos (SinNueva.of_eq fun _ => rfl) ⟨fun _ => rfl, rfl⟩
    have hun₁ : ∀ j, clave w₁.memoria j ≠ some k := by
      rw [hmemoria]
      exact hun
    cases ok with
    | false => exact ⟨fun _ => hal₁, fun hsome => absurd hsome (by simp)⟩
    | true =>
      exact ⟨fun hnone => absurd hnone (by simp), fun _ => hal₁.asignar hs₁ hi hun₁⟩

/-- traer_pagina accesses the page it is for, if it returns a frame. -/
theorem traerPagina_alDia (hal : AlDia reloj w.memoria h) (hs : TablaSana ram w.memoria)
    (srv : Servidor σ) (k : Clave) :
    ((traerPagina ram reloj srv w k.1.1 k.1.2 k.2).2 = none →
      AlDia reloj (traerPagina ram reloj srv w k.1.1 k.1.2 k.2).1.memoria h) ∧
    ((traerPagina ram reloj srv w k.1.1 k.1.2 k.2).2.isSome →
      AlDia reloj (traerPagina ram reloj srv w k.1.1 k.1.2 k.2).1.memoria (k :: h)) := by
  unfold traerPagina
  cases hbuscar : w.memoria.frames.findIdx? (frameMatchea k.1.1 k.1.2 k.2) with
  | some i =>
    exact ⟨fun hnone => absurd hnone (by simp),
      fun _ => hal.tocar hs (clave_of_encontrada hbuscar).2⟩
  | none =>
    obtain ⟨hordenada, hmenos, hlt⟩ := elegirMarco_sana srv hs.ordenada
    have huso := mismoUso_elegirMarco ram srv w
    cases helegir : elegirMarco ram srv w with
    | mk w₁ marco =>
      rw [helegir] at hordenada hmenos hlt huso
      have hal₁ := hal.menos hmenos huso
      cases marco with
      | none => exact ⟨fun _ => hal₁, fun hsome => absurd hsome (by simp)⟩
      | some i =>
        exact cargarPagina_alDia hal₁ (hs.menos hordenada hmenos) srv (hlt i rfl)
          fun j hj => clave_ne_of_ausente hbuscar j (hmenos j k hj)

/-- Bytes written in a frame change no time. -/
theorem escribirTramo_alDia (hal : AlDia reloj w.memoria h) (hs : TablaSana ram w.memoria)
    (hk : clave w.memoria i = some k) (ptr : ℕ) (bytes : Bytes)
    (hcabe : ptr + bytes.length ≤ ram.tamMemoria) :
    TablaSana ram (escribirTramo w i ptr bytes).memoria ∧
      AlDia reloj (escribirTramo w i ptr bytes).memoria h ∧
      clave (escribirTramo w i ptr bytes).memoria i = some k := by
  have hclave : ∀ j, clave (escribirTramo w i ptr bytes).memoria j = clave w.memoria j := by
    intro j
    refine (clave_modificarMarco_eq _ i (g := sucio) ?_ j).trans rfl
    exact fun _ => rfl
  have huso : MismoUso w.memoria (escribirTramo w i ptr bytes).memoria := by
    have hcopia : MismoUso w.memoria
        { w.memoria with direccionBase := overlay w.memoria.direccionBase ptr bytes } :=
      ⟨fun _ => rfl, rfl⟩
    exact hcopia.trans (mismoUso_modificarMarco _ i fun _ => rfl)
  have hsucia := (hs.ordenada.copiar ptr bytes hcabe).modificarMarco i (g := sucio) (fun _ => rfl)
    (fun f hf _ => by
      obtain ⟨f', hf', hclaveDe⟩ := Option.bind_eq_some_iff.mp hk
      obtain rfl := Option.some.inj (hf'.symm.trans hf)
      exact Option.isSome_iff_exists.mpr ⟨k, hclaveDe⟩) fun _ hr => hr
  exact ⟨hs.menos hsucia (SinNueva.of_eq hclave), hal.menos (SinNueva.of_eq hclave) huso,
    (hclave i).trans hk⟩

/-- The copy inside the frame is one more access to its page. -/
theorem accederMarco_alDia (hal : AlDia reloj w.memoria (k :: h)) (hs : TablaSana ram w.memoria)
    (a : Acceso) (hi : i < ram.frames) (hk : clave w.memoria i = some k) (salida : Bytes)
    {desplaz n : ℕ} (hn : desplazamiento ram (a.base + desplaz) + n ≤ ram.pageSize) :
    AlDia reloj (accederMarco ram reloj a w i salida desplaz n).1.memoria (k :: h) := by
  unfold accederMarco
  split_ifs
  · have hbase := hs.ordenada.baseDe_eq hi
    have hcabe := marco_cabe ram hi
    have hlength : (slice a.entrada desplaz n).length ≤ n := List.length_take_le _ _
    obtain ⟨hs', hal', hk'⟩ := escribirTramo_alDia hal hs hk
      (baseDe w.memoria i + desplazamiento ram (a.base + desplaz)) (slice a.entrada desplaz n)
      (by omega)
    exact (hal'.tocar hs' hk').repetida
  · exact (hal.tocar hs hk).repetida

end AlDia

section Corridas

/-- What holds when a page is looked for. -/
structure Busqueda.Sana (ram : Ram) (reloj : Reloj) (b : Busqueda σ) : Prop where
  tabla : TablaSana ram b.worker.memoria
  alDia : AlDia reloj b.worker.memoria b.accesos

theorem busquedasDesde_sana (srv : Servidor σ) (a : Acceso) (rondas : ℕ)
    (hs : TablaSana ram w.memoria) (hal : AlDia reloj w.memoria h) (salida : Bytes)
    (desplaz n : ℕ) :
    (∀ b ∈ (busquedasDesde ram reloj srv a rondas w h salida desplaz n).1, b.Sana ram reloj) ∧
      TablaSana ram (busquedasDesde ram reloj srv a rondas w h salida desplaz n).2.1.memoria ∧
      AlDia reloj (busquedasDesde ram reloj srv a rondas w h salida desplaz n).2.1.memoria
        (busquedasDesde ram reloj srv a rondas w h salida desplaz n).2.2 := by
  induction rondas generalizing w h salida desplaz n with
  | zero => exact ⟨fun b hb => absurd hb List.not_mem_nil, hs, hal⟩
  | succ rondas ih =>
    unfold busquedasDesde
    split_ifs with hn
    · exact ⟨fun b hb => absurd hb List.not_mem_nil, hs, hal⟩
    · obtain ⟨_, _, htramo⟩ := tramo_spec ram (a.base + desplaz) (Nat.pos_of_ne_zero hn)
      obtain ⟨hs₁, hmarco⟩ := traerPagina_sana hs reloj srv a.file a.tag
        (nroPagina ram (a.base + desplaz))
      obtain ⟨hfalla, hlogra⟩ := traerPagina_alDia hal hs srv
        ((a.file, a.tag), nroPagina ram (a.base + desplaz))
      simp only
      cases hres : traerPagina ram reloj srv w a.file a.tag
          (nroPagina ram (a.base + desplaz)) with
      | mk w₁ marco =>
        simp only [hres] at hs₁ hmarco hfalla hlogra
        cases marco with
        | none =>
          refine ⟨fun b hb => ?_, hs₁, hfalla rfl⟩
          obtain rfl := List.mem_singleton.mp hb
          exact ⟨hs, hal⟩
        | some i =>
          obtain ⟨hi, hclave⟩ := hmarco i rfl
          have hs₂ := accederMarco_sana hs₁ reloj a hi (by rw [hclave]; rfl) salida htramo
          have hal₂ := accederMarco_alDia (hlogra rfl) hs₁ a hi hclave salida htramo
          obtain ⟨hbs, hfin⟩ := ih hs₂ hal₂ _ _ _
          refine ⟨fun b hb => ?_, hfin⟩
          rcases List.mem_cons.mp hb with rfl | hb
          · exact ⟨hs, hal⟩
          · exact hbs b hb

theorem busquedas_sana (srv : Servidor σ) (xs : List (Acceso × ℕ × Bytes))
    (hs : TablaSana ram w.memoria) (hal : AlDia reloj w.memoria h) :
    ∀ b ∈ busquedas ram reloj srv xs w h, b.Sana ram reloj := by
  induction xs generalizing w h with
  | nil => exact fun b hb => absurd hb List.not_mem_nil
  | cons x xs ih =>
    obtain ⟨a, size, salida⟩ := x
    obtain ⟨hbs, hs', hal'⟩ := busquedasDesde_sana srv a size hs hal salida 0 size
    intro b hb
    rcases List.mem_append.mp hb with hb | hb
    · exact hbs b hb
    · exact ih hs' hal' b hb

/-- The loop with its calls listed is the loop. -/
theorem busquedasDesde_worker (ram : Ram) (reloj : Reloj) (srv : Servidor σ) (a : Acceso)
    (rondas : ℕ) (w : Worker σ) (h : List Clave) (salida : Bytes) (desplaz n : ℕ) :
    (busquedasDesde ram reloj srv a rondas w h salida desplaz n).2.1 =
      (accederDesde ram reloj srv a rondas w salida desplaz n).1 := by
  induction rondas generalizing w h salida desplaz n with
  | zero => rfl
  | succ rondas ih =>
    unfold busquedasDesde accederDesde
    split_ifs
    · rfl
    · simp only
      cases traerPagina ram reloj srv w a.file a.tag (nroPagina ram (a.base + desplaz)) with
      | mk w₁ marco =>
        cases marco with
        | none => rfl
        | some i => exact ih ..

/-- Of the pages in memory there is one whose most recent access comes first. -/
theorem AlDia.exists_menosReciente (hal : AlDia reloj m h) (hk : clave m i = some k) :
    ∃ j k', MenosReciente m h j k' := by
  have hlt : ∀ j k', clave m j = some k' → j < m.frames.length := by
    intro j k' hk'
    obtain ⟨f, hf, _⟩ := Option.bind_eq_some_iff.mp hk'
    exact (List.getElem?_eq_some_iff.mp hf).1
  let lugar : ℕ → ℕ := fun j => ((clave m j).map h.idxOf).getD 0
  have hlugar : ∀ {j k'}, clave m j = some k' → lugar j = h.idxOf k' := by
    intro j k' hk'
    show ((clave m j).map h.idxOf).getD 0 = _
    rw [hk', Option.map_some, Option.getD_some]
  obtain ⟨j, hj, hmax⟩ := Finset.exists_max_image
    ((Finset.range m.frames.length).filter fun j => (clave m j).isSome) lugar
    ⟨i, Finset.mem_filter.mpr ⟨Finset.mem_range.mpr (hlt i k hk), by rw [hk]; rfl⟩⟩
  obtain ⟨x, hx⟩ := Option.isSome_iff_exists.mp (Finset.mem_filter.mp hj).2
  refine ⟨j, x, hx, fun j' x' hx' hne => ⟨hal.usada j x hx, ?_⟩⟩
  have hle := hmax j' (Finset.mem_filter.mpr
    ⟨Finset.mem_range.mpr (hlt j' x' hx'), by rw [hx']; rfl⟩)
  rw [hlugar hx, hlugar hx'] at hle
  refine lt_of_le_of_ne hle fun heq => hne ?_
  exact (List.idxOf_inj (hal.usada j' x' hx')).mp heq

/-- In every sequence of accesses, LRU gives up the page whose most recent access comes
first exactly when the times tell it from those in front and no frame without a page has
an older time. -/
theorem victimaMenosReciente_iff (hlru : ram.algoritmo = .lru) (reloj : Reloj)
    (srv : Servidor σ) (st : σ) (xs : List (Acceso × ℕ × Bytes)) :
    ∀ b ∈ busquedas ram reloj srv xs ⟨inicializarMemoria ram, st⟩ [], Reemplaza b →
      (VictimaMenosReciente ram b ↔ SinEmpate b) := by
  intro b hb hreemplaza
  obtain ⟨hs, hal⟩ := busquedas_sana srv xs (tablaSana_inicial ram) (alDia_inicial reloj ram) b hb
  have hocupado : ∀ f ∈ b.worker.memoria.frames, f.libre = false := by
    intro f hf
    exact Bool.eq_false_iff.mpr (by simpa using List.findIdx?_eq_none_iff.mp hreemplaza.llena f hf)
  have hvictima : (elegirAlgoritmo ram b.worker.memoria).2 = algoritmoLRU b.worker.memoria := by
    unfold elegirAlgoritmo
    rw [hlru]
  have hminimo := fun v => algoritmoLRU_eq_some_iff (v := v) hs.ordenada hocupado
  constructor
  · intro hmenos
    obtain ⟨v, k, hv, hreciente⟩ := hmenos
    obtain ⟨_, hle, hprimero⟩ := (hminimo v).mp (hvictima.symm.trans hv)
    refine ⟨v, k, hreciente, fun j hj => ?_, fun j hj _ => hle j hj⟩
    exact Nat.ne_of_gt (hprimero j hj)
  · intro hsin
    obtain ⟨i, k, hreciente, hdistinto, hsinNombre⟩ := hsin
    have hle : ∀ j < b.worker.memoria.frames.length,
        uso b.worker.memoria i ≤ uso b.worker.memoria j := by
      intro j hj
      cases hclave : clave b.worker.memoria j with
      | none => exact hsinNombre j hj hclave
      | some k' =>
        by_cases hk : k' = k
        · rw [hk] at hclave
          rw [hs.unica j i k hclave hreciente.clave_eq]
        · exact hal.orden i j k k' hreciente.clave_eq hclave (hreciente.antes j k' hclave hk)
    obtain ⟨f, hf, _⟩ := Option.bind_eq_some_iff.mp hreciente.clave_eq
    have hi := (List.getElem?_eq_some_iff.mp hf).1
    refine ⟨i, k, hvictima.trans ((hminimo i).mpr ⟨hi, hle, fun j hj => ?_⟩), hreciente⟩
    exact lt_of_le_of_ne (hle j (hj.trans hi)) (hdistinto j hj).symm

end Corridas

section Empate

/-- A byte of each of some pages of a:b. -/
def lecturas (paginas : List ℕ) : List (Acceso × ℕ × Bytes) :=
  paginas.map fun p => (⟨"a", "b", p * 2, false, []⟩, 1, [0])

def ramLru : Ram := { ramChica with algoritmo := .lru }

/-- The calls for some pages, in an empty memory and with a clock that stands still. -/
def busquedasParadas (paginas : List ℕ) : List (Busqueda (ℕ → Bytes)) :=
  busquedas ramLru relojParado servidorChico (lecturas paginas)
    ⟨inicializarMemoria ramLru, fun _ => []⟩ []

/-- Of two pages read in the order of their frames LRU gives up the right one. -/
theorem victimaMenosReciente_iff_dos :
    ∃ b ∈ busquedasParadas [0, 1, 2], Reemplaza b ∧
      (VictimaMenosReciente ramLru b ↔ SinEmpate b) := by
  have hb : (busquedasParadas [0, 1, 2]).get ⟨2, by decide⟩ ∈ busquedasParadas [0, 1, 2] :=
    List.get_mem ..
  have hreemplaza : Reemplaza ((busquedasParadas [0, 1, 2]).get ⟨2, by decide⟩) :=
    ⟨by decide, by decide, by decide⟩
  exact ⟨_, hb, hreemplaza, victimaMenosReciente_iff (by decide) relojParado servidorChico
    (fun _ => []) (lecturas [0, 1, 2]) _ hb hreemplaza⟩

/-- Pages 0, 1, 0 and 2 are read in the same millisecond: page 0 goes and not page 1. -/
theorem not_victimaMenosReciente : ¬ ∀ (ram : Ram) (reloj : Reloj)
    (srv : Servidor (ℕ → Bytes)) (st : ℕ → Bytes) (xs : List (Acceso × ℕ × Bytes)),
    ram.algoritmo = .lru →
    ∀ b ∈ busquedas ram reloj srv xs ⟨inicializarMemoria ram, st⟩ [], Reemplaza b →
      VictimaMenosReciente ram b := by
  intro hsiempre
  obtain ⟨v, k, hv, hclave, hantes⟩ := hsiempre ramLru relojParado servidorChico (fun _ => [])
    (lecturas [0, 1, 0, 2]) (by decide) ((busquedasParadas [0, 1, 0, 2]).get ⟨3, by decide⟩)
    (List.get_mem ..) ⟨by decide, by decide, by decide⟩
  have hcero : (elegirAlgoritmo ramLru
      ((busquedasParadas [0, 1, 0, 2]).get ⟨3, by decide⟩).worker.memoria).2 = some 0 := by decide
  obtain rfl := Option.some.inj (hcero.symm.trans hv)
  have hpagina : clave ((busquedasParadas [0, 1, 0, 2]).get ⟨3, by decide⟩).worker.memoria 0 =
      some (("a", "b"), 0) := by decide
  obtain rfl := Option.some.inj (hpagina.symm.trans hclave)
  exact absurd (hantes 1 (("a", "b"), 1) (by decide) (by decide)) (by decide)

end Empate

end MasterOfFiles.AccessRecency
