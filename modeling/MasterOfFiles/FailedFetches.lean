import MasterOfFiles.FrameInvariants

/-!
A fetch of a page that fails. When it fails before the victim's names are taken, the
table is as it was. When the read fails behind an eviction the victim's page is gone
and its frame stays occupied without names.
-/
namespace MasterOfFiles.FailedFetches

open ByteBuffers WorkerMemory FrameTables ReplacementPolicies PagingSimulation
open TransparentPaging FrameInvariants

variable {σ : Type*} {ram : Ram} {reloj : Reloj} {srv : Servidor σ} {w w' : Worker σ}
  {file tag : String} {i p : ℕ}

section Fallos

/-- The frame a fetch evicts: none while a frame is free. -/
def victima (ram : Ram) (m : Memoria) : Option ℕ :=
  match buscarMarcoLibre m with
  | some _ => none
  | none => (elegirAlgoritmo ram m).2

/-- The Worker when the replacement algorithm has chosen. -/
def trasElegir (ram : Ram) (w : Worker σ) : Worker σ :=
  { w with memoria := (elegirAlgoritmo ram w.memoria).1 }

/-- The victim is not dirty or its write-back is acknowledged. -/
def Devuelta (ram : Ram) (srv : Servidor σ) (w : Worker σ) (v : ℕ) : Prop :=
  (flushFrame ram srv (trasElegir ram w) v).2 = true

/-- Every occupied frame names a File, a Tag and a page. -/
def Nombrada (m : Memoria) : Prop := ∀ f ∈ m.frames, f.libre = false → (claveDe f).isSome

/-- The pages in memory are still in their frames, but for use bits, the pointer and a
victim that was written back, and every occupied frame has its names. -/
structure CacheIntacta (ram : Ram) (srv : Servidor σ) (w w' : Worker σ) : Prop where
  paginas : ∀ (i : ℕ) (f : Marco), w.memoria.frames[i]? = some f → (claveDe f).isSome →
    ∃ f', w'.memoria.frames[i]? = some f' ∧
      (sinUso f' = sinUso f ∨ victima ram w.memoria = some i ∧ Devuelta ram srv w i ∧
        sinUso f' = sinUso (limpio f)) ∧
      slice w'.memoria.direccionBase f'.base ram.pageSize =
        slice w.memoria.direccionBase f.base ram.pageSize
  nombrada : Nombrada w'.memoria

theorem nombrada_soloUso {m m' : Memoria} (h : SoloUso m m') : Nombrada m' ↔ Nombrada m := by
  have hida : ∀ {m m' : Memoria}, (∀ i : ℕ, (m'.frames[i]?).map sinUso =
      (m.frames[i]?).map sinUso) → Nombrada m → Nombrada m' := by
    intro m m' hmarcos hm f' hf' hlibre
    obtain ⟨i, hi⟩ := List.mem_iff_getElem?.mp hf'
    have hmarco := hmarcos i
    rw [hi, Option.map_some] at hmarco
    obtain ⟨f, hf, heq⟩ := Option.map_eq_some_iff.mp hmarco.symm
    rw [← claveDe_eq_of_sinUso heq]
    exact hm f (List.mem_of_getElem? hf) ((congrArg Marco.libre heq).trans hlibre)
  exact ⟨hida fun i => (h.marcos i).symm, hida h.marcos⟩

/-- Only use bits and the pointer have moved. -/
theorem cacheIntacta_iff_of_soloUso (h : SoloUso w.memoria w'.memoria) :
    CacheIntacta ram srv w w' ↔ Nombrada w.memoria := by
  rw [← nombrada_soloUso h]
  refine ⟨CacheIntacta.nombrada, fun hnombrada => ⟨fun i f hf _ => ?_, hnombrada⟩⟩
  have hmarco := h.marcos i
  rw [hf, Option.map_some] at hmarco
  obtain ⟨f', hf', heq⟩ := Option.map_eq_some_iff.mp hmarco
  have hbase : (sinUso f').base = (sinUso f).base := congrArg Marco.base heq
  exact ⟨f', hf', Or.inl heq, by rw [h.area, show f'.base = f.base from hbase]⟩

/-- A write-back that fails changes nothing in memory. -/
theorem volcarSi_memoria_of_false {q : Marco → Bool} (h : (volcarSi ram srv q w i).2 = false) :
    (volcarSi ram srv q w i).1.memoria = w.memoria := by
  unfold volcarSi volcarMarco escribirPaginaStorage at h ⊢
  split
  · rfl
  · next f hf =>
    simp only [hf] at h
    split_ifs at h ⊢
    · split
      · next file tag hfile htag =>
        simp only [hfile, htag] at h
        cases hres : srv.writeBlock w.storage file tag f.pagina
            (slice w.memoria.direccionBase f.base ram.pageSize) with
        | mk st ok =>
          cases ok with
          | false => rfl
          | true => simp [hres] at h
      · rfl

/-- A read that fails into a free frame leaves the pages of the others. -/
theorem cacheIntacta_iff_of_libre (h : TablaSana ram w.memoria)
    (hlibre : buscarMarcoLibre w.memoria = some i)
    (hop : lecturaPaginaStorage ram srv w file tag p (baseDe w.memoria i) = (w', false)) :
    CacheIntacta ram srv w w' ↔ Nombrada w.memoria := by
  obtain ⟨b, hb, hmemoria⟩ :=
    lecturaPaginaStorage_memoria ram srv w file tag p (baseDe w.memoria i)
  rw [hop] at hmemoria
  have hframes : w'.memoria.frames = w.memoria.frames := by rw [hmemoria]
  obtain ⟨hlt, hi, _⟩ := List.findIdx?_eq_some_iff_getElem.mp hlibre
  have hmarco : i < ram.frames := h.ordenada.marcos ▸ hlt
  have hnombrada : Nombrada w'.memoria ↔ Nombrada w.memoria := by
    unfold Nombrada
    rw [hframes]
  rw [← hnombrada]
  refine ⟨CacheIntacta.nombrada, fun hnombrada => ⟨fun j f hf hclave => ?_, hnombrada⟩⟩
  refine ⟨f, by rw [hframes]; exact hf, Or.inl rfl, ?_⟩
  have hne : j ≠ i := by
    rintro rfl
    obtain rfl := Option.some.inj (hf.symm.trans (List.getElem?_eq_getElem hlt))
    obtain ⟨k, hk⟩ := Option.isSome_iff_exists.mp hclave
    exact absurd ((claveDe_eq_some hk).1.symm.trans hi) (by simp)
  have hcabe := marco_cabe ram hmarco
  have htam := h.ordenada.tamanio
  have hbase := h.ordenada.baseDe_eq hmarco
  have haparte := marcos_aparte ram hne
  rw [hmemoria, h.ordenada.bases j f hf, hbase]
  exact slice_overlay_outside _ _ _ _ _ (by omega) (by omega)

/-- Behind an eviction the victim's frame is occupied and has no names. -/
theorem not_cacheIntacta_of_desalojo (h : TablaSana ram w.memoria)
    (hocupado : ∀ f ∈ w.memoria.frames, f.libre = false) {v : ℕ} (hv : v < ram.frames)
    {w₁ : Worker σ} (hdesalojo : desalojar ram srv w v = (w₁, some v)) {base : ℕ}
    (hop : lecturaPaginaStorage ram srv w₁ file tag p base = (w', false)) :
    ¬ Nombrada w'.memoria := by
  obtain ⟨b, _, hmemoria⟩ := lecturaPaginaStorage_memoria ram srv w₁ file tag p base
  rw [hop] at hmemoria
  intro hnombrada
  have hlimpia : SoloLimpia w.memoria (flushFrame ram srv w v).1.memoria :=
    volcarSi_soloLimpia ram srv (fun f => !f.libre && f.dirty) w v
  unfold desalojar at hdesalojo
  cases hres : flushFrame ram srv w v with
  | mk w₂ ok =>
    rw [hres] at hlimpia hdesalojo
    cases ok with
    | false => simp at hdesalojo
    | true =>
      obtain ⟨rfl, -⟩ := Prod.mk.inj hdesalojo
      obtain ⟨f, hf, _⟩ := (ordenada_soloLimpia hlimpia h.ordenada).marco hv
      have hlibre : f.libre = false := by
        rcases hlimpia.marcos v with heq | heq
        · exact hocupado f (List.mem_of_getElem? (heq.symm.trans hf))
        · obtain ⟨f₀, hf₀, rfl⟩ := Option.map_eq_some_iff.mp (heq.symm.trans hf)
          exact hocupado f₀ (List.mem_of_getElem? hf₀)
      have hsin : w'.memoria.frames[v]? = some { f with file := none, tag := none } := by
        rw [hmemoria]
        change (quitarNombres w₂.memoria v).frames[v]? = _
        unfold quitarNombres
        rw [frames_modificarMarco, if_pos rfl, hf, Option.map_some]
      have hsome := hnombrada _ (List.mem_of_getElem? hsin) hlibre
      unfold claveDe at hsome
      split_ifs at hsome
      · simp at hsome
      · simp at hsome

end Fallos

section Traer

/-- The outcomes of a fetch that fails. -/
theorem traerPagina_fallida (hno : w.memoria.frames.findIdx? (frameMatchea file tag p) = none)
    (hop : traerPagina ram reloj srv w file tag p = (w', none)) :
    (∃ i, buscarMarcoLibre w.memoria = some i ∧
        lecturaPaginaStorage ram srv w file tag p (baseDe w.memoria i) = (w', false)) ∨
      buscarMarcoLibre w.memoria = none ∧ ((elegirAlgoritmo ram w.memoria).2 = none ∧
          w' = trasElegir ram w ∨
        ∃ v, (elegirAlgoritmo ram w.memoria).2 = some v ∧
          (desalojar ram srv (trasElegir ram w) v = (w', none) ∨
            ∃ w₁, desalojar ram srv (trasElegir ram w) v = (w₁, some v) ∧
              lecturaPaginaStorage ram srv w₁ file tag p (baseDe w₁.memoria v) =
                (w', false))) := by
  have hcargar : ∀ w₁ i, cargarPagina ram reloj srv w₁ i file tag p = (w', none) →
      lecturaPaginaStorage ram srv w₁ file tag p (baseDe w₁.memoria i) = (w', false) := by
    intro w₁ i hcargar
    unfold cargarPagina at hcargar
    cases hres : lecturaPaginaStorage ram srv w₁ file tag p (baseDe w₁.memoria i) with
    | mk w₂ ok =>
      rw [hres] at hcargar
      cases ok with
      | true => simp at hcargar
      | false => rw [(Prod.mk.inj hcargar).1]
  unfold traerPagina at hop
  rw [hno] at hop
  unfold elegirMarco at hop
  cases hlibre : buscarMarcoLibre w.memoria with
  | some i =>
    simp only [hlibre] at hop
    exact Or.inl ⟨i, rfl, hcargar w i hop⟩
  | none =>
    simp only [hlibre] at hop
    refine Or.inr ⟨rfl, ?_⟩
    unfold trasElegir
    cases helegir : elegirAlgoritmo ram w.memoria with
    | mk m elegida =>
      simp only [helegir] at hop
      cases elegida with
      | none => exact Or.inl ⟨rfl, (Prod.mk.inj hop).1.symm⟩
      | some v =>
        refine Or.inr ⟨v, rfl, ?_⟩
        have hmarco : ∀ i, (desalojar ram srv { w with memoria := m } v).2 = some i → i = v := by
          intro i hi
          unfold desalojar at hi
          split at hi
          · exact (Option.some.inj hi).symm
          · simp at hi
        cases hdesalojo : desalojar ram srv { w with memoria := m } v with
        | mk w₁ marco =>
          rw [hdesalojo] at hmarco
          simp only [hdesalojo] at hop
          cases marco with
          | none => exact Or.inl (by rw [(Prod.mk.inj hop).1])
          | some i =>
            obtain rfl := hmarco i rfl
            exact Or.inr ⟨w₁, rfl, hcargar w₁ i hop⟩

theorem desalojar_snd (ram : Ram) (srv : Servidor σ) (w : Worker σ) (v : ℕ) :
    (desalojar ram srv w v).2 = none ↔ (flushFrame ram srv w v).2 = false := by
  unfold desalojar
  cases flushFrame ram srv w v with
  | mk w₁ ok => cases ok <;> simp

/-- A fetch that fails keeps the cache exactly when every occupied frame had its names and
no victim was given up. -/
theorem cacheIntacta_iff_of_sana (h : TablaSana ram w.memoria)
    (hno : w.memoria.frames.findIdx? (frameMatchea file tag p) = none)
    (hop : traerPagina ram reloj srv w file tag p = (w', none)) :
    CacheIntacta ram srv w w' ↔ Nombrada w.memoria ∧
      ∀ v, victima ram w.memoria = some v → ¬ Devuelta ram srv w v := by
  obtain ⟨hsolo, hlt⟩ := elegirAlgoritmo_soloUso ram w.memoria
  rcases traerPagina_fallida hno hop with
    ⟨i, hlibre, hlectura⟩ | ⟨hlibre, ⟨hnadie, rfl⟩ | ⟨v, helegida, hresto⟩⟩
  · rw [cacheIntacta_iff_of_libre h hlibre hlectura]
    unfold victima
    simp [hlibre]
  · rw [cacheIntacta_iff_of_soloUso hsolo]
    unfold victima
    simp [hlibre, hnadie]
  · have hvictima : ∀ u, victima ram w.memoria = some u ↔ u = v := by
      intro u
      unfold victima
      simp only [hlibre, helegida, Option.some.injEq]
      exact eq_comm
    simp only [hvictima, forall_eq]
    have hocupado : ∀ f ∈ w.memoria.frames, f.libre = false := List.findIdx?_eq_none_iff.mp hlibre
    rcases hresto with hfalla | ⟨w₁, hdesalojo, hlectura⟩
    · have hvolcado : (flushFrame ram srv (trasElegir ram w) v).2 = false :=
        (desalojar_snd ram srv _ v).mp (congrArg Prod.snd hfalla)
      have hmemoria : w'.memoria = (elegirAlgoritmo ram w.memoria).1 := by
        have hfst := congrArg (fun r => r.1.memoria) hfalla
        rw [← hfst]
        unfold desalojar
        cases hres : flushFrame ram srv (trasElegir ram w) v with
        | mk w₂ ok =>
          rw [hres] at hvolcado
          obtain rfl : ok = false := hvolcado
          have hsin := volcarSi_memoria_of_false (q := fun f => !f.libre && f.dirty)
            (congrArg Prod.snd hres)
          unfold flushFrame at hres
          rw [hres] at hsin
          exact hsin
      rw [cacheIntacta_iff_of_soloUso (hmemoria ▸ hsolo)]
      unfold Devuelta
      simp [hvolcado]
    · have hdevuelta : Devuelta ram srv w v := by
        unfold Devuelta
        by_contra hfalla
        have hnone := (desalojar_snd ram srv _ v).mpr (Bool.eq_false_iff.mpr hfalla)
        rw [hdesalojo] at hnone
        simp at hnone
      have hocupado' : ∀ f ∈ (trasElegir ram w).memoria.frames, f.libre = false := by
        intro f' hf'
        obtain ⟨k, hk⟩ := List.mem_iff_getElem?.mp hf'
        obtain ⟨f, hf, heq⟩ := hsolo.marco hk
        exact (congrArg Marco.libre heq).trans (hocupado f (List.mem_of_getElem? hf))
      have hsana : TablaSana ram (trasElegir ram w).memoria :=
        h.menos (hsolo.ordenada h.ordenada) (SinNueva.of_eq (clave_soloUso hsolo))
      have hv : v < ram.frames := h.ordenada.marcos ▸ hlt v helegida
      have hrota := not_cacheIntacta_of_desalojo hsana hocupado' hv hdesalojo hlectura
      exact iff_of_false (fun hint => hrota hint.nombrada) fun hcond => hcond.2 hdevuelta

/-- After any run of operations. -/
theorem cacheIntacta_iff (ram : Ram) (reloj : Reloj) (srv : Servidor σ) (st : σ)
    (ops : List (Operacion σ))
    (hno : (operarTodas ram reloj srv st ops).worker.memoria.frames.findIdx?
      (frameMatchea file tag p) = none)
    (hop : traerPagina ram reloj srv (operarTodas ram reloj srv st ops).worker file tag p =
      (w', none)) :
    CacheIntacta ram srv (operarTodas ram reloj srv st ops).worker w' ↔
      Nombrada (operarTodas ram reloj srv st ops).worker.memoria ∧
        ∀ v, victima ram (operarTodas ram reloj srv st ops).worker.memoria = some v →
          ¬ Devuelta ram srv (operarTodas ram reloj srv st ops).worker v :=
  cacheIntacta_iff_of_sana (tablaSana_operarTodas ram reloj srv st ops) hno hop

end Traer

section Perdida

/-- Page 0 of a:b and of c:d fill the two frames. -/
def lecturasLlenas : List (Operacion Unit) :=
  [.llamada (.leer "a" "b" 0 [0]), .llamada (.leer "c" "d" 0 [0])]

theorem cacheIntacta_iff_llena :
    CacheIntacta ramChica servidorSinXY
        (operarTodas ramChica relojParado servidorSinXY () lecturasLlenas).worker
        (traerPagina ramChica relojParado servidorSinXY
          (operarTodas ramChica relojParado servidorSinXY () lecturasLlenas).worker
          "x" "y" 0).1 ↔
      Nombrada (operarTodas ramChica relojParado servidorSinXY () lecturasLlenas).worker.memoria ∧
        ∀ v, victima ramChica
            (operarTodas ramChica relojParado servidorSinXY () lecturasLlenas).worker.memoria =
              some v →
          ¬ Devuelta ramChica servidorSinXY
            (operarTodas ramChica relojParado servidorSinXY () lecturasLlenas).worker v :=
  cacheIntacta_iff ramChica relojParado servidorSinXY () lecturasLlenas (by decide)
    (Prod.ext rfl (by decide))

/-- A read of a File:Tag Storage refuses costs the victim its page. -/
theorem not_cacheIntacta : ¬ ∀ ram reloj (srv : Servidor Unit) st ops file tag p w',
    (operarTodas ram reloj srv st ops).worker.memoria.frames.findIdx?
        (frameMatchea file tag p) = none →
    traerPagina ram reloj srv (operarTodas ram reloj srv st ops).worker file tag p = (w', none) →
    CacheIntacta ram srv (operarTodas ram reloj srv st ops).worker w' := by
  intro h
  have hintacta := h ramChica relojParado servidorSinXY () lecturasLlenas "x" "y" 0 _ (by decide)
    (Prod.ext rfl (by decide))
  have hmarco : (traerPagina ramChica relojParado servidorSinXY
      (operarTodas ramChica relojParado servidorSinXY () lecturasLlenas).worker
      "x" "y" 0).1.memoria.frames[0]? =
        some ⟨false, 0, none, none, 0, false, false, false, 0⟩ := by decide
  exact absurd (hintacta.nombrada _ (List.mem_of_getElem? hmarco) rfl) (by decide)

end Perdida

end MasterOfFiles.FailedFetches
