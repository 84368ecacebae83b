import MasterOfFiles.StalePages

/-!
What holds of the frame table after any calls, whatever Storage answers. No step
brings into the table a page it did not have but the load of a page that was looked
for and not found, and that one page goes into one frame. An eviction that fails half
way leaves an occupied frame without names, which holds no page.
-/
namespace MasterOfFiles.FrameInvariants

open ByteBuffers PartialRuns WorkerMemory FrameTables ReplacementPolicies PagingSimulation
open TransparentPaging WorkerInstructions

variable {σ : Type*} {ram : Ram} {reloj : Reloj} {srv : Servidor σ} {w w' : Worker σ}
  {m m' m'' : Memoria} {file tag : String} {i j : ℕ}

/-- The page a frame holds. -/
def clave (m : Memoria) (i : ℕ) : Option Clave := (m.frames[i]?).bind claveDe

/-- The shape of the table is kept and no page is in two frames. -/
structure TablaSana (ram : Ram) (m : Memoria) : Prop where
  ordenada : Ordenada ram m
  unica : ∀ i j k, clave m i = some k → clave m j = some k → i = j

/-- No frame holds a page it did not hold. -/
def SinNueva (m m' : Memoria) : Prop := ∀ i k, clave m' i = some k → clave m i = some k

section Claves

theorem SinNueva.refl (m : Memoria) : SinNueva m m := fun _ _ h => h

theorem SinNueva.trans (h : SinNueva m m') (h' : SinNueva m' m'') : SinNueva m m'' :=
  fun i k hk => h i k (h' i k hk)

theorem SinNueva.of_eq (h : ∀ i, clave m' i = clave m i) : SinNueva m m' :=
  fun i _ hk => (h i).symm.trans hk

theorem TablaSana.menos (h : TablaSana ram m) (ho : Ordenada ram m') (hs : SinNueva m m') :
    TablaSana ram m' where
  ordenada := ho
  unica := fun i j k hi hj => h.unica i j k (hs i k hi) (hs j k hj)

theorem clave_modificarMarco (m : Memoria) (i : ℕ) (g : Marco → Marco) (j : ℕ) :
    clave (modificarMarco m i g) j =
      if j = i then (m.frames[i]?).bind fun f => claveDe (g f) else clave m j := by
  unfold clave
  rw [frames_modificarMarco]
  split_ifs
  · rw [Option.bind_map]
    rfl
  · rfl

/-- A frame that a search for a page finds holds it. -/
theorem clave_of_encontrada {p : ℕ}
    (h : m.frames.findIdx? (frameMatchea file tag p) = some i) :
    i < m.frames.length ∧ clave m i = some ((file, tag), p) := by
  obtain ⟨hlt, hmatch, _⟩ := List.findIdx?_eq_some_iff_getElem.mp h
  refine ⟨hlt, ?_⟩
  unfold clave
  rw [List.getElem?_eq_getElem hlt, Option.bind_some]
  exact (frameMatchea_iff file tag p _).mp hmatch

/-- If the search finds none, no frame holds the page. -/
theorem clave_ne_of_ausente {p : ℕ}
    (h : m.frames.findIdx? (frameMatchea file tag p) = none) (i : ℕ) :
    clave m i ≠ some ((file, tag), p) := by
  intro hi
  obtain ⟨f, hf, hclave⟩ := Option.bind_eq_some_iff.mp hi
  have hno := List.findIdx?_eq_none_iff.mp h f (List.mem_of_getElem? hf)
  exact absurd (hno.symm.trans ((frameMatchea_iff file tag p f).mpr hclave)) (by simp)

/-- Changes that keep a frame's page keep the pages of the table. -/
theorem clave_modificarMarco_eq (m : Memoria) (i : ℕ) {g : Marco → Marco}
    (hg : ∀ f, claveDe (g f) = claveDe f) (j : ℕ) : clave (modificarMarco m i g) j = clave m j := by
  rw [clave_modificarMarco]
  split_ifs with hj
  · simp only [hg, hj]
    rfl
  · rfl

theorem clave_tocar (reloj : Reloj) (m : Memoria) (i j : ℕ) :
    clave (tocar reloj m i) j = clave m j := by
  refine clave_modificarMarco_eq m i (g := usado (reloj.ms m.lecturasReloj)) ?_ j
  exact fun _ => rfl

theorem clave_soloUso (h : SoloUso m m') (i : ℕ) : clave m' i = clave m i := by
  have hclave : ∀ o : Option Marco, o.bind claveDe = (o.map sinUso).bind claveDe := by
    intro o
    cases o <;> rfl
  unfold clave
  rw [hclave, h.marcos, ← hclave]

theorem clave_soloLimpia (h : SoloLimpia m m') (i : ℕ) : clave m' i = clave m i := by
  unfold clave
  rcases h.marcos i with heq | heq
  · rw [heq]
  · rw [heq, Option.bind_map]
    rfl

theorem ordenada_soloLimpia (h : SoloLimpia m m') (hm : Ordenada ram m) : Ordenada ram m' := by
  have hmarco : ∀ (i : ℕ) (f' : Marco), m'.frames[i]? = some f' →
      ∃ f, m.frames[i]? = some f ∧ (f' = f ∨ f' = limpio f) := by
    intro i f' hf'
    rcases h.marcos i with heq | heq
    · exact ⟨f', heq.symm.trans hf', Or.inl rfl⟩
    · obtain ⟨f, hf, rfl⟩ := Option.map_eq_some_iff.mp (heq.symm.trans hf')
      exact ⟨f, hf, Or.inr rfl⟩
  refine ⟨h.area ▸ hm.tamanio, h.cantidad.trans hm.marcos, fun i f' hf' => ?_,
    fun i f' hf' hdirty => ?_, fun i f' hf' => ?_⟩
  · obtain ⟨f, hf, rfl | rfl⟩ := hmarco i f' hf'
    · exact hm.bases i f' hf
    · exact hm.bases i f hf
  · obtain ⟨f, hf, rfl | rfl⟩ := hmarco i f' hf'
    · exact hm.nombrado i f' hf hdirty
    · simp [limpio] at hdirty
  · obtain ⟨f, hf, rfl | rfl⟩ := hmarco i f' hf'
    · exact hm.reloj i f' hf
    · exact hm.reloj i f hf

theorem TablaSana.soloLimpia (h : TablaSana ram m) (hl : SoloLimpia m m') : TablaSana ram m' :=
  h.menos (ordenada_soloLimpia hl h.ordenada) (SinNueva.of_eq (clave_soloLimpia hl))

theorem TablaSana.tocar (h : TablaSana ram m) (reloj : Reloj) (i : ℕ) :
    TablaSana ram (tocar reloj m i) :=
  h.menos (ordenada_tocar h.ordenada reloj i) (SinNueva.of_eq (clave_tocar reloj m i))

theorem tablaSana_inicial (ram : Ram) : TablaSana ram (inicializarMemoria ram) where
  ordenada := ordenada_inicial ram
  unica := by
    intro i j k hi
    obtain ⟨f, hf, hk⟩ := Option.bind_eq_some_iff.mp hi
    rw [frames_inicial hf] at hk
    simp [marcoInicial, claveDe] at hk

end Claves

section Traer

/-- Taking the names from a frame that is not dirty. -/
theorem quitarNombres_sana (h : Ordenada ram m)
    (hlimpio : ∀ f, m.frames[i]? = some f → f.dirty = false) :
    Ordenada ram (quitarNombres m i) ∧ SinNueva m (quitarNombres m i) := by
  refine ⟨h.modificarMarco i ?_ (fun f hf hdirty => ?_) ?_, fun j k hk => ?_⟩
  · exact fun _ => rfl
  · exact absurd ((hlimpio f hf).symm.trans hdirty) (by simp)
  · exact fun _ hr => hr
  · unfold quitarNombres at hk
    rw [clave_modificarMarco] at hk
    split_ifs at hk with hj
    · obtain ⟨f, _, hclave⟩ := Option.bind_eq_some_iff.mp hk
      unfold claveDe at hclave
      split_ifs at hclave
    · exact hk

/-- A frame that was sent back, or needed not, is not dirty. -/
theorem limpio_of_flushFrame (h : Ordenada ram w.memoria)
    (hok : (flushFrame ram srv w i).2 = true) {f : Marco}
    (hf : (flushFrame ram srv w i).1.memoria.frames[i]? = some f) : f.dirty = false := by
  have hordenada := ordenada_soloLimpia
    (volcarSi_soloLimpia ram srv (fun f => !f.libre && f.dirty) w i) h
  rw [Bool.eq_false_iff]
  intro hdirty
  obtain ⟨k, hk⟩ := Option.isSome_iff_exists.mp (hordenada.nombrado i f hf hdirty)
  obtain ⟨hlibre, _⟩ := claveDe_eq_some hk
  unfold flushFrame volcarSi at hok hf
  cases hviejo : w.memoria.frames[i]? with
  | none =>
    simp only [hviejo] at hf
    simp at hf
  | some f₀ =>
    simp only [hviejo] at hok hf
    by_cases hp : (!f₀.libre && f₀.dirty) = true
    · rw [if_pos hp] at hok hf
      unfold volcarMarco escribirPaginaStorage at hok hf
      split at hok
      · next file tag hfile htag =>
        simp only [hfile, htag] at hf
        cases hres : srv.writeBlock w.storage file tag f₀.pagina
            (slice w.memoria.direccionBase f₀.base ram.pageSize) with
        | mk st ok =>
          cases ok with
          | true =>
            simp only [hres, limpiarMarco] at hf
            rw [frames_modificarMarco, if_pos rfl, hviejo, Option.map_some] at hf
            obtain rfl := Option.some.inj hf
            simp [limpio] at hdirty
          | false => simp [hres] at hok
      · simp at hok
    · rw [if_neg hp] at hf
      obtain rfl := Option.some.inj (hviejo.symm.trans hf)
      simp [hlibre, hdirty] at hp

/-- Whatever comes of it, an eviction brings no page in. -/
theorem desalojar_sana (srv : Servidor σ) (h : Ordenada ram w.memoria) {v : ℕ}
    (hv : v < ram.frames) :
    Ordenada ram (desalojar ram srv w v).1.memoria ∧
      SinNueva w.memoria (desalojar ram srv w v).1.memoria ∧
      ∀ i, (desalojar ram srv w v).2 = some i → i < ram.frames := by
  have hlimpia : SoloLimpia w.memoria (flushFrame ram srv w v).1.memoria :=
    volcarSi_soloLimpia ram srv (fun f => !f.libre && f.dirty) w v
  have hordenada := ordenada_soloLimpia hlimpia h
  have hflush := SinNueva.of_eq (clave_soloLimpia hlimpia)
  unfold desalojar
  cases hres : flushFrame ram srv w v with
  | mk w₁ ok =>
    rw [hres] at hordenada hflush
    cases ok with
    | false => exact ⟨hordenada, hflush, fun j hj => absurd hj (by simp)⟩
    | true =>
      have hlimpio : ∀ f, w₁.memoria.frames[v]? = some f → f.dirty = false := by
        intro f hf
        have hf' : (flushFrame ram srv w v).1.memoria.frames[v]? = some f := by
          rw [hres]
          exact hf
        exact limpio_of_flushFrame h (congrArg Prod.snd hres) hf'
      obtain ⟨hsin, hmenos⟩ := quitarNombres_sana hordenada hlimpio
      refine ⟨hsin, hflush.trans hmenos, fun j hj => ?_⟩
      obtain rfl := Option.some.inj hj
      exact hv

/-- So does making room in any way. -/
theorem elegirMarco_sana (srv : Servidor σ) (h : Ordenada ram w.memoria) :
    Ordenada ram (elegirMarco ram srv w).1.memoria ∧
      SinNueva w.memoria (elegirMarco ram srv w).1.memoria ∧
      ∀ i, (elegirMarco ram srv w).2 = some i → i < ram.frames := by
  unfold elegirMarco buscarMarcoLibre
  cases hlibre : w.memoria.frames.findIdx? Marco.libre with
  | some i =>
    refine ⟨h, SinNueva.refl _, fun j hj => ?_⟩
    obtain rfl := Option.some.inj hj
    exact h.marcos ▸ (List.findIdx?_eq_some_iff_getElem.mp hlibre).1
  | none =>
    obtain ⟨hsolo, hlt⟩ := elegirAlgoritmo_soloUso ram w.memoria
    cases helegir : elegirAlgoritmo ram w.memoria with
    | mk m victima =>
      rw [helegir] at hsolo hlt
      have hm : Ordenada ram m := hsolo.ordenada h
      have hclaves : SinNueva w.memoria m := SinNueva.of_eq (clave_soloUso hsolo)
      cases victima with
      | none => exact ⟨hm, hclaves, fun j hj => absurd hj (by simp)⟩
      | some v =>
        have hv : v < ram.frames := h.marcos ▸ hlt v rfl
        obtain ⟨hordenada, hmenos, hmarco⟩ :=
          desalojar_sana srv (w := { w with memoria := m }) hm hv
        exact ⟨hordenada, hclaves.trans hmenos, hmarco⟩

/-- A page received goes into the area at the place asked for, at most one page long. -/
theorem lecturaPaginaStorage_memoria (ram : Ram) (srv : Servidor σ) (w : Worker σ)
    (file tag : String) (p base : ℕ) : ∃ b : Bytes, b.length ≤ ram.pageSize ∧
      (lecturaPaginaStorage ram srv w file tag p base).1.memoria =
        { w.memoria with direccionBase := overlay w.memoria.direccionBase base b } := by
  unfold lecturaPaginaStorage
  split
  · exact ⟨[], Nat.zero_le _, by rw [overlay_nil]⟩
  · next b _ => exact ⟨b.take ram.pageSize, List.length_take_le _ _, rfl⟩

theorem clave_asignarMarco (reloj : Reloj) (m : Memoria) (i : ℕ) (file tag : String) (p j : ℕ) :
    clave (asignarMarco reloj m i file tag p) j =
      if j = i then (m.frames[i]?).map fun _ => ((file, tag), p) else clave m j := by
  refine (clave_modificarMarco m i _ j).trans ?_
  refine if_congr Iff.rfl ?_ rfl
  cases m.frames[i]? <;> rfl

theorem asignarMarco_sana (h : TablaSana ram m) {p : ℕ} (reloj : Reloj)
    (hi : i < ram.frames) (hun : ∀ j, clave m j ≠ some ((file, tag), p)) :
    TablaSana ram (asignarMarco reloj m i file tag p) ∧
      clave (asignarMarco reloj m i file tag p) i = some ((file, tag), p) := by
  have hclave := clave_asignarMarco reloj m i file tag p
  obtain ⟨f, hf, _⟩ := h.ordenada.marco hi
  have hnueva : clave (asignarMarco reloj m i file tag p) i = some ((file, tag), p) := by
    rw [hclave, if_pos rfl, hf, Option.map_some]
  refine ⟨⟨ordenada_asignarMarco h.ordenada reloj i file tag p, fun j j' k hj hj' => ?_⟩, hnueva⟩
  rcases eq_or_ne j i with rfl | hne
  · rcases eq_or_ne j' j with rfl | hne'
    · rfl
    · obtain rfl := Option.some.inj (hnueva.symm.trans hj)
      rw [hclave, if_neg hne'] at hj'
      exact absurd hj' (hun j')
  · rcases eq_or_ne j' i with rfl | hne'
    · obtain rfl := Option.some.inj (hnueva.symm.trans hj')
      rw [hclave, if_neg hne] at hj
      exact absurd hj (hun j)
    · rw [hclave, if_neg hne] at hj
      rw [hclave, if_neg hne'] at hj'
      exact h.unica j j' k hj hj'

theorem lecturaPaginaStorage_sana (h : TablaSana ram w.memoria) (hi : i < ram.frames)
    (srv : Servidor σ) (file tag : String) (p : ℕ) :
    TablaSana ram (lecturaPaginaStorage ram srv w file tag p (baseDe w.memoria i)).1.memoria := by
  obtain ⟨b, hb, hmemoria⟩ :=
    lecturaPaginaStorage_memoria ram srv w file tag p (baseDe w.memoria i)
  have hcabe := marco_cabe ram hi
  have hbase := h.ordenada.baseDe_eq hi
  rw [hmemoria]
  exact ⟨h.ordenada.copiar _ b (by omega), h.unica⟩

theorem cargarPagina_sana (h : TablaSana ram w.memoria) {p : ℕ} (hi : i < ram.frames)
    (hun : ∀ j, clave w.memoria j ≠ some ((file, tag), p)) :
    TablaSana ram (cargarPagina ram reloj srv w i file tag p).1.memoria ∧
      ∀ j, (cargarPagina ram reloj srv w i file tag p).2 = some j → j < ram.frames ∧
        clave (cargarPagina ram reloj srv w i file tag p).1.memoria j =
          some ((file, tag), p) := by
  obtain ⟨b, _, hmemoria⟩ :=
    lecturaPaginaStorage_memoria ram srv w file tag p (baseDe w.memoria i)
  have hsana := lecturaPaginaStorage_sana h hi srv file tag p
  unfold cargarPagina
  cases hres : lecturaPaginaStorage ram srv w file tag p (baseDe w.memoria i) with
  | mk w₁ ok =>
    rw [hres] at hmemoria hsana
    have hun₁ : ∀ j, clave w₁.memoria j ≠ some ((file, tag), p) := by
      rw [hmemoria]
      exact hun
    cases ok with
    | false => exact ⟨hsana, fun j hj => absurd hj (by simp)⟩
    | true =>
      obtain ⟨hasignada, hclave⟩ := asignarMarco_sana hsana reloj hi hun₁
      refine ⟨hasignada, fun j hj => ?_⟩
      obtain rfl := Option.some.inj hj
      exact ⟨hi, hclave⟩

/-- traer_pagina keeps the table, and the frame it returns holds the page. -/
theorem traerPagina_sana (h : TablaSana ram w.memoria) (reloj : Reloj) (srv : Servidor σ)
    (file tag : String) (p : ℕ) :
    TablaSana ram (traerPagina ram reloj srv w file tag p).1.memoria ∧
      ∀ i, (traerPagina ram reloj srv w file tag p).2 = some i → i < ram.frames ∧
        clave (traerPagina ram reloj srv w file tag p).1.memoria i =
          some ((file, tag), p) := by
  unfold traerPagina
  cases hbuscar : w.memoria.frames.findIdx? (frameMatchea file tag p) with
  | some i =>
    obtain ⟨hlt, hclave⟩ := clave_of_encontrada hbuscar
    refine ⟨h.tocar reloj i, fun j hj => ?_⟩
    obtain rfl := Option.some.inj hj
    exact ⟨h.ordenada.marcos ▸ hlt, (clave_tocar reloj w.memoria i i).trans hclave⟩
  | none =>
    have hun := clave_ne_of_ausente hbuscar
    obtain ⟨hordenada, hmenos, hlt⟩ := elegirMarco_sana srv h.ordenada
    cases helegir : elegirMarco ram srv w with
    | mk w₁ marco =>
      rw [helegir] at hordenada hmenos hlt
      have hsana := h.menos hordenada hmenos
      cases marco with
      | none => exact ⟨hsana, fun j hj => absurd hj (by simp)⟩
      | some i => exact cargarPagina_sana hsana (hlt i rfl) fun j hj => hun j (hmenos j _ hj)

end Traer

section Accesos

variable {a : Acceso} {salida : Bytes} {desplaz n : ℕ}

/-- A copy inside a frame that holds a page, and its touch. -/
theorem accederMarco_sana (h : TablaSana ram w.memoria) (reloj : Reloj) (a : Acceso)
    (hi : i < ram.frames) (hclave : (clave w.memoria i).isSome) (salida : Bytes)
    (hn : desplazamiento ram (a.base + desplaz) + n ≤ ram.pageSize) :
    TablaSana ram (accederMarco ram reloj a w i salida desplaz n).1.memoria := by
  unfold accederMarco
  split_ifs
  · have hbase := h.ordenada.baseDe_eq hi
    have hcabe := marco_cabe ram hi
    have hlength : (slice a.entrada desplaz n).length ≤ n := List.length_take_le _ _
    have hcopia := h.ordenada.copiar (baseDe w.memoria i + desplazamiento ram (a.base + desplaz))
      (slice a.entrada desplaz n) (by omega)
    have hsucia := hcopia.modificarMarco i (g := sucio) (fun _ => rfl) (fun f hf _ => by
      unfold clave at hclave
      rw [show w.memoria.frames[i]? = some f from hf, Option.bind_some] at hclave
      exact hclave) fun _ hr => hr
    have hsana : TablaSana ram (escribirTramo w i
        (baseDe w.memoria i + desplazamiento ram (a.base + desplaz))
        (slice a.entrada desplaz n)).memoria := by
      refine h.menos hsucia (SinNueva.of_eq fun j => ?_)
      refine (clave_modificarMarco_eq _ i (g := sucio) ?_ j).trans rfl
      exact fun _ => rfl
    exact hsana.tocar reloj i
  · exact h.tocar reloj i

theorem accederDesde_sana (reloj : Reloj) (srv : Servidor σ) (a : Acceso) (rondas : ℕ)
    (h : TablaSana ram w.memoria) (salida : Bytes) (desplaz n : ℕ) :
    TablaSana ram (accederDesde ram reloj srv a rondas w salida desplaz n).1.memoria := by
  induction rondas generalizing w salida desplaz n with
  | zero => exact h
  | succ rondas ih =>
    unfold accederDesde
    split_ifs with hn
    · exact h
    · obtain ⟨hsana, hmarco⟩ := traerPagina_sana h reloj srv a.file a.tag
        (nroPagina ram (a.base + desplaz))
      cases hres : traerPagina ram reloj srv w a.file a.tag
          (nroPagina ram (a.base + desplaz)) with
      | mk w₁ marco =>
        rw [hres] at hsana hmarco
        cases marco with
        | none => exact hsana
        | some i =>
          obtain ⟨hi, hclave⟩ := hmarco i rfl
          obtain ⟨_, _, htramo⟩ := tramo_spec ram (a.base + desplaz) (Nat.pos_of_ne_zero hn)
          refine ih (accederMarco_sana hsana reloj a hi ?_ salida htramo) _ _ _
          rw [hclave]
          rfl

theorem flushTodos_soloLimpia (ram : Ram) (srv : Servidor σ) (w : Worker σ) :
    SoloLimpia w.memoria (flushTodosFiletagsModificados ram srv w).1.memoria := by
  refine untilFalse_invariant (I := fun w' : Worker σ => SoloLimpia w.memoria w'.memoria) ?_
    (SoloLimpia.refl _)
  exact fun w' i _ hw' => hw'.trans (flushSiModificado_soloLimpia ram srv w' i)

theorem llamar_sana (h : TablaSana ram w.memoria) (reloj : Reloj) (srv : Servidor σ)
    (x : Llamada) : TablaSana ram (llamar ram reloj srv w x).1.memoria := by
  cases x with
  | leer file tag base salida => exact accederDesde_sana reloj srv _ _ h _ _ _
  | escribir file tag base entrada => exact accederDesde_sana reloj srv _ _ h _ _ _
  | flushFiletag file tag => exact h.soloLimpia (flushFiletag_soloLimpia ram srv w file tag)
  | flushTodos => exact h.soloLimpia (flushTodos_soloLimpia ram srv w)

end Accesos

section Liberar

theorem liberarMarco_menos (h : Ordenada ram w.memoria) (i : ℕ) :
    Ordenada ram (liberarMarco w i).memoria ∧ SinNueva w.memoria (liberarMarco w i).memoria := by
  refine ⟨h.modificarMarco i (fun _ => rfl) (fun f _ hdirty => ?_) fun _ hr => hr,
    fun j k hk => ?_⟩
  · simp [liberado] at hdirty
  · unfold liberarMarco at hk
    rw [clave_modificarMarco] at hk
    split_ifs at hk with hj
    · obtain ⟨f, _, hclave⟩ := Option.bind_eq_some_iff.mp hk
      simp [liberado, claveDe] at hclave
    · exact hk

theorem liberarConFlush_menos (h : Ordenada ram w.memoria) (srv : Servidor σ)
    (file tag : String) (k i : ℕ) :
    Ordenada ram (liberarConFlush ram srv file tag k w i).memoria ∧
      SinNueva w.memoria (liberarConFlush ram srv file tag k w i).memoria := by
  unfold liberarConFlush
  split_ifs
  · have hlimpia : SoloLimpia w.memoria (flushFrame ram srv w i).1.memoria :=
      volcarSi_soloLimpia ram srv (fun f => !f.libre && f.dirty) w i
    obtain ⟨hordenada, hmenos⟩ := liberarMarco_menos (ordenada_soloLimpia hlimpia h) i
    exact ⟨hordenada, (SinNueva.of_eq (clave_soloLimpia hlimpia)).trans hmenos⟩
  · exact ⟨h, SinNueva.refl _⟩

theorem liberarSinFlush_menos (h : Ordenada ram w.memoria) (file tag : String) (i : ℕ) :
    Ordenada ram (liberarSinFlush file tag w i).memoria ∧
      SinNueva w.memoria (liberarSinFlush file tag w i).memoria := by
  unfold liberarSinFlush
  split_ifs
  · exact liberarMarco_menos h i
  · exact ⟨h, SinNueva.refl _⟩

theorem foldl_menos {f : Worker σ → ℕ → Worker σ}
    (hf : ∀ w i, Ordenada ram w.memoria →
      Ordenada ram (f w i).memoria ∧ SinNueva w.memoria (f w i).memoria)
    (h : Ordenada ram w.memoria) (is : List ℕ) :
    Ordenada ram (is.foldl f w).memoria ∧ SinNueva w.memoria (is.foldl f w).memoria := by
  induction is generalizing w with
  | nil => exact ⟨h, SinNueva.refl _⟩
  | cons i is ih =>
    obtain ⟨hordenada, hmenos⟩ := hf w i h
    obtain ⟨hfinal, hresto⟩ := ih hordenada
    exact ⟨hfinal, hmenos.trans hresto⟩

theorem ejecutarTruncate_menos {e : Proceso σ} (h : Ordenada ram e.worker.memoria)
    (srv : Servidor σ) (inst : Instruccion) :
    Ordenada ram (ejecutarTruncate ram srv e inst).1.worker.memoria ∧
      SinNueva e.worker.memoria (ejecutarTruncate ram srv e inst).1.worker.memoria := by
  have hnada : Ordenada ram e.worker.memoria ∧ SinNueva e.worker.memoria e.worker.memoria :=
    ⟨h, SinNueva.refl _⟩
  unfold ejecutarTruncate conStorage
  split_ifs
  · exact hnada
  · dsimp only
    split_ifs
    · exact hnada
    · split
      · next heq =>
        rw [← (Prod.mk.inj heq).1]
        exact hnada
      · next heq =>
        obtain ⟨rfl, -⟩ := Prod.mk.inj heq
        split
        · exact hnada
        · next file tag _ =>
          have hmenos : ∀ (st : σ) (k : ℕ) (is : List ℕ),
              Ordenada ram (is.foldl (liberarConFlush ram srv file tag k)
                  ⟨e.worker.memoria, st⟩).memoria ∧
                SinNueva e.worker.memoria (is.foldl (liberarConFlush ram srv file tag k)
                  ⟨e.worker.memoria, st⟩).memoria := fun st k is =>
            foldl_menos (fun w i hw => liberarConFlush_menos hw srv file tag k i)
              (w := ⟨e.worker.memoria, st⟩) h is
          exact hmenos _ _ _

theorem ejecutarDelete_menos {e : Proceso σ} (h : Ordenada ram e.worker.memoria)
    (srv : Servidor σ) (inst : Instruccion) :
    Ordenada ram (ejecutarDelete ram srv e inst).1.worker.memoria ∧
      SinNueva e.worker.memoria (ejecutarDelete ram srv e inst).1.worker.memoria := by
  unfold ejecutarDelete conStorage
  split
  · exact ⟨h, SinNueva.refl _⟩
  · next file tag _ =>
    have hlimpia := flushFiletag_soloLimpia ram srv e.worker file tag
    have hflush := ordenada_soloLimpia hlimpia h
    have hclaves := SinNueva.of_eq (clave_soloLimpia hlimpia)
    cases hres : flushFiletag ram srv e.worker file tag with
    | mk w ok =>
      rw [hres] at hflush hclaves
      cases ok with
      | false => exact ⟨hflush, hclaves⟩
      | true =>
        obtain ⟨hordenada, hmenos⟩ := foldl_menos (f := liberarSinFlush file tag)
          (fun w i hw => liberarSinFlush_menos hw file tag i) hflush (List.range e.frameCount)
        exact ⟨hordenada, hclaves.trans hmenos⟩

end Liberar

section Corridas

/-- The operations on the Worker's memory. Between two of them Storage may be left in any
state by other requests, of this Worker or of others. -/
inductive Operacion (σ : Type*)
  | llamada (x : Llamada)
  | truncate (inst : Instruccion)
  | delete (inst : Instruccion)
  | ajena (st : σ)

def operar (ram : Ram) (reloj : Reloj) (srv : Servidor σ) (e : Proceso σ) :
    Operacion σ → Proceso σ
  | .llamada x => { e with worker := (llamar ram reloj srv e.worker x).1 }
  | .truncate inst => (ejecutarTruncate ram srv e inst).1
  | .delete inst => (ejecutarDelete ram srv e inst).1
  | .ajena st => { e with worker := { e.worker with storage := st } }

def operarTodas (ram : Ram) (reloj : Reloj) (srv : Servidor σ) (st : σ)
    (ops : List (Operacion σ)) : Proceso σ :=
  ops.foldl (operar ram reloj srv) (procesoInicial ram st)

theorem operar_sana {e : Proceso σ} (h : TablaSana ram e.worker.memoria) (reloj : Reloj)
    (srv : Servidor σ) (op : Operacion σ) :
    TablaSana ram (operar ram reloj srv e op).worker.memoria := by
  cases op with
  | llamada x => exact llamar_sana h reloj srv x
  | truncate inst =>
    obtain ⟨hordenada, hmenos⟩ := ejecutarTruncate_menos h.ordenada srv inst
    exact h.menos hordenada hmenos
  | delete inst =>
    obtain ⟨hordenada, hmenos⟩ := ejecutarDelete_menos h.ordenada srv inst
    exact h.menos hordenada hmenos
  | ajena st => exact h

/-- Whatever Storage answers, no run of operations leaves the invariant. -/
theorem tablaSana_operarTodas (ram : Ram) (reloj : Reloj) (srv : Servidor σ) (st : σ)
    (ops : List (Operacion σ)) :
    TablaSana ram (operarTodas ram reloj srv st ops).worker.memoria := by
  have hfold : ∀ (ops : List (Operacion σ)) (e : Proceso σ), TablaSana ram e.worker.memoria →
      TablaSana ram (ops.foldl (operar ram reloj srv) e).worker.memoria := by
    intro ops
    induction ops with
    | nil => exact fun _ h => h
    | cons op ops ih => exact fun e h => ih _ (operar_sana h reloj srv op)
  exact hfold ops _ (tablaSana_inicial ram)

/-- No page is in two frames, dirty frames are occupied and named, and the frames lie
apart inside the area. `misma` says which frames count as having one page. -/
structure SinDuplicados (misma : Marco → Marco → Prop) (ram : Ram) (m : Memoria) : Prop where
  unica : ∀ (i j : ℕ) (f g : Marco), m.frames[i]? = some f → m.frames[j]? = some g →
    f.libre = false → g.libre = false → misma f g → i = j
  sucias : ∀ f ∈ m.frames, f.dirty = true →
    f.libre = false ∧ f.file.isSome ∧ f.tag.isSome
  area : m.direccionBase.length = ram.tamMemoria
  dentro : ∀ f ∈ m.frames, f.base + ram.pageSize ≤ ram.tamMemoria
  aparte : ∀ (i j : ℕ) (f g : Marco), m.frames[i]? = some f → m.frames[j]? = some g → i ≠ j →
    f.base + ram.pageSize ≤ g.base ∨ g.base + ram.pageSize ≤ f.base

/-- The fields of the page are equal, also when they are NULL. -/
def MismosCampos (f g : Marco) : Prop := f.file = g.file ∧ f.tag = g.tag ∧ f.pagina = g.pagina

/-- The two frames name one File, one Tag and one page. -/
def MismaPagina (f g : Marco) : Prop :=
  ∃ file tag, f.file = some file ∧ g.file = some file ∧ f.tag = some tag ∧ g.tag = some tag ∧
    f.pagina = g.pagina

theorem claveDe_of_nombres {f : Marco} (hlibre : f.libre = false) (hfile : f.file = some file)
    (htag : f.tag = some tag) : claveDe f = some ((file, tag), f.pagina) := by
  unfold claveDe
  rw [hlibre, hfile, htag]
  rfl

theorem TablaSana.sinDuplicados (h : TablaSana ram m) : SinDuplicados MismaPagina ram m where
  unica := by
    rintro i j f g hf hg hlibre hlibre' ⟨file, tag, hfile, hfile', htag, htag', hpagina⟩
    refine h.unica i j ((file, tag), f.pagina) ?_ ?_
    · unfold clave
      rw [hf, Option.bind_some, claveDe_of_nombres hlibre hfile htag]
    · unfold clave
      rw [hg, Option.bind_some, claveDe_of_nombres hlibre' hfile' htag', hpagina]
  sucias := by
    intro f hf hdirty
    obtain ⟨i, hi⟩ := List.mem_iff_getElem?.mp hf
    obtain ⟨k, hk⟩ := Option.isSome_iff_exists.mp (h.ordenada.nombrado i f hi hdirty)
    obtain ⟨hlibre, hfile, htag, _⟩ := claveDe_eq_some hk
    exact ⟨hlibre, by rw [hfile]; rfl, by rw [htag]; rfl⟩
  area := h.ordenada.tamanio
  dentro := by
    intro f hf
    obtain ⟨i, hi⟩ := List.mem_iff_getElem?.mp hf
    exact h.ordenada.cabe hi
  aparte := by
    intro i j f g hf hg hne
    rw [h.ordenada.bases i f hf, h.ordenada.bases j g hg]
    exact marcos_aparte ram hne

/-- No page is cached twice, in any run of operations. -/
theorem sinDuplicados_operarTodas (ram : Ram) (reloj : Reloj) (srv : Servidor σ) (st : σ)
    (ops : List (Operacion σ)) :
    SinDuplicados MismaPagina ram (operarTodas ram reloj srv st ops).worker.memoria :=
  (tablaSana_operarTodas ram reloj srv st ops).sinDuplicados

end Corridas

section Vaciados

/-- Pages 0 of a:b and c:d fill the two frames; two reads of a missing File:Tag fail
and empty both. -/
def lecturasFallidas : List (Operacion Unit) :=
  [.llamada (.leer "a" "b" 0 [0]), .llamada (.leer "c" "d" 0 [0]),
    .llamada (.leer "x" "y" 0 [0]), .llamada (.leer "x" "y" 0 [0])]

/-- A Storage that has all pages of all File:Tags but those of x:y. -/
def servidorSinXY : Servidor Unit where
  readBlock := fun st nombre _ => (st, if nombre = "x:y" then none else some [0, 0])
  writeBlock := fun st _ _ _ _ => (st, true)
  create := fun st _ => (st, false)
  truncate := fun st _ _ => (st, false)
  tag := fun st _ _ => (st, false)
  commit := fun st _ => (st, false)
  flush := fun st _ _ => (st, false)
  delete := fun st _ _ => (st, false)

/-- Two occupied frames without names have the same fields. -/
theorem not_mismosCampos : ¬ ∀ (ram : Ram) reloj (srv : Servidor Unit) st ops,
    SinDuplicados MismosCampos ram (operarTodas ram reloj srv st ops).worker.memoria := by
  intro h
  have hunica := (h ramChica relojParado servidorSinXY () lecturasFallidas).unica 0 1
    ⟨false, 0, none, none, 0, false, false, false, 0⟩
    ⟨false, 2, none, none, 0, false, false, false, 0⟩
    (by decide) (by decide) rfl rfl ⟨rfl, rfl, rfl⟩
  exact absurd hunica (by decide)

end Vaciados

end MasterOfFiles.FrameInvariants
