import MasterOfFiles.FrameTables

/-!
LRU and CLOCK-M. Either returns a frame of a table without free frames, and
changes nothing but use bits and PUNTERO_RELOJ. The times LRU compares are below
UINT64_MAX, so its search always starts from a frame.
-/
namespace MasterOfFiles.ReplacementPolicies

open ByteBuffers WriteBackCaches WorkerMemory FrameTables

variable {ram : Ram} {m m' m'' : Memoria} {i j : ℕ}

section SoloUso

def sinUso (f : Marco) : Marco := { f with U := false }

/-- The tables agree but for use bits and PUNTERO_RELOJ. -/
structure SoloUso (m m' : Memoria) : Prop where
  area : m'.direccionBase = m.direccionBase
  lecturas : m'.lecturasReloj = m.lecturasReloj
  marcos : ∀ i : ℕ, (m'.frames[i]?).map sinUso = (m.frames[i]?).map sinUso
  cantidad : m'.frames.length = m.frames.length

theorem SoloUso.refl (m : Memoria) : SoloUso m m := ⟨rfl, rfl, fun _ => rfl, rfl⟩

theorem SoloUso.trans (h : SoloUso m m') (h' : SoloUso m' m'') : SoloUso m m'' where
  area := h'.area.trans h.area
  lecturas := h'.lecturas.trans h.lecturas
  marcos := fun i => (h'.marcos i).trans (h.marcos i)
  cantidad := h'.cantidad.trans h.cantidad

theorem soloUso_limpiarU (m : Memoria) (i : ℕ) : SoloUso m (limpiarU m i) where
  area := rfl
  lecturas := rfl
  marcos := by
    intro j
    unfold limpiarU
    rw [frames_modificarMarco]
    split_ifs with hj
    · rw [hj, Option.map_map]
      rfl
    · rfl
  cantidad := List.length_modify ..

theorem SoloUso.marco (h : SoloUso m m') {f' : Marco} (hf' : m'.frames[i]? = some f') :
    ∃ f, m.frames[i]? = some f ∧ sinUso f' = sinUso f := by
  have hmarcos := h.marcos i
  rw [hf', Option.map_some] at hmarcos
  obtain ⟨f, hf, heq⟩ := Option.map_eq_some_iff.mp hmarcos.symm
  exact ⟨f, hf, heq.symm⟩

theorem claveDe_eq_of_sinUso {f f' : Marco} (h : sinUso f' = sinUso f) : claveDe f' = claveDe f :=
  calc
    claveDe f' = claveDe (sinUso f') := rfl
    _ = claveDe (sinUso f) := by rw [h]
    _ = claveDe f := rfl

theorem SoloUso.linea_eq (h : SoloUso m m') (ram : Ram) : linea ram m' = linea ram m := by
  funext i
  have hlinea : ∀ o : Option Marco,
      o.bind (lineaDe ram m.direccionBase) = (o.map sinUso).bind (lineaDe ram m.direccionBase) := by
    intro o
    cases o <;> rfl
  unfold linea
  rw [h.area, hlinea (m'.frames[i]?), h.marcos, ← hlinea]

theorem SoloUso.ordenada (h : SoloUso m m') (hm : Ordenada ram m) : Ordenada ram m' where
  tamanio := h.area ▸ hm.tamanio
  marcos := h.cantidad.trans hm.marcos
  bases := by
    intro i f' hf'
    obtain ⟨f, hf, heq⟩ := h.marco hf'
    exact (congrArg Marco.base heq).trans (hm.bases i f hf)
  nombrado := by
    intro i f' hf' hdirty
    obtain ⟨f, hf, heq⟩ := h.marco hf'
    rw [claveDe_eq_of_sinUso heq]
    exact hm.nombrado i f hf ((congrArg Marco.dirty heq).symm.trans hdirty)
  reloj := by
    intro i f' hf'
    obtain ⟨f, hf, heq⟩ := h.marco hf'
    exact (congrArg Marco.lastUsed heq).symm ▸ hm.reloj i f hf

end SoloUso

section LRU

theorem lruDesde_lt {fs : List Marco} {i peor : ℕ} {victima : Option ℕ}
    (hv : ∀ v, victima = some v → v < i) :
    ∀ v, lruDesde fs i victima peor = some v → v < i + fs.length := by
  induction fs generalizing i victima peor with
  | nil => exact hv
  | cons f fs ih =>
    intro v hres
    unfold lruDesde at hres
    have hlength : i + (f :: fs).length = i + 1 + fs.length := by
      rw [List.length_cons]
      omega
    rw [hlength]
    split_ifs at hres
    · refine ih (fun u hu => ?_) v hres
      obtain rfl := Option.some.inj hu
      exact Nat.lt_succ_self _
    · exact ih (fun u hu => Nat.lt_succ_of_lt (hv u hu)) v hres

theorem lruDesde_isSome {fs : List Marco} {i peor : ℕ} {victima : Option ℕ}
    (h : victima.isSome ∨ ∃ f ∈ fs, f.libre = false ∧ f.lastUsed < peor) :
    (lruDesde fs i victima peor).isSome := by
  induction fs generalizing i victima peor with
  | nil =>
    rcases h with hv | ⟨f, hf, _⟩
    · exact hv
    · exact absurd hf List.not_mem_nil
  | cons f fs ih =>
    unfold lruDesde
    split_ifs with hf
    · exact ih (Or.inl rfl)
    · refine ih ?_
      rcases h with hv | ⟨f', hmem, hf'⟩
      · exact Or.inl hv
      · rcases List.mem_cons.mp hmem with rfl | hmem
        · exact absurd hf' hf
        · exact Or.inr ⟨f', hmem, hf'⟩

end LRU

section CLOCKM

theorem mem_vuelta_lt (hi : i ∈ vuelta m) : i < m.frames.length := by
  obtain ⟨k, hk, rfl⟩ := List.mem_map.mp hi
  exact Nat.mod_lt _ (Nat.zero_lt_of_lt (List.mem_range.mp hk))

theorem segundaVuelta_soloUso (is : List ℕ) (m : Memoria) : SoloUso m (segundaVuelta is m).1 := by
  induction is generalizing m with
  | nil => exact SoloUso.refl m
  | cons i is ih =>
    unfold segundaVuelta
    split_ifs
    · exact SoloUso.refl m
    · exact (soloUso_limpiarU m i).trans (ih _)
    · exact ih m

theorem mem_of_segundaVuelta {is : List ℕ} (h : (segundaVuelta is m).2 = some i) : i ∈ is := by
  induction is generalizing m with
  | nil => simp [segundaVuelta] at h
  | cons k is ih =>
    unfold segundaVuelta at h
    split_ifs at h
    · obtain rfl := Option.some.inj h
      exact List.mem_cons_self ..
    · exact List.mem_cons_of_mem _ (ih h)
    · exact List.mem_cons_of_mem _ (ih h)

theorem soloUso_elegido (m : Memoria) (i : ℕ) : SoloUso m (elegido m i).1 :=
  ⟨rfl, rfl, fun _ => rfl, rfl⟩

/-- CLOCK-M moves use bits and the pointer and no more, and gives up a frame of the table. -/
theorem algoritmoCLOCKM_soloUso (m : Memoria) : SoloUso m (algoritmoCLOCKM m).1 ∧
    ∀ v, (algoritmoCLOCKM m).2 = some v → v < m.frames.length := by
  unfold algoritmoCLOCKM
  cases hprimera : (vuelta m).find? (cumple m fun f => !f.libre && !f.U && !f.M) with
  | some i =>
    refine ⟨soloUso_elegido m i, fun v hv => ?_⟩
    obtain rfl := Option.some.inj hv
    exact mem_vuelta_lt (List.mem_of_find?_eq_some hprimera)
  | none =>
    have hsolo := segundaVuelta_soloUso (vuelta m) m
    cases hsegunda : segundaVuelta (vuelta m) m with
    | mk m₁ victima =>
      rw [hsegunda] at hsolo
      cases victima with
      | some i =>
        refine ⟨hsolo.trans (soloUso_elegido m₁ i), fun v hv => ?_⟩
        obtain rfl := Option.some.inj hv
        exact mem_vuelta_lt (mem_of_segundaVuelta (congrArg Prod.snd hsegunda))
      | none =>
        cases htercera : (vuelta m₁).find? (cumple m₁ fun f => !f.libre) with
        | some i =>
          simp only [htercera]
          refine ⟨hsolo.trans (soloUso_elegido m₁ i), fun v hv => ?_⟩
          obtain rfl := Option.some.inj hv
          exact hsolo.cantidad ▸ mem_vuelta_lt (List.mem_of_find?_eq_some htercera)
        | none =>
          simp only [htercera]
          exact ⟨hsolo, fun v hv => absurd hv (by simp)⟩

theorem cumple_ocupado (h : ∀ f ∈ m.frames, f.libre = false) (hi : i < m.frames.length) :
    cumple m (fun f => !f.libre) i = true := by
  unfold cumple
  rw [List.getElem?_eq_getElem hi, Option.any_some, h _ (List.getElem_mem hi)]
  rfl

theorem algoritmoCLOCKM_spec (hpos : 0 < m.frames.length)
    (hocupado : ∀ f ∈ m.frames, f.libre = false) :
    ∃ m' v, algoritmoCLOCKM m = (m', some v) ∧ SoloUso m m' ∧ v < m.frames.length := by
  obtain ⟨hsolo, hlt⟩ := algoritmoCLOCKM_soloUso m
  have hsome : (algoritmoCLOCKM m).2.isSome := by
    unfold algoritmoCLOCKM
    cases (vuelta m).find? (cumple m fun f => !f.libre && !f.U && !f.M) with
    | some i => rfl
    | none =>
      have hsolo₁ := segundaVuelta_soloUso (vuelta m) m
      cases hsegunda : segundaVuelta (vuelta m) m with
      | mk m₁ victima =>
        rw [hsegunda] at hsolo₁
        cases victima with
        | some i => rfl
        | none =>
          have hpos₁ : 0 < m₁.frames.length := hsolo₁.cantidad ▸ hpos
          have hocupado₁ : ∀ f ∈ m₁.frames, f.libre = false := by
            intro f' hf'
            obtain ⟨k, hk⟩ := List.mem_iff_getElem?.mp hf'
            obtain ⟨f, hf, heq⟩ := hsolo₁.marco hk
            exact (congrArg Marco.libre heq).trans (hocupado f (List.mem_of_getElem? hf))
          -- the first frame of the third search is occupied, like all the others
          have hprimero : m₁.punteroReloj % m₁.frames.length ∈ vuelta m₁ :=
            List.mem_map.mpr ⟨0, List.mem_range.mpr hpos₁, rfl⟩
          have hcumple := cumple_ocupado hocupado₁ (mem_vuelta_lt hprimero)
          cases htercera : (vuelta m₁).find? (cumple m₁ fun f => !f.libre) with
          | some i =>
            simp only [htercera]
            rfl
          | none => exact absurd hcumple (List.find?_eq_none.mp htercera _ hprimero)
  obtain ⟨v, hv⟩ := Option.isSome_iff_exists.mp hsome
  exact ⟨_, v, Prod.ext rfl hv, hsolo, hlt v hv⟩

end CLOCKM

/-- Either algorithm moves use bits and the pointer and no more. -/
theorem elegirAlgoritmo_soloUso (ram : Ram) (m : Memoria) :
    SoloUso m (elegirAlgoritmo ram m).1 ∧
      ∀ v, (elegirAlgoritmo ram m).2 = some v → v < m.frames.length := by
  unfold elegirAlgoritmo
  cases ram.algoritmo with
  | lru =>
    refine ⟨SoloUso.refl m, fun v hv => ?_⟩
    have hlt := lruDesde_lt (fun v hv => absurd hv (by simp)) v hv
    omega
  | clockM => exact algoritmoCLOCKM_soloUso m

/-- On a full table either algorithm gives up a frame. -/
theorem elegirAlgoritmo_spec (h : Ordenada ram m) (hpos : 0 < ram.frames)
    (hocupado : ∀ f ∈ m.frames, f.libre = false) :
    ∃ m' v, elegirAlgoritmo ram m = (m', some v) ∧ SoloUso m m' ∧ v < ram.frames := by
  have hpos' : 0 < m.frames.length := h.marcos ▸ hpos
  unfold elegirAlgoritmo
  cases ram.algoritmo with
  | lru =>
    have hsome : (algoritmoLRU m).isSome := by
      refine lruDesde_isSome (Or.inr ⟨m.frames[0], List.getElem_mem hpos', ?_, ?_⟩)
      · exact hocupado _ (List.getElem_mem hpos')
      · have hreloj := h.reloj 0 _ (List.getElem?_eq_getElem hpos')
        omega
    obtain ⟨v, hv⟩ := Option.isSome_iff_exists.mp hsome
    have hlt := lruDesde_lt (fun v hv => absurd hv (by simp)) v hv
    exact ⟨m, v, by rw [hv], SoloUso.refl m, by have := h.marcos; omega⟩
  | clockM =>
    obtain ⟨m', v, hv, hsolo, hlt⟩ := algoritmoCLOCKM_spec hpos' hocupado
    exact ⟨m', v, hv, hsolo, h.marcos ▸ hlt⟩

end MasterOfFiles.ReplacementPolicies
