import MasterOfFiles.ReplacementPolicies

/-!
The Worker's memory, in front of a Storage that keeps what it is sent, stands for
one byte array for each File:Tag. Every function of the memory keeps this
relation and succeeds.
-/
namespace MasterOfFiles.PagingSimulation

open ByteBuffers PartialRuns WriteBackCaches WorkerMemory FrameTables ReplacementPolicies

abbrev Plano := String × String → Bytes

def Valida (paginas : String × String → ℕ) (k : Clave) : Prop := k.2 < paginas k.1

def paginaDe (ram : Ram) (plano : Plano) (k : Clave) : Bytes :=
  slice (plano k.1) (k.2 * ram.pageSize) ram.pageSize

/-- Storage answers every request about the pages of a File:Tag, reading what was
last written. `contenido` is what it holds. A page number is a uint32_t and an
address a size_t; the sizes Storage keeps are ints, far below either bound. -/
structure StorageFiel {σ : Type*} (srv : Servidor σ) (ram : Ram) (paginas : String × String → ℕ)
    (contenido : σ → Clave → Bytes) : Prop where
  numeros : ∀ ft, paginas ft ≤ 2 ^ 32
  direcciones : ∀ ft, paginas ft * ram.pageSize ≤ 2 ^ 64
  largo : ∀ st k, Valida paginas k → (contenido st k).length = ram.pageSize
  lectura : ∀ st f t p, p < paginas (f, t) → ∃ st',
    srv.readBlock st (f ++ ":" ++ t) p = (st', some (contenido st ((f, t), p))) ∧
      ∀ k, Valida paginas k → contenido st' k = contenido st k
  escritura : ∀ st f t p (b : Bytes), p < paginas (f, t) → b.length = ram.pageSize → ∃ st',
    srv.writeBlock st f t p b = (st', true) ∧
      ∀ k, Valida paginas k → contenido st' k = Function.update (contenido st) ((f, t), p) b k

/-- Memory and Storage together hold the arrays `plano`. -/
structure Simula {σ : Type*} (ram : Ram) (paginas : String × String → ℕ)
    (contenido : σ → Clave → Bytes) (w : Worker σ) (plano : Plano) : Prop where
  ordenada : Ordenada ram w.memoria
  largo : ∀ ft, (plano ft).length = paginas ft * ram.pageSize
  representa : Represents (Valida paginas) (linea ram w.memoria) (contenido w.storage)
    (paginaDe ram plano)

variable {σ : Type*} {ram : Ram} {reloj : Reloj} {srv : Servidor σ}
  {paginas : String × String → ℕ} {contenido : σ → Clave → Bytes} {w : Worker σ} {plano : Plano}
  {file tag : String} {i : ℕ}

section Tocar

theorem ordenada_tocar {m : Memoria} (h : Ordenada ram m) (reloj : Reloj) (i : ℕ) :
    Ordenada ram (tocar reloj m i) := by
  have hmod := h.modificarMarco i (g := usado (reloj.ms m.lecturasReloj)) (fun _ => rfl)
    (fun f hf hdirty => h.nombrado i f hf hdirty) fun _ _ => reloj.int64 _
  exact ⟨hmod.tamanio, hmod.marcos, hmod.bases, hmod.nombrado, hmod.reloj⟩

theorem linea_tocar (ram : Ram) (reloj : Reloj) (m : Memoria) (i : ℕ) :
    linea ram (tocar reloj m i) = linea ram m := by
  refine linea_modificarMarco_eq ram m i ?_
  exact fun _ => rfl

theorem Simula.tocar (h : Simula ram paginas contenido w plano) (reloj : Reloj) (i : ℕ) :
    Simula ram paginas contenido { w with memoria := tocar reloj w.memoria i } plano where
  ordenada := ordenada_tocar h.ordenada reloj i
  largo := h.largo
  representa := by
    rw [linea_tocar]
    exact h.representa

end Tocar

section Volcar

/-- The tables agree but for modified bits that were cleared. -/
structure SoloLimpia (m m' : Memoria) : Prop where
  area : m'.direccionBase = m.direccionBase
  marcos : ∀ i : ℕ, m'.frames[i]? = m.frames[i]? ∨ m'.frames[i]? = (m.frames[i]?).map limpio
  cantidad : m'.frames.length = m.frames.length

theorem SoloLimpia.refl (m : Memoria) : SoloLimpia m m := ⟨rfl, fun _ => Or.inl rfl, rfl⟩

theorem SoloLimpia.trans {m m' m'' : Memoria} (h : SoloLimpia m m') (h' : SoloLimpia m' m'') :
    SoloLimpia m m'' where
  area := h'.area.trans h.area
  marcos := by
    intro i
    rcases h'.marcos i with heq' | heq'
    · rw [heq']
      exact h.marcos i
    · refine Or.inr ?_
      rcases h.marcos i with heq | heq
      · rw [heq', heq]
      · rw [heq', heq, Option.map_map]
        rfl
  cantidad := h'.cantidad.trans h.cantidad

theorem soloLimpia_limpiar (m : Memoria) (i : ℕ) : SoloLimpia m (modificarMarco m i limpio) where
  area := rfl
  marcos := by
    intro j
    rw [frames_modificarMarco]
    split_ifs with hj
    · rw [hj]
      exact Or.inr rfl
    · exact Or.inl rfl
  cantidad := List.length_modify ..

/-- Whatever Storage answers, sending a frame back clears its modified bits or nothing. -/
theorem volcarSi_memoria (ram : Ram) (srv : Servidor σ) (p : Marco → Bool) (w : Worker σ)
    (i : ℕ) : (volcarSi ram srv p w i).1.memoria = w.memoria ∨
      (volcarSi ram srv p w i).1.memoria = modificarMarco w.memoria i limpio := by
  unfold volcarSi volcarMarco escribirPaginaStorage
  split
  · exact Or.inl rfl
  · next f _ =>
    split_ifs
    · split
      · next file tag _ _ =>
        cases hres : srv.writeBlock w.storage file tag f.pagina
          (slice w.memoria.direccionBase f.base ram.pageSize) with
        | mk st ok =>
          cases ok with
          | true => exact Or.inr rfl
          | false => exact Or.inl rfl
      · exact Or.inl rfl
    · exact Or.inl rfl

theorem volcarSi_soloLimpia (ram : Ram) (srv : Servidor σ) (p : Marco → Bool) (w : Worker σ)
    (i : ℕ) : SoloLimpia w.memoria (volcarSi ram srv p w i).1.memoria := by
  rcases volcarSi_memoria ram srv p w i with heq | heq
  · rw [heq]
    exact SoloLimpia.refl _
  · rw [heq]
    exact soloLimpia_limpiar _ _

theorem volcarSi_otro (ram : Ram) (srv : Servidor σ) (p : Marco → Bool) (w : Worker σ) {j : ℕ}
    (h : i ≠ j) :
    (volcarSi ram srv p w j).1.memoria.frames[i]? = w.memoria.frames[i]? := by
  rcases volcarSi_memoria ram srv p w j with heq | heq
  · rw [heq]
  · rw [heq, frames_modificarMarco, if_neg h]

/-- A frame with its modified bit set is sent to Storage and cleared. -/
theorem volcarMarco_simula (hfiel : StorageFiel srv ram paginas contenido)
    (h : Simula ram paginas contenido w plano) {f : Marco} (hf : w.memoria.frames[i]? = some f)
    (hdirty : f.dirty = true) : ∃ w', volcarMarco ram srv w i f = (w', true) ∧
      w'.memoria = modificarMarco w.memoria i limpio ∧ Simula ram paginas contenido w' plano := by
  obtain ⟨k, hk⟩ := Option.isSome_iff_exists.mp (h.ordenada.nombrado i f hf hdirty)
  obtain ⟨_, hfile, htag, hpagina⟩ := claveDe_eq_some hk
  have hlinea := linea_of_claveDe ram hf hk
  have hvalida : Valida paginas k := h.representa.inside i _ hlinea
  obtain ⟨st, hwrite, hst⟩ := hfiel.escritura w.storage k.1.1 k.1.2 k.2 _ hvalida
    (h.ordenada.length_pagina hf)
  refine ⟨limpiarMarco { w with storage := st } i, ?_, rfl, ?_, h.largo, ?_⟩
  · unfold volcarMarco escribirPaginaStorage
    rw [hfile, htag, hpagina]
    simp only [hwrite]
  · exact h.ordenada.modificarMarco i (fun _ => rfl) (fun _ _ hd => absurd hd (by simp [limpio]))
      fun _ hr => hr
  · have hclave : claveDe (limpio f) = some k := hk
    have hupdate := linea_modificarMarco ram w.memoria i limpio
    rw [hf, Option.bind_some, lineaDe, hclave, Option.map_some] at hupdate
    change Represents _ (linea ram (modificarMarco w.memoria i limpio)) (contenido st) _
    rw [hupdate]
    exact h.representa.writeBack hlinea hst

variable {p : Marco → Bool}

theorem volcarSi_simula (hfiel : StorageFiel srv ram paginas contenido)
    (hp : ∀ f, p f = true → f.dirty = true) (h : Simula ram paginas contenido w plano) (i : ℕ) :
    (volcarSi ram srv p w i).2 = true ∧
      Simula ram paginas contenido (volcarSi ram srv p w i).1 plano ∧
      ∀ f, (volcarSi ram srv p w i).1.memoria.frames[i]? = some f → p f = false := by
  unfold volcarSi
  cases hf : w.memoria.frames[i]? with
  | none => exact ⟨rfl, h, fun f hf' => absurd (hf.symm.trans hf') (by simp)⟩
  | some f =>
    cases hpf : p f with
    | false =>
      refine ⟨by simp [hpf], by simpa [hpf] using h, fun f' hf' => ?_⟩
      simp only [hpf] at hf'
      obtain rfl := Option.some.inj (hf.symm.trans hf')
      exact hpf
    | true =>
      obtain ⟨w', hw', hmem, hsim⟩ := volcarMarco_simula hfiel h hf (hp f hpf)
      simp only [hpf, if_true, hw']
      refine ⟨trivial, hsim, fun f' hf' => ?_⟩
      rw [hmem, frames_modificarMarco, if_pos rfl, hf, Option.map_some] at hf'
      obtain rfl := Option.some.inj hf'
      exact Bool.eq_false_iff.mpr fun htrue => absurd (hp _ htrue) (by simp [limpio])

end Volcar

section Flush

/-- The line of frame `i`, if there is one, is not behind Storage. -/
def Limpia (ram : Ram) (m : Memoria) (i : ℕ) : Prop :=
  ∀ a, linea ram m i = some a → a.dirty = false

theorem SoloLimpia.limpia {m m' : Memoria} (h : SoloLimpia m m') (hi : Limpia ram m i) :
    Limpia ram m' i := by
  intro a ha
  obtain ⟨f', hf', hclave, hdirty, _⟩ := linea_eq_some ha
  rw [← hdirty]
  rcases h.marcos i with heq | heq
  · have hf : m.frames[i]? = some f' := heq.symm.trans hf'
    exact hi _ (linea_of_claveDe ram hf hclave)
  · obtain ⟨f, _, rfl⟩ := Option.map_eq_some_iff.mp (heq.symm.trans hf')
    rfl

/-- Pages stay where they are when modified bits are cleared. -/
theorem SoloLimpia.clave {m m' : Memoria} (h : SoloLimpia m m') {a' : Line Clave Bytes}
    (ha' : linea ram m' i = some a') : ∃ a, linea ram m i = some a ∧ a.key = a'.key := by
  obtain ⟨f', hf', hclave, _⟩ := linea_eq_some ha'
  have hf : ∃ f, m.frames[i]? = some f ∧ claveDe f = some a'.key := by
    rcases h.marcos i with heq | heq
    · exact ⟨f', heq.symm.trans hf', hclave⟩
    · obtain ⟨f, hf, rfl⟩ := Option.map_eq_some_iff.mp (heq.symm.trans hf')
      exact ⟨f, hf, hclave⟩
  obtain ⟨f, hf, hclave⟩ := hf
  exact ⟨_, linea_of_claveDe ram hf hclave, rfl⟩

theorem flushFiletag_soloLimpia (ram : Ram) (srv : Servidor σ) (w : Worker σ)
    (file tag : String) : SoloLimpia w.memoria (flushFiletag ram srv w file tag).1.memoria := by
  refine untilFalse_invariant (I := fun w' : Worker σ => SoloLimpia w.memoria w'.memoria) ?_
    (SoloLimpia.refl _)
  exact fun w' i _ hw' => hw'.trans (volcarSi_soloLimpia ram srv _ w' i)

theorem flushSiModificado_soloLimpia (ram : Ram) (srv : Servidor σ) (w : Worker σ) (i : ℕ) :
    SoloLimpia w.memoria (flushSiModificado ram srv w i).1.memoria := by
  unfold flushSiModificado
  split
  · exact SoloLimpia.refl _
  · split
    · split_ifs
      · exact flushFiletag_soloLimpia ram srv w _ _
      · exact SoloLimpia.refl _
    · exact SoloLimpia.refl _

/-- FLUSH of a File:Tag leaves its pages in Storage. -/
theorem flushFiletag_simula (hfiel : StorageFiel srv ram paginas contenido)
    (h : Simula ram paginas contenido w plano) (file tag : String) :
    (flushFiletag ram srv w file tag).2 = true ∧
      Simula ram paginas contenido (flushFiletag ram srv w file tag).1 plano ∧
      ∀ i a, linea ram (flushFiletag ram srv w file tag).1.memoria i = some a →
        a.key.1 = (file, tag) → a.dirty = false := by
  have hp : ∀ f : Marco, (!f.libre && f.file == some file && f.tag == some tag && f.dirty) = true →
      f.dirty = true := fun f hf => (Bool.and_eq_true_iff.mp hf).2
  obtain ⟨hend, hsim, _, hlimpio⟩ := untilFalse_complete
    (I := fun w' => Simula ram paginas contenido w' plano)
    (Q := fun (i : ℕ) w' => ∀ f, w'.memoria.frames[i]? = some f →
      (!f.libre && f.file == some file && f.tag == some tag && f.dirty) = false)
    (List.range w.memoria.frames.length)
    (fun w' i _ hw' => volcarSi_simula hfiel hp hw' i) (by
      intro w' x _ y _ hy f hf
      rcases (volcarSi_soloLimpia ram srv _ w' x).marcos y with heq | heq
      · exact hy f (heq.symm.trans hf)
      · obtain ⟨f', _, rfl⟩ := Option.map_eq_some_iff.mp (heq.symm.trans hf)
        simp [limpio]) h
  refine ⟨hend, hsim, fun i a ha hkey => ?_⟩
  obtain ⟨f, hf, hclave, hdirty, _⟩ := linea_eq_some ha
  obtain ⟨hlibre, hfile, htag, _⟩ := claveDe_eq_some hclave
  have hlt : i < w.memoria.frames.length := by
    have hlen := (flushFiletag_soloLimpia ram srv w file tag).cantidad
    have hlt' := (List.getElem?_eq_some_iff.mp hf).1
    omega
  have hno := hlimpio i (List.mem_range.mpr hlt) f hf
  rw [hkey] at hfile htag
  rw [← hdirty]
  simpa [hlibre, hfile, htag] using hno

theorem flushSiModificado_simula (hfiel : StorageFiel srv ram paginas contenido)
    (h : Simula ram paginas contenido w plano) (i : ℕ) :
    (flushSiModificado ram srv w i).2 = true ∧
      Simula ram paginas contenido (flushSiModificado ram srv w i).1 plano ∧
      Limpia ram (flushSiModificado ram srv w i).1.memoria i := by
  have hsolo := flushSiModificado_soloLimpia ram srv w i
  unfold flushSiModificado at hsolo ⊢
  split
  · next hf =>
    refine ⟨rfl, h, fun a ha => ?_⟩
    obtain ⟨f, hf', _⟩ := linea_eq_some ha
    exact absurd (hf.symm.trans hf') (by simp)
  · next f hf =>
    split
    · next file tag hfile htag =>
      split_ifs with hcond
      · obtain ⟨hend, hsim, hlimpia⟩ := flushFiletag_simula hfiel h file tag
        refine ⟨hend, hsim, fun a ha => hlimpia i a ha ?_⟩
        obtain ⟨f', hf', hclave, _⟩ := linea_eq_some ha
        obtain ⟨_, hfile', htag', _⟩ := claveDe_eq_some hclave
        have hnombres : f'.file = f.file ∧ f'.tag = f.tag := by
          rcases (flushFiletag_soloLimpia ram srv w file tag).marcos i with heq | heq
          · obtain rfl := Option.some.inj (hf.symm.trans (heq.symm.trans hf'))
            exact ⟨rfl, rfl⟩
          · rw [hf, Option.map_some] at heq
            obtain rfl := Option.some.inj (hf'.symm.trans heq)
            exact ⟨rfl, rfl⟩
        rw [hnombres.1, hfile] at hfile'
        rw [hnombres.2, htag] at htag'
        exact Prod.ext (Option.some.inj hfile').symm (Option.some.inj htag').symm
      · refine ⟨rfl, h, fun a ha => ?_⟩
        obtain ⟨f', hf', hclave, hdirty, _⟩ := linea_eq_some ha
        obtain rfl := Option.some.inj (hf.symm.trans hf')
        obtain ⟨hlibre, _⟩ := claveDe_eq_some hclave
        rw [← hdirty]
        simpa [hlibre] using hcond
    · next hnombres =>
      refine ⟨rfl, h, fun a ha => ?_⟩
      obtain ⟨f', hf', hclave, _⟩ := linea_eq_some ha
      obtain rfl := Option.some.inj (hf.symm.trans hf')
      obtain ⟨_, hfile, htag, _⟩ := claveDe_eq_some hclave
      exact absurd htag (hnombres _ _ hfile)

/-- The implicit FLUSH leaves every page in Storage. -/
theorem flushTodos_simula (hfiel : StorageFiel srv ram paginas contenido)
    (h : Simula ram paginas contenido w plano) :
    (flushTodosFiletagsModificados ram srv w).2 = true ∧
      Simula ram paginas contenido (flushTodosFiletagsModificados ram srv w).1 plano ∧
      ∀ k, Valida paginas k →
        contenido (flushTodosFiletagsModificados ram srv w).1.storage k = paginaDe ram plano k := by
  obtain ⟨hend, hsim, _, hlimpia⟩ := untilFalse_complete
    (I := fun w' => Simula ram paginas contenido w' plano)
    (Q := fun (i : ℕ) w' => Limpia ram w'.memoria i)
    (List.range w.memoria.frames.length)
    (fun w' i _ hw' => flushSiModificado_simula hfiel hw' i)
    (fun w' x _ y _ hy => (flushSiModificado_soloLimpia ram srv w' x).limpia hy) h
  refine ⟨hend, hsim, fun k hk => hsim.representa.store_eq (fun i a ha => ?_) hk⟩
  obtain ⟨f, hf, _⟩ := linea_eq_some ha
  have hlt := (List.getElem?_eq_some_iff.mp hf).1
  rw [hsim.ordenada.marcos, ← h.ordenada.marcos] at hlt
  exact hlimpia i (List.mem_range.mpr hlt) a ha

end Flush

section Traer

theorem SoloUso.simula {m : Memoria} (hsolo : SoloUso w.memoria m)
    (h : Simula ram paginas contenido w plano) :
    Simula ram paginas contenido { w with memoria := m } plano where
  ordenada := hsolo.ordenada h.ordenada
  largo := h.largo
  representa := by
    rw [hsolo.linea_eq]
    exact h.representa

theorem linea_quitarNombres (ram : Ram) (m : Memoria) (i : ℕ) :
    linea ram (quitarNombres m i) = Function.update (linea ram m) i none := by
  unfold quitarNombres
  rw [linea_modificarMarco]
  congr 1
  cases m.frames[i]? with
  | none => rfl
  | some f =>
    rw [Option.bind_some]
    unfold lineaDe claveDe
    split_ifs <;> rfl

/-- Taking the names from a frame Storage is not behind forgets a page and no more. -/
theorem quitarNombres_simula (h : Simula ram paginas contenido w plano) {f : Marco}
    (hf : w.memoria.frames[i]? = some f) (hlimpio : f.dirty = false) :
    Simula ram paginas contenido { w with memoria := quitarNombres w.memoria i } plano ∧
      linea ram (quitarNombres w.memoria i) = Function.update (linea ram w.memoria) i none := by
  have hlinea := linea_quitarNombres ram w.memoria i
  refine ⟨⟨?_, h.largo, ?_⟩, hlinea⟩
  · refine h.ordenada.modificarMarco i ?_ (fun f' hf' hdirty => ?_) ?_
    · exact fun _ => rfl
    · obtain rfl := Option.some.inj (hf.symm.trans hf')
      exact absurd (hlimpio.symm.trans hdirty) (by simp)
    · exact fun _ hr => hr
  · rw [hlinea]
    refine h.representa.drop fun a ha => ?_
    obtain ⟨f', hf', _, hdirty, _⟩ := linea_eq_some ha
    obtain rfl := Option.some.inj (hf.symm.trans hf')
    exact hdirty ▸ hlimpio

/-- A frame for a new page: it holds none, and no page has come in. -/
theorem elegirMarco_simula (hfiel : StorageFiel srv ram paginas contenido)
    (hmarcos : 0 < ram.frames) (h : Simula ram paginas contenido w plano) :
    ∃ w' i, elegirMarco ram srv w = (w', some i) ∧ i < ram.frames ∧
      Simula ram paginas contenido w' plano ∧ linea ram w'.memoria i = none ∧
      ∀ j a', linea ram w'.memoria j = some a' →
        ∃ a, linea ram w.memoria j = some a ∧ a.key = a'.key := by
  unfold elegirMarco buscarMarcoLibre
  cases hlibre : w.memoria.frames.findIdx? Marco.libre with
  | some i =>
    obtain ⟨hlt, hi, _⟩ := List.findIdx?_eq_some_iff_getElem.mp hlibre
    refine ⟨w, i, rfl, h.ordenada.marcos ▸ hlt, h, ?_, fun j a' ha' => ⟨a', ha', rfl⟩⟩
    unfold linea lineaDe claveDe
    rw [List.getElem?_eq_getElem hlt, Option.bind_some, if_pos hi]
    rfl
  | none =>
    have hocupado : ∀ f ∈ w.memoria.frames, f.libre = false := List.findIdx?_eq_none_iff.mp hlibre
    obtain ⟨m, v, helegir, hsolo, hv⟩ := elegirAlgoritmo_spec h.ordenada hmarcos hocupado
    have hm := SoloUso.simula hsolo h
    have hp : ∀ f : Marco, (!f.libre && f.dirty) = true → f.dirty = true :=
      fun f hf => (Bool.and_eq_true_iff.mp hf).2
    obtain ⟨hend, hsim, hno⟩ := volcarSi_simula hfiel hp hm v
    have hlimpia := volcarSi_soloLimpia ram srv (fun f => !f.libre && f.dirty)
      { w with memoria := m } v
    simp only [helegir]
    unfold desalojar flushFrame
    cases hres : volcarSi ram srv (fun f => !f.libre && f.dirty) { w with memoria := m } v with
    | mk w₁ ok =>
      rw [hres] at hend hsim hno hlimpia
      obtain rfl : ok = true := hend
      obtain ⟨f, hf, _⟩ := hsim.ordenada.marco hv
      have hlimpio : f.dirty = false := by
        refine Bool.eq_false_iff.mpr fun hdirty => ?_
        obtain ⟨k, hk⟩ := Option.isSome_iff_exists.mp (hsim.ordenada.nombrado v f hf hdirty)
        have hnov := hno f hf
        rw [(claveDe_eq_some hk).1, hdirty] at hnov
        simp at hnov
      obtain ⟨hsim', hlinea⟩ := quitarNombres_simula hsim hf hlimpio
      refine ⟨_, v, rfl, hv, hsim', ?_, fun j a' ha' => ?_⟩
      · rw [hlinea]
        exact Function.update_self ..
      · rw [hlinea] at ha'
        rcases update_eq_some ha' with ⟨-, hnone⟩ | ⟨-, hold⟩
        · simp at hnone
        · obtain ⟨a, ha, hkey⟩ := hlimpia.clave hold
          rw [hsolo.linea_eq] at ha
          exact ⟨a, ha, hkey⟩

theorem ordenada_asignarMarco {m : Memoria} (h : Ordenada ram m) (reloj : Reloj) (i : ℕ)
    (file tag : String) (p : ℕ) : Ordenada ram (asignarMarco reloj m i file tag p) := by
  have hmod := h.modificarMarco i (g := asignado file tag p (reloj.ms m.lecturasReloj))
    (fun _ => rfl) (fun _ _ _ => rfl) fun _ _ => reloj.int64 _
  exact ⟨hmod.tamanio, hmod.marcos, hmod.bases, hmod.nombrado, hmod.reloj⟩

theorem linea_asignarMarco (ram : Ram) (reloj : Reloj) {m : Memoria} {f : Marco}
    (hf : m.frames[i]? = some f) (file tag : String) (p : ℕ) :
    linea ram (asignarMarco reloj m i file tag p) = Function.update (linea ram m) i
      (some ⟨((file, tag), p), slice m.direccionBase f.base ram.pageSize, false⟩) := by
  have hasignado : lineaDe ram m.direccionBase
      (asignado file tag p (reloj.ms m.lecturasReloj) f) =
      some ⟨((file, tag), p), slice m.direccionBase f.base ram.pageSize, false⟩ := rfl
  have hmod := linea_modificarMarco ram m i (asignado file tag p (reloj.ms m.lecturasReloj))
  rw [hf, Option.bind_some, hasignado] at hmod
  exact hmod

/-- A page no frame holds is loaded into a frame without a page. -/
theorem cargarPagina_simula (hfiel : StorageFiel srv ram paginas contenido)
    (h : Simula ram paginas contenido w plano) (hi : i < ram.frames)
    (hnone : linea ram w.memoria i = none) {p : ℕ} (hvalida : p < paginas (file, tag))
    (hun : ∀ j a, linea ram w.memoria j = some a → a.key ≠ ((file, tag), p)) :
    ∃ w', cargarPagina ram reloj srv w i file tag p = (w', some i) ∧
      Simula ram paginas contenido w' plano ∧
      ∃ a, linea ram w'.memoria i = some a ∧ a.key = ((file, tag), p) := by
  obtain ⟨st, hread, hst⟩ := hfiel.lectura w.storage file tag p hvalida
  have hlargo := hfiel.largo w.storage ((file, tag), p) hvalida
  have hbase := h.ordenada.baseDe_eq hi
  have hcabe := marco_cabe ram hi
  obtain ⟨f, hf, hfbase⟩ := h.ordenada.marco hi
  set b := contenido w.storage ((file, tag), p) with hb
  set area := overlay w.memoria.direccionBase (i * ram.pageSize) b with harea
  have hordenada := h.ordenada.copiar (i * ram.pageSize) b (by omega)
  have hcopia := linea_copiar_libre h.ordenada hi hnone (show b.length ≤ ram.pageSize by omega)
  have hlectura : lecturaPaginaStorage ram srv w file tag p (i * ram.pageSize) =
      (⟨{ w.memoria with direccionBase := area }, st⟩, true) := by
    unfold lecturaPaginaStorage
    rw [hread]
    simp [List.take_of_length_le, hlargo, harea]
  have hpagina : slice area f.base ram.pageSize = b := by
    have htam := h.ordenada.tamanio
    rw [hfbase]
    exact slice_overlay_self _ _ hlargo (by omega)
  have hlinea : linea ram
      (asignarMarco reloj { w.memoria with direccionBase := area } i file tag p) =
      Function.update (linea ram w.memoria) i (some ⟨((file, tag), p), b, false⟩) := by
    have hasignar := linea_asignarMarco ram reloj
      (m := { w.memoria with direccionBase := area }) hf file tag p
    rw [hcopia, hpagina] at hasignar
    exact hasignar
  refine ⟨⟨asignarMarco reloj { w.memoria with direccionBase := area } i file tag p, st⟩, ?_,
    ⟨?_, h.largo, ?_⟩, ⟨((file, tag), p), b, false⟩, ?_, rfl⟩
  · unfold cargarPagina
    rw [hbase, hlectura]
  · exact ordenada_asignarMarco hordenada reloj i file tag p
  · rw [hlinea]
    exact (h.representa.load hnone (k := ((file, tag), p)) hvalida hun).congr_store hst
  · rw [hlinea]
    exact Function.update_self ..

/-- traer_pagina finds or loads the page, in a frame that holds it. -/
theorem traerPagina_simula (reloj : Reloj) (hfiel : StorageFiel srv ram paginas contenido)
    (hmarcos : 0 < ram.frames) (h : Simula ram paginas contenido w plano) {p : ℕ}
    (hvalida : p < paginas (file, tag)) :
    ∃ w' i, traerPagina ram reloj srv w file tag p = (w', some i) ∧ i < ram.frames ∧
      Simula ram paginas contenido w' plano ∧
      ∃ a, linea ram w'.memoria i = some a ∧ a.key = ((file, tag), p) := by
  unfold traerPagina
  cases hbuscar : w.memoria.frames.findIdx? (frameMatchea file tag p) with
  | some i =>
    obtain ⟨hlt, hmatch, _⟩ := List.findIdx?_eq_some_iff_getElem.mp hbuscar
    have hclave := (frameMatchea_iff file tag p _).mp hmatch
    refine ⟨_, i, rfl, h.ordenada.marcos ▸ hlt, h.tocar reloj i, ?_⟩
    rw [linea_tocar]
    exact ⟨_, linea_of_claveDe ram (List.getElem?_eq_getElem hlt) hclave, rfl⟩
  | none =>
    obtain ⟨w₁, i, helegir, hi, hsim, hnone, hclaves⟩ := elegirMarco_simula hfiel hmarcos h
    have hun : ∀ j a, linea ram w₁.memoria j = some a → a.key ≠ ((file, tag), p) := by
      intro j a' ha' hkey
      obtain ⟨a, ha, hkey'⟩ := hclaves j a' ha'
      obtain ⟨f, hf, hclave, _⟩ := linea_eq_some ha
      have hmatch := (frameMatchea_iff file tag p f).mpr (by rw [hclave, hkey', hkey])
      have hno := List.findIdx?_eq_none_iff.mp hbuscar f (List.mem_of_getElem? hf)
      exact absurd (hno.symm.trans hmatch) (by simp)
    obtain ⟨w₂, hcargar, hsim₂, ha⟩ := cargarPagina_simula hfiel hsim hi hnone hvalida hun
    exact ⟨w₂, i, by rw [helegir]; exact hcargar, hi, hsim₂, ha⟩

end Traer

end MasterOfFiles.PagingSimulation
