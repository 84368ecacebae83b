import MasterOfFiles.FrameInvariants

/-!
What the two flushes send to Storage. The requests are kept in a register beside the
state of Storage, which changes nothing of what the Worker does. A frame is marked
clean only behind a request with its bytes that was acknowledged, and a flush that
returns 0 has left no dirty frame it should have sent.
-/
namespace MasterOfFiles.FlushCompleteness

open ByteBuffers PartialRuns WorkerMemory FrameTables PagingSimulation StalePages
open FrameInvariants

variable {σ : Type*} {ram : Ram} {reloj : Reloj} {srv : Servidor σ} {m : Memoria}
  {file tag : String} {i : ℕ}

section Registro

/-- A write request, and whether OP_RESP_OK answered it. -/
structure Envio where
  file : String
  tag : String
  pagina : ℕ
  bytes : Bytes
  acuse : Bool
  deriving DecidableEq

/-- The same Storage with a register of the write requests it gets. -/
def registrado (srv : Servidor σ) : Servidor (σ × List Envio) where
  readBlock := fun st nombre p =>
    let r := srv.readBlock st.1 nombre p
    ((r.1, st.2), r.2)
  writeBlock := fun st file tag p bytes =>
    let r := srv.writeBlock st.1 file tag p bytes
    ((r.1, st.2 ++ [⟨file, tag, p, bytes, r.2⟩]), r.2)
  create := fun st nombre =>
    let r := srv.create st.1 nombre
    ((r.1, st.2), r.2)
  truncate := fun st nombre tamanio =>
    let r := srv.truncate st.1 nombre tamanio
    ((r.1, st.2), r.2)
  tag := fun st origen destino =>
    let r := srv.tag st.1 origen destino
    ((r.1, st.2), r.2)
  commit := fun st nombre =>
    let r := srv.commit st.1 nombre
    ((r.1, st.2), r.2)
  flush := fun st file tag =>
    let r := srv.flush st.1 file tag
    ((r.1, st.2), r.2)
  delete := fun st file tag =>
    let r := srv.delete st.1 file tag
    ((r.1, st.2), r.2)

def conRegistro (w : Worker σ) : Worker (σ × List Envio) := ⟨w.memoria, (w.storage, [])⟩

def sinRegistro (w : Worker (σ × List Envio)) : Worker σ := ⟨w.memoria, w.storage.1⟩

variable {w : Worker (σ × List Envio)}

theorem writeBlock_registrado (st : σ × List Envio) (p : ℕ) (bytes : Bytes) :
    (registrado srv).writeBlock st file tag p bytes =
      (((srv.writeBlock st.1 file tag p bytes).1,
        st.2 ++ [⟨file, tag, p, bytes, (srv.writeBlock st.1 file tag p bytes).2⟩]),
        (srv.writeBlock st.1 file tag p bytes).2) := rfl

theorem volcarMarco_sinRegistro (w : Worker (σ × List Envio)) (i : ℕ) (f : Marco) :
    volcarMarco ram srv (sinRegistro w) i f =
      (sinRegistro (volcarMarco ram (registrado srv) w i f).1,
        (volcarMarco ram (registrado srv) w i f).2) := by
  unfold volcarMarco
  cases f.file with
  | none => rfl
  | some file =>
    cases f.tag with
    | none => rfl
    | some tag =>
      cases hres : srv.writeBlock w.storage.1 file tag f.pagina
          (slice w.memoria.direccionBase f.base ram.pageSize) with
      | mk st ok =>
        have hsin : escribirPaginaStorage srv (sinRegistro w) file tag f.pagina
            (slice w.memoria.direccionBase f.base ram.pageSize) =
              (⟨w.memoria, st⟩, ok) := by
          unfold escribirPaginaStorage sinRegistro
          rw [hres]
        have hcon : escribirPaginaStorage (registrado srv) w file tag f.pagina
            (slice w.memoria.direccionBase f.base ram.pageSize) =
              (⟨w.memoria, (st, w.storage.2 ++ [⟨file, tag, f.pagina,
                slice w.memoria.direccionBase f.base ram.pageSize, ok⟩])⟩, ok) := by
          unfold escribirPaginaStorage
          rw [writeBlock_registrado, hres]
        have hmemoria : (sinRegistro w).memoria = w.memoria := rfl
        simp only [hmemoria, hsin, hcon]
        cases ok <;> rfl

theorem volcarSi_sinRegistro (p : Marco → Bool) (w : Worker (σ × List Envio)) (i : ℕ) :
    volcarSi ram srv p (sinRegistro w) i =
      (sinRegistro (volcarSi ram (registrado srv) p w i).1,
        (volcarSi ram (registrado srv) p w i).2) := by
  have hmarco : (sinRegistro w).memoria.frames[i]? = w.memoria.frames[i]? := rfl
  unfold volcarSi
  rw [hmarco]
  cases w.memoria.frames[i]? with
  | none => rfl
  | some f =>
    dsimp only
    split_ifs
    · exact volcarMarco_sinRegistro w i f
    · rfl

/-- The register changes nothing of a flush. -/
theorem flushFiletag_sinRegistro (w : Worker (σ × List Envio)) (file tag : String) :
    flushFiletag ram srv (sinRegistro w) file tag =
      (sinRegistro (flushFiletag ram (registrado srv) w file tag).1,
        (flushFiletag ram (registrado srv) w file tag).2) :=
  untilFalse_project sinRegistro (fun w i => volcarSi_sinRegistro _ w i) w _

theorem flushSiModificado_sinRegistro (w : Worker (σ × List Envio)) (i : ℕ) :
    flushSiModificado ram srv (sinRegistro w) i =
      (sinRegistro (flushSiModificado ram (registrado srv) w i).1,
        (flushSiModificado ram (registrado srv) w i).2) := by
  have hmarco : (sinRegistro w).memoria.frames[i]? = w.memoria.frames[i]? := rfl
  unfold flushSiModificado
  rw [hmarco]
  cases w.memoria.frames[i]? with
  | none => rfl
  | some f =>
    dsimp only
    cases f.file with
    | none => rfl
    | some file =>
      cases f.tag with
      | none => rfl
      | some tag =>
        dsimp only
        split_ifs
        · exact flushFiletag_sinRegistro w file tag
        · rfl

theorem flushTodos_sinRegistro (w : Worker (σ × List Envio)) :
    flushTodosFiletagsModificados ram srv (sinRegistro w) =
      (sinRegistro (flushTodosFiletagsModificados ram (registrado srv) w).1,
        (flushTodosFiletagsModificados ram (registrado srv) w).2) :=
  untilFalse_project sinRegistro flushSiModificado_sinRegistro w _

end Registro

section Volcado

/-- The request sends the frame's page with these bytes. -/
structure EsEnvio (e : Envio) (f : Marco) (bytes : Bytes) : Prop where
  file : f.file = some e.file
  tag : f.tag = some e.tag
  pagina : e.pagina = f.pagina
  bytes : e.bytes = bytes

/-- A request with the frame's bytes was acknowledged. -/
def Acusado (ram : Ram) (m : Memoria) (envios : List Envio) (f : Marco) : Prop :=
  ∃ e ∈ envios, e.acuse = true ∧ EsEnvio e f (slice m.direccionBase f.base ram.pageSize)

/-- From the table `m` on, the only change are frames of `de` marked clean behind an
acknowledged request. -/
structure Volcado (ram : Ram) (de : Marco → Bool) (m : Memoria) (w : Worker (σ × List Envio)) :
    Prop where
  area : w.memoria.direccionBase = m.direccionBase
  cantidad : w.memoria.frames.length = m.frames.length
  marcos : ∀ (i : ℕ) (f : Marco), m.frames[i]? = some f → w.memoria.frames[i]? = some f ∨
    w.memoria.frames[i]? = some (limpio f) ∧ de f = true ∧ Acusado ram m w.storage.2 f

variable {w : Worker (σ × List Envio)} {de p : Marco → Bool}

theorem volcado_conRegistro (ram : Ram) (de : Marco → Bool) (w : Worker σ) :
    Volcado ram de w.memoria (conRegistro w) :=
  ⟨rfl, rfl, fun _ _ hf => Or.inl hf⟩

/-- A frame that is sent is sent with the bytes it had at the start. -/
theorem Volcado.volcarSi (h : Volcado ram de m w) (hp : ∀ f, p f = true → f.dirty = true)
    (hde : ∀ f, p f = true → de f = true) (srv : Servidor σ) (i : ℕ) :
    Volcado ram de m (volcarSi ram (registrado srv) p w i).1 := by
  unfold WorkerMemory.volcarSi
  cases hf : w.memoria.frames[i]? with
  | none => exact h
  | some f =>
    dsimp only
    split_ifs with hpf
    · unfold volcarMarco escribirPaginaStorage
      cases hfile : f.file with
      | none => exact h
      | some file =>
        cases htag : f.tag with
        | none => exact h
        | some tag =>
          simp only [registrado]
          have hmas : ∀ (e : Envio) (f : Marco), Acusado ram m w.storage.2 f →
              Acusado ram m (w.storage.2 ++ [e]) f := by
            rintro e f ⟨e', he', hacuse⟩
            exact ⟨e', List.mem_append_left _ he', hacuse⟩
          cases hres : srv.writeBlock w.storage.1 file tag f.pagina
              (slice w.memoria.direccionBase f.base ram.pageSize) with
          | mk st ok =>
            cases ok with
            | false =>
              refine ⟨h.area, h.cantidad, fun j g hg => ?_⟩
              rcases h.marcos j g hg with heq | ⟨heq, hdeg, hacuse⟩
              · exact Or.inl heq
              · exact Or.inr ⟨heq, hdeg, hmas _ g hacuse⟩
            | true =>
              refine ⟨h.area, (List.length_modify ..).trans h.cantidad, fun j g hg => ?_⟩
              change (modificarMarco w.memoria i limpio).frames[j]? = some g ∨
                (modificarMarco w.memoria i limpio).frames[j]? = some (limpio g) ∧ _
              rw [frames_modificarMarco]
              split_ifs with hj
              · subst hj
                have hfg : f = g := by
                  rcases h.marcos j g hg with heq | ⟨heq, _⟩
                  · exact Option.some.inj (hf.symm.trans heq)
                  · obtain rfl := Option.some.inj (hf.symm.trans heq)
                    exact absurd (hp _ hpf) (by simp [limpio])
                subst hfg
                rw [hf, Option.map_some]
                refine Or.inr ⟨rfl, hde f hpf, _, List.mem_append_right _
                  (List.mem_singleton_self _), rfl, hfile, htag, rfl, ?_⟩
                rw [h.area]
              · rcases h.marcos j g hg with heq | ⟨heq, hdeg, hacuse⟩
                · exact Or.inl heq
                · exact Or.inr ⟨heq, hdeg, hmas _ g hacuse⟩
    · exact h

theorem Volcado.flushFiletag (h : Volcado ram de m w)
    (hde : ∀ f, esDe file tag f = true → de f = true) (srv : Servidor σ) :
    Volcado ram de m (flushFiletag ram (registrado srv) w file tag).1 := by
  refine untilFalse_invariant (fun w' i _ hw' => hw'.volcarSi ?_ ?_ srv i) h
  · exact fun f hf => (Bool.and_eq_true_iff.mp hf).2
  · intro f hf
    apply hde
    simp only [Bool.and_eq_true] at hf
    unfold esDe
    rw [hf.1.1.2, hf.1.2]
    rfl

theorem Volcado.flushSiModificado (h : Volcado ram (fun _ => true) m w) (srv : Servidor σ)
    (i : ℕ) : Volcado ram (fun _ => true) m
      (flushSiModificado ram (registrado srv) w i).1 := by
  unfold WorkerMemory.flushSiModificado
  split
  · exact h
  · split
    · split_ifs
      · exact h.flushFiletag (fun _ _ => rfl) srv
      · exact h
    · exact h

theorem Volcado.flushTodos (h : Volcado ram (fun _ => true) m w) (srv : Servidor σ) :
    Volcado ram (fun _ => true) m (flushTodosFiletagsModificados ram (registrado srv) w).1 :=
  untilFalse_invariant (fun _ i _ hw' => hw'.flushSiModificado srv i) h

end Volcado

section Completo

variable {w : Worker (σ × List Envio)} {p : Marco → Bool}

/-- A frame that meets the condition is clean when its turn ends well. -/
theorem no_cumple_of_volcarSi (hp : ∀ f, p f = true → f.dirty = true) {srv : Servidor σ}
    {w : Worker σ} (hok : (volcarSi ram srv p w i).2 = true) {f : Marco}
    (hf : (volcarSi ram srv p w i).1.memoria.frames[i]? = some f) : p f = false := by
  rw [Bool.eq_false_iff]
  intro hpf
  rcases volcarSi_memoria ram srv p w i with heq | heq
  · rw [heq] at hf
    unfold volcarSi at hok heq
    rw [hf] at hok heq
    simp only [hpf, if_true] at hok heq
    unfold volcarMarco at hok heq
    split at hok
    · next file tag hfile htag =>
      simp only [hfile, htag] at heq
      split at hok
      · next w' hw' =>
        simp only [hw', limpiarMarco] at heq
        have hmarco := congrArg (fun m : Memoria => m.frames[i]?) heq
        unfold escribirPaginaStorage at hw'
        have hmemoria : w'.memoria = w.memoria := by
          rw [← (Prod.mk.inj hw').1]
        simp only [hmemoria] at hmarco
        rw [frames_modificarMarco, if_pos rfl, hf, Option.map_some] at hmarco
        have hdirty := hp f hpf
        rw [← Option.some.inj hmarco] at hdirty
        simp [limpio] at hdirty
      · simp at hok
    · simp at hok
  · rw [heq, frames_modificarMarco, if_pos rfl] at hf
    obtain ⟨f', _, rfl⟩ := Option.map_eq_some_iff.mp hf
    exact absurd (hp _ hpf) (by simp [limpio])

/-- Once clean, a frame stays clean while others are sent. -/
theorem no_cumple_of_soloLimpia {m m' : Memoria} (hp : ∀ f, p f = true → f.dirty = true)
    (h : SoloLimpia m m') (hi : ∀ f, m.frames[i]? = some f → p f = false) {f : Marco}
    (hf : m'.frames[i]? = some f) : p f = false := by
  rcases h.marcos i with heq | heq
  · exact hi f (heq.symm.trans hf)
  · obtain ⟨f', _, rfl⟩ := Option.map_eq_some_iff.mp (heq.symm.trans hf)
    rw [Bool.eq_false_iff]
    exact fun hpf => absurd (hp _ hpf) (by simp [limpio])

/-- A flush of a File:Tag that returns 0 leaves none of its frames dirty. -/
theorem limpio_of_flushFiletag {srv : Servidor σ} {w : Worker σ} (h : Ordenada ram w.memoria)
    (hok : (flushFiletag ram srv w file tag).2 = true) {f : Marco}
    (hf : (flushFiletag ram srv w file tag).1.memoria.frames[i]? = some f)
    (hde : esDe file tag f = true) : f.dirty = false := by
  have hp : ∀ f : Marco, (!f.libre && f.file == some file && f.tag == some tag && f.dirty) = true →
      f.dirty = true := fun f hf => (Bool.and_eq_true_iff.mp hf).2
  have hsolo := flushFiletag_soloLimpia ram srv w file tag
  have hlimpios := (untilFalse_of_true (I := fun _ => True)
    (Q := fun (i : ℕ) (w' : Worker σ) => ∀ f, w'.memoria.frames[i]? = some f →
      (!f.libre && f.file == some file && f.tag == some tag && f.dirty) = false)
    (fun w' i _ _ => ⟨trivial, fun hok f hf => no_cumple_of_volcarSi hp hok hf⟩)
    (fun w' i _ j _ hj f hf => no_cumple_of_soloLimpia hp (volcarSi_soloLimpia ram srv _ w' i)
      hj hf) trivial hok).2
  have hlt : i < w.memoria.frames.length := hsolo.cantidad ▸ (List.getElem?_eq_some_iff.mp hf).1
  have hno := hlimpios i (List.mem_range.mpr hlt) f hf
  rw [Bool.eq_false_iff]
  intro hdirty
  obtain ⟨k, hk⟩ := Option.isSome_iff_exists.mp
    ((ordenada_soloLimpia hsolo h).nombrado i f hf hdirty)
  obtain ⟨hlibre, _⟩ := claveDe_eq_some hk
  unfold esDe at hde
  rw [Bool.and_assoc (!f.libre), hde, hlibre, hdirty] at hno
  simp at hno

/-- So is the frame at hand in the loop over all of them. -/
theorem limpio_of_flushSiModificado {srv : Servidor σ} {w : Worker σ}
    (h : Ordenada ram w.memoria) (hok : (flushSiModificado ram srv w i).2 = true) {f : Marco}
    (hf : (flushSiModificado ram srv w i).1.memoria.frames[i]? = some f) : f.dirty = false := by
  unfold flushSiModificado at hok hf
  cases hviejo : w.memoria.frames[i]? with
  | none =>
    simp only [hviejo] at hf
    exact absurd hf (by simp)
  | some f₀ =>
    have hnombres : f₀.dirty = true → ∃ file tag, f₀.libre = false ∧ f₀.file = some file ∧
        f₀.tag = some tag := by
      intro hdirty
      obtain ⟨k, hk⟩ := Option.isSome_iff_exists.mp (h.nombrado i f₀ hviejo hdirty)
      obtain ⟨hlibre, hfile, htag, _⟩ := claveDe_eq_some hk
      exact ⟨k.1.1, k.1.2, hlibre, hfile, htag⟩
    simp only [hviejo] at hok hf
    split at hok
    · next file tag hfile htag =>
      simp only [hfile, htag] at hf
      by_cases hcond : (!f₀.libre && f₀.dirty) = true
      · rw [if_pos hcond] at hok hf
        refine limpio_of_flushFiletag h hok hf ?_
        have hde : esDe file tag f₀ = true := by
          unfold esDe
          rw [hfile, htag]
          simp
        rcases (flushFiletag_soloLimpia ram srv w file tag).marcos i with heq | heq
        · obtain rfl := Option.some.inj (hviejo.symm.trans (heq.symm.trans hf))
          exact hde
        · rw [hviejo, Option.map_some] at heq
          obtain rfl := Option.some.inj (hf.symm.trans heq)
          exact hde
      · rw [if_neg hcond] at hf
        obtain rfl := Option.some.inj (hviejo.symm.trans hf)
        rw [Bool.eq_false_iff]
        intro hdirty
        obtain ⟨_, _, hlibre, _⟩ := hnombres hdirty
        simp [hlibre, hdirty] at hcond
    · next hno =>
      rw [Bool.eq_false_iff]
      intro hdirty
      have hf' : w.memoria.frames[i]? = some f := by
        split at hf
        · next file tag hfile htag => exact absurd htag (hno file tag hfile)
        · exact hf
      obtain rfl := Option.some.inj (hviejo.symm.trans hf')
      obtain ⟨file, tag, _, hfile, htag⟩ := hnombres hdirty
      exact hno file tag hfile htag

theorem limpio_of_flushTodos {srv : Servidor σ} {w : Worker σ} (h : Ordenada ram w.memoria)
    (hok : (flushTodosFiletagsModificados ram srv w).2 = true) {f : Marco}
    (hf : (flushTodosFiletagsModificados ram srv w).1.memoria.frames[i]? = some f) :
    f.dirty = false := by
  have hsolo := flushTodos_soloLimpia ram srv w
  have hlimpios := (untilFalse_of_true
    (I := fun w' : Worker σ => Ordenada ram w'.memoria)
    (Q := fun (i : ℕ) (w' : Worker σ) => ∀ f, w'.memoria.frames[i]? = some f → f.dirty = false)
    (fun w' i _ hw' =>
      ⟨ordenada_soloLimpia (flushSiModificado_soloLimpia ram srv w' i) hw',
        fun hok f hf => limpio_of_flushSiModificado hw' hok hf⟩)
    (fun w' i _ j _ hj f hf => no_cumple_of_soloLimpia (p := Marco.dirty) (fun _ hd => hd)
      (flushSiModificado_soloLimpia ram srv w' i) hj hf) h hok).2
  have hlt : i < w.memoria.frames.length := hsolo.cantidad ▸ (List.getElem?_eq_some_iff.mp hf).1
  exact hlimpios i (List.mem_range.mpr hlt) f hf

end Completo

section Flushes

/-- What a flush of the frames of `de` owes, from the table `m` on; `r` is the flush with
its register, `real` the flush itself. -/
structure FlushCorrecto (ram : Ram) (de : Marco → Bool) (m : Memoria)
    (real : Worker σ × Bool) (r : Worker (σ × List Envio) × Bool) : Prop where
  mismo : real = (sinRegistro r.1, r.2)
  ninguno : r.2 = true → ∀ f ∈ r.1.memoria.frames, de f = true → f.dirty = false
  enviados : r.2 = true → ∀ f ∈ m.frames, de f = true → f.dirty = true →
    ∃ e ∈ r.1.storage.2, EsEnvio e f (slice m.direccionBase f.base ram.pageSize)
  limpiados : ∀ (i : ℕ) (f : Marco), m.frames[i]? = some f →
    r.1.memoria.frames[i]? = some f ∨ r.1.memoria.frames[i]? = some (limpio f) ∧
      de f = true ∧ Acusado ram m r.1.storage.2 f
  area : r.1.memoria.direccionBase = m.direccionBase
  cantidad : r.1.memoria.frames.length = m.frames.length

/-- What is left to show of a flush: that 0 means that no frame is dirty. -/
theorem flushCorrecto_of_volcado {de : Marco → Bool} {real : Worker σ × Bool}
    {r : Worker (σ × List Envio) × Bool} (hmismo : real = (sinRegistro r.1, r.2))
    (h : Volcado ram de m r.1)
    (hninguno : r.2 = true → ∀ (i : ℕ) f, r.1.memoria.frames[i]? = some f → de f = true →
      f.dirty = false) : FlushCorrecto ram de m real r where
  mismo := hmismo
  ninguno := by
    intro hok f hf hde
    obtain ⟨i, hi⟩ := List.mem_iff_getElem?.mp hf
    exact hninguno hok i f hi hde
  enviados := by
    intro hok f hf hde hdirty
    obtain ⟨i, hi⟩ := List.mem_iff_getElem?.mp hf
    rcases h.marcos i f hi with heq | ⟨_, _, e, he, _, henvio⟩
    · exact absurd (hninguno hok i f heq hde) (by simp [hdirty])
    · exact ⟨e, he, henvio⟩
  limpiados := h.marcos
  area := h.area
  cantidad := h.cantidad

/-- Both flushes do what they owe. -/
def FlushesCorrectos (ram : Ram) (srv : Servidor σ) (w : Worker σ) : Prop :=
  (∀ file tag, FlushCorrecto ram (esDe file tag) w.memoria (flushFiletag ram srv w file tag)
      (flushFiletag ram (registrado srv) (conRegistro w) file tag)) ∧
    FlushCorrecto ram (fun _ => true) w.memoria (flushTodosFiletagsModificados ram srv w)
      (flushTodosFiletagsModificados ram (registrado srv) (conRegistro w))

theorem flushesCorrectos_of_ordenada {w : Worker σ} (h : Ordenada ram w.memoria)
    (srv : Servidor σ) : FlushesCorrectos ram srv w := by
  have hordenada : Ordenada ram (conRegistro w).memoria := h
  constructor
  · intro file tag
    refine flushCorrecto_of_volcado (flushFiletag_sinRegistro (conRegistro w) file tag) ?_ ?_
    · exact (volcado_conRegistro ram _ w).flushFiletag (fun _ h => h) srv
    · exact fun hok i f hf hde => limpio_of_flushFiletag hordenada hok hf hde
  · refine flushCorrecto_of_volcado (flushTodos_sinRegistro (conRegistro w)) ?_ ?_
    · exact (volcado_conRegistro ram _ w).flushTodos srv
    · exact fun hok i f hf _ => limpio_of_flushTodos hordenada hok hf

/-- After any run of operations, whatever Storage answers, a flush is complete and loses
no dirty page. -/
theorem flushesCorrectos_operarTodas (ram : Ram) (reloj : Reloj) (srv : Servidor σ) (st : σ)
    (ops : List (Operacion σ)) :
    FlushesCorrectos ram srv (operarTodas ram reloj srv st ops).worker :=
  flushesCorrectos_of_ordenada (tablaSana_operarTodas ram reloj srv st ops).ordenada srv

end Flushes

end MasterOfFiles.FlushCompleteness
