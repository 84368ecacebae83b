import MasterOfFiles.AccessBounds
import MasterOfFiles.FailedFetches
import MasterOfFiles.ServerMorphisms

/-!
A write that fails half way. Where Storage keeps the pages that are sent back to it, a
fetch changes no page of its File:Tag, whatever it evicts, but one: a page in a frame that
is not dirty is forgotten, and is then the one Storage has. What else has changed when a
write fails is what the rounds before the failure have put. Whether Storage keeps a page is
read off each exchange of the access: the one of this repository writes into blocks that
pages may share.
-/
namespace MasterOfFiles.FailedWrites

open ByteBuffers KeyedLists WriteBackCaches WorkerMemory FrameTables ReplacementPolicies
open PagingSimulation TransparentPaging FrameInvariants ServerMorphisms
open PartialRuns StorageFiles StorageOperations ReachableStates
open AccessBounds (Conserva conBloques servidorStorage leerBloque storage_accederMarco)

variable {σ : Type*} {ram : Ram} {reloj : Reloj} {srv : Servidor σ}
  {contenido : σ → Clave → Bytes} {bien : σ → Prop} {ft : String × String} {guardado : ℕ → Bytes}
  {limpias limpias' limpias'' : ℕ → Bool} {w w' : Worker σ} {flat flat' flat'' : Clave → Bytes}
  {file tag : String} {i p : ℕ}

/-- Any exchange may fail. A read changes nothing, and a page that arrives whole is the one
Storage has. `contenido` is what Storage has. -/
structure StorageConFallas (srv : Servidor σ) (ram : Ram) (contenido : σ → Clave → Bytes) :
    Prop where
  largo : ∀ st k, (contenido st k).length = ram.pageSize
  lectura : ∀ st nombre p, contenido (srv.readBlock st nombre p).1 = contenido st
  leida : ∀ st f t p b, ':' ∉ f.toList → p < 2 ^ 32 →
    (srv.readBlock st (f ++ ":" ++ t) p).2 = some b →
    ram.pageSize ≤ b.length → b.take ram.pageSize = contenido st ((f, t), p)

/-- The exchange that sent the page `k` leaves the File:Tag with it and its other pages as
they were, or, when it fails, perhaps with none changed. -/
def Guarda (contenido : σ → Clave → Bytes) (ft : String × String) (st : σ) (k : Clave)
    (b : Bytes) (r : σ × Bool) : Prop :=
  (∀ p, contenido r.1 (ft, p) = Function.update (contenido st) k b (ft, p)) ∨
    r.2 = false ∧ ∀ p, contenido r.1 (ft, p) = contenido st (ft, p)

/-- Storage has kept every page sent so far. -/
structure Atiende (srv : Servidor σ) (contenido : σ → Clave → Bytes) (ft : String × String)
    (bien : σ → Prop) : Prop where
  lectura : ∀ st nombre p, bien (srv.readBlock st nombre p).1 → bien st
  escritura : ∀ st f t p b, bien (srv.writeBlock st f t p b).1 →
    bien st ∧ Guarda contenido ft st ((f, t), p) b (srv.writeBlock st f t p b)

/-- What has gone wrong stays so. -/
theorem Atiende.conserva (hat : Atiende srv contenido ft bien) :
    Conserva srv fun st => ¬ bien st where
  lectura := fun st nombre p hno hbien => hno (hat.lectura st nombre p hbien)
  escritura := fun st f t p b hno hbien => hno (hat.escritura st f t p b hbien).1

section Paginas

/-- A page as a read would see it: the cached page if a frame holds it, otherwise the
page in Storage. -/
def paginaVisible (ram : Ram) (contenido : σ → Clave → Bytes) (w : Worker σ) (k : Clave) :
    Bytes :=
  match w.memoria.frames.find? (frameMatchea k.1.1 k.1.2 k.2) with
  | some f => slice w.memoria.direccionBase f.base ram.pageSize
  | none => contenido w.storage k

/-- A frame that is not dirty holds the page. -/
def enMarcoLimpio (m : Memoria) (ft : String × String) (p : ℕ) : Bool :=
  m.frames.any fun f => frameMatchea ft.1 ft.2 p f && !f.dirty

/-- The lines that hold a page of the File:Tag. -/
def lineaEn (ram : Ram) (ft : String × String) (m : Memoria) (i : ℕ) :
    Option (Line Clave Bytes) :=
  (linea ram m i).filter fun a => decide (a.key.1 = ft)

/-- Storage as if it had the clean pages the way memory has them. -/
def fingida (store : Clave → Bytes) (limpias : ℕ → Bool) (flat : Clave → Bytes) (k : Clave) :
    Bytes :=
  if limpias k.2 then flat k else store k

/-- Memory and Storage together show the pages `flat` of the File:Tag. The pages in
`limpias` are in frames that are not dirty, and Storage has `guardado` for them. -/
structure Muestra (ram : Ram) (contenido : σ → Clave → Bytes) (ft : String × String)
    (guardado : ℕ → Bytes) (limpias : ℕ → Bool) (w : Worker σ) (flat : Clave → Bytes) : Prop where
  ordenada : Ordenada ram w.memoria
  largo : ∀ k, (flat k).length = ram.pageSize
  representa : Represents (fun k => k.1 = ft) (lineaEn ram ft w.memoria)
    (fingida (contenido w.storage) limpias flat) flat
  enMarco : ∀ p, limpias p = true → contenido w.storage (ft, p) = guardado p ∧
    ∃ i a, linea ram w.memoria i = some a ∧ a.key = (ft, p) ∧ a.dirty = false

theorem lineaEn_eq_some {m : Memoria} {a : Line Clave Bytes} :
    lineaEn ram ft m i = some a ↔ linea ram m i = some a ∧ a.key.1 = ft := by
  unfold lineaEn
  rw [Option.filter_eq_some_iff, decide_eq_true_iff]

theorem lineaEn_update {m m' : Memoria} {x : Option (Line Clave Bytes)}
    (h : linea ram m' = Function.update (linea ram m) i x) :
    lineaEn ram ft m' = Function.update (lineaEn ram ft m) i
      (x.filter fun a => decide (a.key.1 = ft)) := by
  funext j
  unfold lineaEn
  rw [h]
  rcases eq_or_ne j i with rfl | hne
  · rw [Function.update_self, Function.update_self]
  · rw [Function.update_of_ne hne, Function.update_of_ne hne]

theorem lineaEn_congr {m m' : Memoria} (h : linea ram m' = linea ram m) :
    lineaEn ram ft m' = lineaEn ram ft m := by
  funext j
  unfold lineaEn
  rw [h]

theorem fingida_of_false {store : Clave → Bytes} {k : Clave} (h : limpias k.2 = false) :
    fingida store limpias flat k = store k := by
  unfold fingida
  rw [h]
  exact if_neg Bool.false_ne_true

theorem fingida_congr {store store' : Clave → Bytes} {k : Clave} (h : store' k = store k) :
    fingida store' limpias flat k = fingida store limpias flat k := by
  unfold fingida
  rw [h]

/-- What `Muestra` says a page is, is what a read would see. -/
theorem Muestra.visible (h : Muestra ram contenido ft guardado limpias w flat) (p : ℕ) :
    paginaVisible ram contenido w (ft, p) = flat (ft, p) := by
  unfold paginaVisible
  split
  · next f hf =>
    have hclave := (frameMatchea_iff _ _ _ _).mp (List.find?_some hf)
    obtain ⟨i, hi⟩ := List.mem_iff_getElem?.mp (List.mem_of_find?_eq_some hf)
    have hlinea := linea_of_claveDe ram hi hclave
    exact h.representa.agrees i _ (lineaEn_eq_some.mpr ⟨hlinea, rfl⟩)
  · next hnone =>
    have hun : ∀ i a, linea ram w.memoria i = some a → a.key ≠ (ft, p) := by
      intro i a ha hkey
      obtain ⟨f, hf, hclave, _⟩ := linea_eq_some ha
      have hmatch := (frameMatchea_iff ft.1 ft.2 p f).mpr (by rw [hclave, hkey])
      exact List.find?_eq_none.mp hnone f (List.mem_of_getElem? hf) hmatch
    have hfalse : limpias p = false := by
      refine Bool.eq_false_iff.mpr fun htrue => ?_
      obtain ⟨_, i, a, ha, hkey, _⟩ := h.enMarco p htrue
      exact hun i a ha hkey
    have hstore := h.representa.store_of_uncached (k := (ft, p)) rfl fun i a ha =>
      hun i a (lineaEn_eq_some.mp ha).1
    rwa [fingida_of_false hfalse] at hstore

theorem clave_of_linea {m : Memoria} {a : Line Clave Bytes} (h : linea ram m i = some a) :
    clave m i = some a.key := by
  obtain ⟨f, hf, hk, _⟩ := linea_eq_some h
  unfold clave
  rw [hf, Option.bind_some, hk]

/-- The page of a line is the one seen. -/
theorem paginaVisible_of_linea (contenido : σ → Clave → Bytes) (h : TablaSana ram w.memoria)
    {a : Line Clave Bytes} (ha : linea ram w.memoria i = some a) :
    paginaVisible ram contenido w a.key = a.value := by
  obtain ⟨f, hf, hk, _, hvalor⟩ := linea_eq_some ha
  unfold paginaVisible
  split
  · next g hg =>
    obtain ⟨j, hj⟩ := List.mem_iff_getElem?.mp (List.mem_of_find?_eq_some hg)
    have hk' := (frameMatchea_iff _ _ _ _).mp (List.find?_some hg)
    have hclave := clave_of_linea (linea_of_claveDe ram hj hk')
    obtain rfl := h.unica i j a.key (clave_of_linea ha) hclave
    obtain rfl := Option.some.inj (hf.symm.trans hj)
    exact hvalor
  · next hnone =>
    have hmatch := (frameMatchea_iff a.key.1.1 a.key.1.2 a.key.2 f).mpr hk
    exact absurd hmatch (List.find?_eq_none.mp hnone f (List.mem_of_getElem? hf))

theorem length_paginaVisible (hlaw : StorageConFallas srv ram contenido)
    (h : Ordenada ram w.memoria) (k : Clave) :
    (paginaVisible ram contenido w k).length = ram.pageSize := by
  unfold paginaVisible
  split
  · next f hf =>
    obtain ⟨i, hi⟩ := List.mem_iff_getElem?.mp (List.mem_of_find?_eq_some hf)
    exact h.length_pagina hi
  · exact hlaw.largo _ _

/-- The pages as they are seen, with every page that is in a frame and not dirty. -/
theorem muestra_of_sana (hlaw : StorageConFallas srv ram contenido)
    (h : TablaSana ram w.memoria) (ft : String × String) :
    Muestra ram contenido ft (fun p => contenido w.storage (ft, p))
      (enMarcoLimpio w.memoria ft) w (paginaVisible ram contenido w) where
  ordenada := h.ordenada
  largo := length_paginaVisible hlaw h.ordenada
  representa := by
    refine ⟨fun i a ha => (lineaEn_eq_some.mp ha).2, fun i j a b ha hb heq => ?_, fun i a ha => ?_,
      fun k hk hlimpia => ?_⟩
    · refine h.unica i j a.key (clave_of_linea (lineaEn_eq_some.mp ha).1) ?_
      rw [heq]
      exact clave_of_linea (lineaEn_eq_some.mp hb).1
    · exact (paginaVisible_of_linea contenido h (lineaEn_eq_some.mp ha).1).symm
    · obtain ⟨ft', p⟩ := k
      obtain rfl : ft' = ft := hk
      unfold fingida
      split_ifs with hcond
      · rfl
      · unfold paginaVisible
        split
        · next f hf =>
          obtain ⟨i, hi⟩ := List.mem_iff_getElem?.mp (List.mem_of_find?_eq_some hf)
          have hmatch := List.find?_some hf
          have hlinea := linea_of_claveDe ram hi ((frameMatchea_iff _ _ _ _).mp hmatch)
          have hdirty := hlimpia i _ (lineaEn_eq_some.mpr ⟨hlinea, rfl⟩) rfl
          refine absurd (List.any_eq_true.mpr ⟨f, List.mem_of_getElem? hi, ?_⟩) hcond
          rw [hmatch, show f.dirty = false from hdirty]
          rfl
        · rfl
  enMarco := by
    intro p hp
    obtain ⟨f, hf, hcond⟩ := List.any_eq_true.mp hp
    obtain ⟨hmatch, hdirty⟩ := Bool.and_eq_true_iff.mp hcond
    obtain ⟨i, hi⟩ := List.mem_iff_getElem?.mp hf
    have hlinea := linea_of_claveDe ram hi ((frameMatchea_iff _ _ _ _).mp hmatch)
    exact ⟨rfl, i, _, hlinea, rfl, by simpa using hdirty⟩

end Paginas

section Traer

/-- Between two moments the File:Tag has changed only in pages that were clean in a frame
and are now as Storage has them. -/
structure Olvida (ft : String × String) (guardado : ℕ → Bytes) (limpias limpias' : ℕ → Bool)
    (flat flat' : Clave → Bytes) : Prop where
  menos : ∀ p, limpias' p = true → limpias p = true
  paginas : ∀ p, flat' (ft, p) = flat (ft, p) ∨ limpias p = true ∧ flat' (ft, p) = guardado p

theorem Olvida.refl (ft : String × String) (guardado : ℕ → Bytes) (limpias : ℕ → Bool)
    (flat : Clave → Bytes) : Olvida ft guardado limpias limpias flat flat :=
  ⟨fun _ h => h, fun _ => Or.inl rfl⟩

theorem Muestra.congr (h : Muestra ram contenido ft guardado limpias w flat)
    (hordenada : Ordenada ram w'.memoria) (hlinea : linea ram w'.memoria = linea ram w.memoria)
    (hstore : contenido w'.storage = contenido w.storage) :
    Muestra ram contenido ft guardado limpias w' flat where
  ordenada := hordenada
  largo := h.largo
  representa := by
    rw [lineaEn_congr hlinea, hstore]
    exact h.representa
  enMarco := by
    rw [hlinea, hstore]
    exact h.enMarco

theorem Muestra.soloUso (h : Muestra ram contenido ft guardado limpias w flat) {m : Memoria}
    (hsolo : SoloUso w.memoria m) :
    Muestra ram contenido ft guardado limpias { w with memoria := m } flat :=
  h.congr (hsolo.ordenada h.ordenada) (hsolo.linea_eq ram) rfl

theorem Muestra.tocar (h : Muestra ram contenido ft guardado limpias w flat) (reloj : Reloj)
    (i : ℕ) :
    Muestra ram contenido ft guardado limpias
      { w with memoria := tocar reloj w.memoria i } flat :=
  h.congr (ordenada_tocar h.ordenada reloj i) (linea_tocar ram reloj w.memoria i) rfl

/-- A page in a dirty frame is in no frame that is not dirty. -/
theorem Muestra.limpias_of_dirty (h : Muestra ram contenido ft guardado limpias w flat)
    {a : Line Clave Bytes} (ha : linea ram w.memoria i = some a) (hdirty : a.dirty = true)
    (hft : a.key.1 = ft) : limpias a.key.2 = false := by
  refine Bool.eq_false_iff.mpr fun htrue => ?_
  obtain ⟨_, j, b, hb, hkey, hlimpia⟩ := h.enMarco a.key.2 htrue
  have heq : b.key = a.key := by rw [hkey, ← hft]
  obtain rfl := h.representa.unique j i b a
    (lineaEn_eq_some.mpr ⟨hb, by rw [hkey]⟩) (lineaEn_eq_some.mpr ⟨ha, hft⟩) heq
  obtain rfl := Option.some.inj (ha.symm.trans hb)
  exact absurd (hlimpia.symm.trans hdirty) (by simp)

/-- A write of a page in a dirty frame leaves Storage as it was for the clean ones. -/
theorem Muestra.guardado_of_sucia (h : Muestra ram contenido ft guardado limpias w flat)
    {k : Clave} {st : σ} (hsucia : k.1 = ft → limpias k.2 = false)
    (hotros : ∀ p, (ft, p) ≠ k → contenido st (ft, p) = contenido w.storage (ft, p)) (p : ℕ)
    (hp : limpias p = true) : contenido st (ft, p) = guardado p := by
  rw [hotros p fun heq => ?_]
  · exact (h.enMarco p hp).1
  · have hno := hsucia (congrArg Prod.fst heq).symm
    rw [← heq] at hno
    exact absurd (hno.symm.trans hp) (by simp)

/-- Sending back a dirty frame does not change what is seen, also when the exchange fails. -/
theorem volcarMarco_muestra (hat : Atiende srv contenido ft bien)
    (h : Muestra ram contenido ft guardado limpias w flat) {f : Marco}
    (hf : w.memoria.frames[i]? = some f) (hdirty : f.dirty = true)
    (hbien : bien (volcarMarco ram srv w i f).1.storage) :
    Muestra ram contenido ft guardado limpias (volcarMarco ram srv w i f).1 flat := by
  obtain ⟨k, hk⟩ := Option.isSome_iff_exists.mp (h.ordenada.nombrado i f hf hdirty)
  obtain ⟨_, hfile, htag, hpagina⟩ := claveDe_eq_some hk
  have hlinea := linea_of_claveDe ram hf hk
  have hescritura := hat.escritura w.storage k.1.1 k.1.2 k.2
    (slice w.memoria.direccionBase f.base ram.pageSize)
  have hsucia : k.1 = ft → limpias k.2 = false := h.limpias_of_dirty hlinea hdirty
  unfold volcarMarco escribirPaginaStorage at hbien ⊢
  simp only [hfile, htag, hpagina] at hbien ⊢
  cases hres : srv.writeBlock w.storage k.1.1 k.1.2 k.2
      (slice w.memoria.direccionBase f.base ram.pageSize) with
  | mk st ok =>
    rw [hres] at hescritura
    simp only [hres] at hbien ⊢
    have hguarda := (hescritura (by cases ok <;> exact hbien)).2
    have hotros : ∀ p, (ft, p) ≠ k → contenido st (ft, p) = contenido w.storage (ft, p) := by
      intro p hne
      rcases hguarda with heq | ⟨_, heq⟩
      · exact (heq p).trans (Function.update_of_ne hne _ _)
      · exact heq p
    have hguardado := h.guardado_of_sucia hsucia hotros
    have hotras : ∀ k' : Clave, k'.1 = ft → k' ≠ k →
        contenido st k' = contenido w.storage k' := by
      rintro ⟨_, p⟩ rfl hne
      exact hotros p hne
    cases ok with
    | false =>
      refine ⟨h.ordenada, h.largo, ?_, fun p hp => ⟨hguardado p hp, (h.enMarco p hp).2⟩⟩
      by_cases hft : k.1 = ft
      · exact h.representa.store_dirty (lineaEn_eq_some.mpr ⟨hlinea, hft⟩) hdirty
          fun k' hk' hne => fingida_congr (hotras k' hk' hne)
      · refine h.representa.congr_store fun k' hk' => fingida_congr (hotras k' hk' ?_)
        rintro rfl
        exact hft hk'
    | true =>
      have hst : ∀ p, contenido st (ft, p) = Function.update (contenido w.storage) k
          (slice w.memoria.direccionBase f.base ram.pageSize) (ft, p) := by
        rcases hguarda with heq | ⟨hfalse, _⟩
        · exact heq
        · exact absurd hfalse (by simp)
      have hordenada := ordenada_soloLimpia (soloLimpia_limpiar w.memoria i) h.ordenada
      have hclave : claveDe (limpio f) = some k := hk
      have hupdate := linea_modificarMarco ram w.memoria i limpio
      rw [hf, Option.bind_some, lineaDe, hclave, Option.map_some] at hupdate
      refine ⟨hordenada, h.largo, ?_, fun p hp => ⟨hguardado p hp, ?_⟩⟩
      · change Represents _ (lineaEn ram ft (modificarMarco w.memoria i limpio)) _ _
        rw [lineaEn_update hupdate]
        by_cases hft : k.1 = ft
        · rw [Option.filter_some_pos (by simpa using hft)]
          refine h.representa.writeBack (lineaEn_eq_some.mpr ⟨hlinea, hft⟩) fun k' hk' => ?_
          rcases eq_or_ne k' k with rfl | hne
          · rw [fingida_of_false (hsucia hft), Function.update_self, ← Prod.mk.eta (p := k')]
            subst hft
            exact (hst k'.2).trans (Function.update_self ..)
          · rw [Function.update_of_ne hne]
            exact fingida_congr (hotras k' hk' hne)
        · have hnone : lineaEn ram ft w.memoria i = none := by
            unfold lineaEn
            rw [hlinea, Option.filter_some_neg (by simpa using hft)]
          rw [Option.filter_some_neg (by simpa using hft),
            Function.update_eq_self_iff.mpr hnone.symm]
          refine h.representa.congr_store fun k' hk' => fingida_congr (hotras k' hk' ?_)
          rintro rfl
          exact hft hk'
      · obtain ⟨_, j, a, ha, hkey, hlimpia⟩ := h.enMarco p hp
        refine ⟨j, a, ?_, hkey, hlimpia⟩
        have hne : j ≠ i := by
          rintro rfl
          obtain rfl := Option.some.inj (hlinea.symm.trans ha)
          exact absurd (hlimpia.symm.trans hdirty) (by simp)
        change linea ram (modificarMarco w.memoria i limpio) j = _
        rw [hupdate, Function.update_of_ne hne]
        exact ha

theorem flushFrame_muestra (hat : Atiende srv contenido ft bien)
    (h : Muestra ram contenido ft guardado limpias w flat) (i : ℕ)
    (hbien : bien (flushFrame ram srv w i).1.storage) :
    Muestra ram contenido ft guardado limpias (flushFrame ram srv w i).1 flat := by
  unfold flushFrame volcarSi at hbien ⊢
  cases hf : w.memoria.frames[i]? with
  | none => exact h
  | some f =>
    simp only [hf] at hbien ⊢
    split_ifs at hbien ⊢ with hcond
    · exact volcarMarco_muestra hat h hf (Bool.and_eq_true_iff.mp hcond).2 hbien
    · exact h

/-- Taking the names from a frame that is not dirty forgets its page. -/
theorem quitarNombres_muestra (hlaw : StorageConFallas srv ram contenido)
    (h : Muestra ram contenido ft guardado limpias w flat) {v : ℕ}
    (hlimpio : ∀ f, w.memoria.frames[v]? = some f → f.dirty = false) :
    ∃ limpias' flat',
      Muestra ram contenido ft guardado limpias'
        { w with memoria := quitarNombres w.memoria v } flat' ∧
      Olvida ft guardado limpias limpias' flat flat' := by
  obtain ⟨hordenada, _⟩ := quitarNombres_sana h.ordenada hlimpio
  have hlinea := linea_quitarNombres ram w.memoria v
  by_cases hesta : ∃ a, lineaEn ram ft w.memoria v = some a ∧ limpias a.key.2 = true
  · obtain ⟨a, ha, hlimpia⟩ := hesta
    obtain ⟨hav, hft⟩ := lineaEn_eq_some.mp ha
    have hkey : a.key = (ft, a.key.2) := Prod.ext hft rfl
    have hguardado := (h.enMarco a.key.2 hlimpia).1
    have hmenos : ∀ p, Function.update limpias a.key.2 false p = true →
        p ≠ a.key.2 ∧ limpias p = true := by
      intro p hp
      rcases eq_or_ne p a.key.2 with rfl | hne
      · rw [Function.update_self] at hp
        exact absurd hp (by simp)
      · rw [Function.update_of_ne hne] at hp
        exact ⟨hne, hp⟩
    refine ⟨Function.update limpias a.key.2 false,
      Function.update flat a.key (guardado a.key.2), ⟨hordenada, fun k => ?_, ?_, fun p hp => ?_⟩,
      fun p hp => (hmenos p hp).2, fun p => ?_⟩
    · rcases eq_or_ne k a.key with rfl | hne
      · rw [Function.update_self, ← hguardado]
        exact hlaw.largo _ _
      · rw [Function.update_of_ne hne]
        exact h.largo k
    · rw [lineaEn_update hlinea, Option.filter_none]
      have hfinal := h.representa.discard ha
        (fingida (contenido w.storage) (Function.update limpias a.key.2 false)
          (Function.update flat a.key (guardado a.key.2))) fun k hk hne => by
        have hp : k.2 ≠ a.key.2 := fun hp => hne (Prod.ext (hk.trans hft.symm) hp)
        unfold fingida
        rw [Function.update_of_ne hp, Function.update_of_ne hne]
      rwa [fingida_of_false (Function.update_self ..), hkey, hguardado, ← hkey] at hfinal
    · obtain ⟨hne, htrue⟩ := hmenos p hp
      obtain ⟨hp', j, b, hb, hkey', hlimpia'⟩ := h.enMarco p htrue
      refine ⟨hp', j, b, ?_, hkey', hlimpia'⟩
      have hjv : j ≠ v := by
        rintro rfl
        obtain rfl := Option.some.inj (hav.symm.trans hb)
        exact hne (congrArg Prod.snd hkey').symm
      simp only
      rw [hlinea, Function.update_of_ne hjv]
      exact hb
    · rcases eq_or_ne p a.key.2 with rfl | hne
      · rw [← hkey, Function.update_self]
        exact Or.inr ⟨hlimpia, rfl⟩
      · rw [Function.update_of_ne fun heq => hne (congrArg Prod.snd heq)]
        exact Or.inl rfl
  · refine ⟨limpias, flat, ⟨hordenada, h.largo, ?_, fun p hp => ?_⟩, Olvida.refl ..⟩
    · rw [lineaEn_update hlinea, Option.filter_none]
      refine h.representa.drop fun a ha => ?_
      obtain ⟨f, hf, _, hdirty, _⟩ := linea_eq_some (lineaEn_eq_some.mp ha).1
      exact hdirty ▸ hlimpio f hf
    · obtain ⟨hp', j, b, hb, hkey, hlimpia⟩ := h.enMarco p hp
      refine ⟨hp', j, b, ?_, hkey, hlimpia⟩
      have hjv : j ≠ v := by
        rintro rfl
        exact hesta ⟨b, lineaEn_eq_some.mpr ⟨hb, by rw [hkey]⟩, by rw [hkey]; exact hp⟩
      simp only
      rw [hlinea, Function.update_of_ne hjv]
      exact hb

theorem desalojar_muestra (hlaw : StorageConFallas srv ram contenido)
    (hat : Atiende srv contenido ft bien) (h : Muestra ram contenido ft guardado limpias w flat)
    (v : ℕ) (hbien : bien (desalojar ram srv w v).1.storage) :
    (∃ limpias' flat',
      Muestra ram contenido ft guardado limpias' (desalojar ram srv w v).1 flat' ∧
      Olvida ft guardado limpias limpias' flat flat') ∧
    ∀ i, (desalojar ram srv w v).2 = some i →
      linea ram (desalojar ram srv w v).1.memoria i = none := by
  have hflush := flushFrame_muestra hat h v
  have hlimpio : (flushFrame ram srv w v).2 = true → ∀ f,
      (flushFrame ram srv w v).1.memoria.frames[v]? = some f → f.dirty = false :=
    fun hok f hf => limpio_of_flushFrame h.ordenada hok hf
  unfold desalojar at hbien ⊢
  cases hres : flushFrame ram srv w v with
  | mk w₁ ok =>
    rw [hres] at hflush hlimpio
    simp only [hres] at hbien ⊢
    cases ok with
    | false =>
      exact ⟨⟨limpias, flat, hflush hbien, Olvida.refl ..⟩, fun i hi => absurd hi (by simp)⟩
    | true =>
      refine ⟨quitarNombres_muestra hlaw (hflush hbien) (hlimpio rfl), fun i hi => ?_⟩
      obtain rfl := Option.some.inj hi
      simp only
      rw [linea_quitarNombres]
      exact Function.update_self ..

/-- Making room, successful or not, at most forgets a page. -/
theorem elegirMarco_muestra (hlaw : StorageConFallas srv ram contenido)
    (hat : Atiende srv contenido ft bien) (h : Muestra ram contenido ft guardado limpias w flat)
    (hbien : bien (elegirMarco ram srv w).1.storage) :
    (∃ limpias' flat',
      Muestra ram contenido ft guardado limpias' (elegirMarco ram srv w).1 flat' ∧
      Olvida ft guardado limpias limpias' flat flat') ∧
    ∀ i, (elegirMarco ram srv w).2 = some i →
      linea ram (elegirMarco ram srv w).1.memoria i = none := by
  unfold elegirMarco buscarMarcoLibre at hbien ⊢
  cases hlibre : w.memoria.frames.findIdx? Marco.libre with
  | some i =>
    refine ⟨⟨limpias, flat, h, Olvida.refl ..⟩, fun j hj => ?_⟩
    obtain rfl := Option.some.inj hj
    obtain ⟨hlt, hi, _⟩ := List.findIdx?_eq_some_iff_getElem.mp hlibre
    unfold linea lineaDe claveDe
    rw [List.getElem?_eq_getElem hlt, Option.bind_some, if_pos hi]
    rfl
  | none =>
    obtain ⟨hsolo, _⟩ := elegirAlgoritmo_soloUso ram w.memoria
    cases helegir : elegirAlgoritmo ram w.memoria with
    | mk m victima =>
      rw [helegir] at hsolo
      simp only [hlibre, helegir] at hbien ⊢
      cases victima with
      | none =>
        exact ⟨⟨limpias, flat, h.soloUso hsolo, Olvida.refl ..⟩, fun j hj => absurd hj (by simp)⟩
      | some v => exact desalojar_muestra hlaw hat (h.soloUso hsolo) v hbien

/-- A page that comes in shows what Storage has, and one that does not shows nothing. -/
theorem cargarPagina_muestra (hlaw : StorageConFallas srv ram contenido)
    (hfile : ':' ∉ file.toList) (h : Muestra ram contenido (file, tag) guardado limpias w flat)
    (huint : p < 2 ^ 32) (hi : i < ram.frames) (hnone : linea ram w.memoria i = none)
    (hun : ∀ j, clave w.memoria j ≠ some ((file, tag), p)) :
    Muestra ram contenido (file, tag) guardado limpias
      (cargarPagina ram reloj srv w i file tag p).1 flat := by
  have hbase := h.ordenada.baseDe_eq hi
  have hcabe := marco_cabe ram hi
  have hlectura := hlaw.lectura w.storage (file ++ ":" ++ tag) p
  have hleida := fun b => hlaw.leida w.storage file tag p b hfile huint
  unfold cargarPagina lecturaPaginaStorage
  rw [hbase]
  cases hres : srv.readBlock w.storage (file ++ ":" ++ tag) p with
  | mk st r =>
    rw [hres] at hlectura hleida
    cases r with
    | none => exact h.congr h.ordenada rfl hlectura
    | some b =>
      have hlen : (b.take ram.pageSize).length ≤ ram.pageSize := List.length_take_le _ _
      have hordenada := h.ordenada.copiar (i * ram.pageSize) (b.take ram.pageSize) (by omega)
      have hcopia := linea_copiar_libre h.ordenada hi hnone hlen
      by_cases hentera : ram.pageSize ≤ b.length
      · have hpagina := hleida b rfl hentera
        have hfuera : limpias p = false := by
          refine Bool.eq_false_iff.mpr fun htrue => ?_
          obtain ⟨_, j, a, ha, hkey, _⟩ := h.enMarco p htrue
          exact hun j (hkey ▸ clave_of_linea ha)
        obtain ⟨f, hf, hfbase⟩ := h.ordenada.marco hi
        simp only [hentera, decide_true]
        have hlinea := linea_asignarMarco ram reloj (m := { w.memoria with
          direccionBase := overlay w.memoria.direccionBase (i * ram.pageSize)
            (b.take ram.pageSize) }) hf file tag p
        have htam := h.ordenada.tamanio
        have hself := slice_overlay_self w.memoria.direccionBase (i * ram.pageSize)
          (show (b.take ram.pageSize).length = _ from List.length_take_of_le hentera) (by omega)
        rw [hcopia, hfbase, hself] at hlinea
        refine ⟨ordenada_asignarMarco hordenada reloj i file tag p, h.largo, ?_, fun q hq => ?_⟩
        · rw [show lineaEn ram (file, tag) _ = _ from lineaEn_update hlinea,
            Option.filter_some_pos (by simp), hpagina]
          have hcarga := h.representa.load (i := i) (k := ((file, tag), p))
            (by unfold lineaEn; rw [hnone, Option.filter_none]) rfl
            (fun j a ha hkey => hun j (hkey ▸ clave_of_linea (lineaEn_eq_some.mp ha).1))
          rw [fingida_of_false hfuera] at hcarga
          exact hcarga.congr_store fun k _ => fingida_congr (congrFun hlectura k)
        · obtain ⟨hq', j, a, ha, hkey, hlimpia⟩ := h.enMarco q hq
          refine ⟨(congrFun hlectura _).trans hq', j, a, ?_, hkey, hlimpia⟩
          have hji : j ≠ i := by
            rintro rfl
            simp [hnone] at ha
          exact (congrFun hlinea j).trans ((Function.update_of_ne hji _ _).trans ha)
      · simp only [hentera, decide_false]
        exact h.congr hordenada hcopia hlectura

/-- A fetch, successful or not, at most forgets a page. -/
theorem traerPagina_muestra (hlaw : StorageConFallas srv ram contenido)
    (hat : Atiende srv contenido (file, tag) bien) (hfile : ':' ∉ file.toList)
    (h : Muestra ram contenido (file, tag) guardado limpias w flat) (reloj : Reloj)
    (huint : p < 2 ^ 32) (hbien : bien (traerPagina ram reloj srv w file tag p).1.storage) :
    ∃ limpias' flat',
      Muestra ram contenido (file, tag) guardado limpias'
        (traerPagina ram reloj srv w file tag p).1 flat' ∧
      Olvida (file, tag) guardado limpias limpias' flat flat' := by
  unfold traerPagina
  cases hbuscar : w.memoria.frames.findIdx? (frameMatchea file tag p) with
  | some i => exact ⟨limpias, flat, h.tocar reloj i, Olvida.refl ..⟩
  | none =>
    have hun := clave_ne_of_ausente hbuscar
    obtain ⟨_, hmenos, hlt⟩ := elegirMarco_sana srv h.ordenada
    have helegido : bien (elegirMarco ram srv w).1.storage := by
      by_contra hno
      unfold traerPagina at hbien
      rw [hbuscar] at hbien
      cases helegir : elegirMarco ram srv w with
      | mk w₁ marco =>
        rw [helegir] at hno
        simp only [helegir] at hbien
        cases marco with
        | none => exact hno hbien
        | some i => exact hat.conserva.cargarPagina hno ram reloj i file tag p hbien
    obtain ⟨⟨limpias', flat', hmuestra, holvida⟩, hlibre⟩ :=
      elegirMarco_muestra hlaw hat h helegido
    refine ⟨limpias', flat', ?_, holvida⟩
    cases helegir : elegirMarco ram srv w with
    | mk w₁ marco =>
      rw [helegir] at hmuestra hlibre hmenos hlt
      cases marco with
      | none => exact hmuestra
      | some i =>
        exact cargarPagina_muestra hlaw hfile hmuestra huint (hlt i rfl) (hlibre i rfl)
          fun j hj => hun j (hmenos j _ hj)

end Traer

section Rondas

variable {a : Acceso} {salida : Bytes} {desplaz n : ℕ} {xs ys : List ((ℕ × ℕ) × UInt8)}

/-- Between two moments the bytes `puestos` have been put in their cells, and some pages
that were clean in a frame have been forgotten. -/
structure Puesto (ft : String × String) (guardado : ℕ → Bytes) (limpias limpias' : ℕ → Bool)
    (flat flat' : Clave → Bytes) (puestos : List ((ℕ × ℕ) × UInt8)) : Prop where
  menos : ∀ p, limpias' p = true → limpias p = true ∧ ∀ o, lastValue (p, o) puestos = none
  paginas : ∀ p, ∃ antes : Bytes,
    (antes = flat (ft, p) ∨ limpias p = true ∧ antes = guardado p) ∧
      ∀ o, (flat' (ft, p))[o]? = (lastValue (p, o) puestos).or antes[o]?

theorem Olvida.puesto (h : Olvida ft guardado limpias limpias' flat flat') :
    Puesto ft guardado limpias limpias' flat flat' [] where
  menos := fun p hp => ⟨h.menos p hp, fun _ => rfl⟩
  paginas := fun p => ⟨flat' (ft, p), h.paginas p, fun _ => rfl⟩

theorem Puesto.trans (h : Puesto ft guardado limpias limpias' flat flat' xs)
    (h' : Puesto ft guardado limpias' limpias'' flat' flat'' ys) :
    Puesto ft guardado limpias limpias'' flat flat'' (xs ++ ys) where
  menos := by
    intro p hp
    obtain ⟨hlimpia', hys⟩ := h'.menos p hp
    obtain ⟨hlimpia, hxs⟩ := h.menos p hlimpia'
    refine ⟨hlimpia, fun o => ?_⟩
    rw [lastValue_append, hxs, hys]
    rfl
  paginas := by
    intro p
    obtain ⟨antes', horigen' | ⟨hlimpia', horigen'⟩, hbytes'⟩ := h'.paginas p
    · obtain ⟨antes, horigen, hbytes⟩ := h.paginas p
      refine ⟨antes, horigen, fun o => ?_⟩
      rw [hbytes', horigen', hbytes, lastValue_append, Option.or_assoc]
    · obtain ⟨hlimpia, hxs⟩ := h.menos p hlimpia'
      refine ⟨antes', Or.inr ⟨hlimpia, horigen'⟩, fun o => ?_⟩
      rw [hbytes', lastValue_append, hxs, Option.or_none]

/-- The cells, each a page and a place in it, that the rounds of a write put bytes in,
with the bytes and in that order. -/
def destinos (ram : Ram) (a : Acceso) : ℕ → ℕ → ℕ → List ((ℕ × ℕ) × UInt8)
  | 0, _, _ => []
  | rondas + 1, desplaz, restante =>
    if restante = 0 then []
    else
      let dir := a.base + desplaz
      let chunk := tramo ram dir restante
      (((slice a.entrada desplaz chunk).zipIdx (desplazamiento ram dir)).map
          fun x => ((nroPagina ram dir, x.2), x.1)) ++
        destinos ram a rondas (desplaz + chunk) (restante - chunk)

/-- The bytes of a page after the copy of a round. -/
theorem getElem?_ronda (dst src : Bytes) (q : ℕ) {off : ℕ} (h : off + src.length ≤ dst.length)
    (o : ℕ) : (overlay dst off src)[o]? =
      (lastValue (q, o) ((src.zipIdx off).map fun x => ((q, x.2), x.1))).or dst[o]? := by
  rw [lastValue_zipIdx, getElem?_overlay dst off src h]
  by_cases hoff : off ≤ o
  · rw [if_pos (And.intro rfl hoff)]
    by_cases hlt : o < off + src.length
    · rw [if_pos ⟨hoff, hlt⟩, List.getElem?_eq_getElem (by omega), Option.some_or]
    · rw [if_neg (fun hin => hlt hin.2), List.getElem?_eq_none (l := src) (by omega),
        Option.none_or]
  · rw [if_neg (fun hin => hoff hin.1), if_neg (fun hin => hoff hin.2), Option.none_or]

/-- A round of a write puts its bytes in the cells of one page. -/
theorem accederMarco_muestra (h : Muestra ram contenido (a.file, a.tag) guardado limpias w flat)
    (hescribir : a.escribir = true) (reloj : Reloj) (hi : i < ram.frames)
    (hclave : clave w.memoria i = some ((a.file, a.tag), p)) (salida : Bytes)
    (hn : desplazamiento ram (a.base + desplaz) + n ≤ ram.pageSize)
    (hentrada : desplaz + n ≤ a.entrada.length) :
    ∃ limpias' flat',
      Muestra ram contenido (a.file, a.tag) guardado limpias'
        (accederMarco ram reloj a w i salida desplaz n).1 flat' ∧
      Puesto (a.file, a.tag) guardado limpias limpias' flat flat'
        (((slice a.entrada desplaz n).zipIdx (desplazamiento ram (a.base + desplaz))).map
          fun x => ((p, x.2), x.1)) := by
  obtain ⟨f, hf, hk⟩ := Option.bind_eq_some_iff.mp hclave
  have hlength := length_slice a.entrada desplaz n hentrada
  have hlinea := linea_of_claveDe ram hf hk
  have hen := lineaEn_eq_some.mpr ⟨hlinea, rfl⟩
  have hvalor := h.representa.agrees i _ hen
  obtain ⟨hordenada, hcopia⟩ := escribirTramo_linea h.ordenada hi hlinea
    (desplazamiento ram (a.base + desplaz)) (slice a.entrada desplaz n) (by omega)
  have hmenos : ∀ q, Function.update limpias p false q = true → q ≠ p ∧ limpias q = true := by
    intro q hq
    rcases eq_or_ne q p with rfl | hne
    · rw [Function.update_self] at hq
      exact absurd hq (by simp)
    · rw [Function.update_of_ne hne] at hq
      exact ⟨hne, hq⟩
  refine ⟨Function.update limpias p false, Function.update flat ((a.file, a.tag), p)
    (overlay (flat ((a.file, a.tag), p)) (desplazamiento ram (a.base + desplaz))
      (slice a.entrada desplaz n)), ?_, fun q hq => ?_, fun q => ?_⟩
  · unfold accederMarco
    simp only [hescribir, if_true, h.ordenada.baseDe_eq hi]
    refine Muestra.tocar ⟨hordenada, fun k => ?_, ?_, fun q hq => ?_⟩ reloj i
    · rcases eq_or_ne k ((a.file, a.tag), p) with rfl | hne
      · rw [Function.update_self, length_overlay _ _ _ (by rw [h.largo]; omega), h.largo]
      · rw [Function.update_of_ne hne, h.largo]
    · rw [lineaEn_update hcopia, Option.filter_some_pos (by simp), hvalor]
      refine (h.representa.put hen _).store_dirty (i := i) (Function.update_self ..) rfl ?_
      intro k hft hne
      have hp : k.2 ≠ p := fun hp => hne (Prod.ext hft hp)
      unfold fingida
      rw [Function.update_of_ne hp, Function.update_of_ne hne]
      rfl
    · obtain ⟨hne, htrue⟩ := hmenos q hq
      obtain ⟨hq', j, b, hb, hkey, hlimpia⟩ := h.enMarco q htrue
      refine ⟨hq', j, b, ?_, hkey, hlimpia⟩
      have hji : j ≠ i := by
        rintro rfl
        obtain rfl := Option.some.inj (hlinea.symm.trans hb)
        exact hne (congrArg Prod.snd hkey).symm
      rw [hcopia, Function.update_of_ne hji]
      exact hb
  · obtain ⟨hne, htrue⟩ := hmenos q hq
    refine ⟨htrue, fun o => ?_⟩
    rw [lastValue_zipIdx, if_neg fun hin => hne hin.1.symm]
  · refine ⟨flat ((a.file, a.tag), q), Or.inl rfl, fun o => ?_⟩
    by_cases hq : p = q
    · subst hq
      rw [Function.update_self]
      exact getElem?_ronda _ _ _ (by rw [h.largo]; omega) o
    · have hne : ((a.file, a.tag), q) ≠ ((a.file, a.tag), p) :=
        fun heq => hq (Prod.mk.inj heq).2.symm
      rw [Function.update_of_ne hne, lastValue_zipIdx, if_neg (fun hin => hq hin.1),
        Option.none_or]

/-- When no fetch of the rounds fails, each cell shows the last byte put in it. -/
theorem accederDesde_muestra (hlaw : StorageConFallas srv ram contenido)
    (hat : Atiende srv contenido (a.file, a.tag) bien) (hfile : ':' ∉ a.file.toList)
    (hescribir : a.escribir = true) (reloj : Reloj) {rondas : ℕ} (hsana : TablaSana ram w.memoria)
    (h : Muestra ram contenido (a.file, a.tag) guardado limpias w flat)
    (hentrada : desplaz + n ≤ a.entrada.length)
    (hop : (accederDesde ram reloj srv a rondas w salida desplaz n).2.2 = true)
    (hbien : bien (accederDesde ram reloj srv a rondas w salida desplaz n).1.storage) :
    ∃ limpias' flat',
      Muestra ram contenido (a.file, a.tag) guardado limpias'
        (accederDesde ram reloj srv a rondas w salida desplaz n).1 flat' ∧
      Puesto (a.file, a.tag) guardado limpias limpias' flat flat'
        (destinos ram a rondas desplaz n) := by
  induction rondas generalizing w limpias flat salida desplaz n with
  | zero => exact ⟨limpias, flat, h, (Olvida.refl ..).puesto⟩
  | succ rondas ih =>
    unfold accederDesde at hop hbien ⊢
    unfold destinos
    split_ifs at hop hbien ⊢ with hn
    · exact ⟨limpias, flat, h, (Olvida.refl ..).puesto⟩
    · obtain ⟨hsana₁, hmarco⟩ := traerPagina_sana hsana reloj srv a.file a.tag
        (nroPagina ram (a.base + desplaz))
      have htraer := traerPagina_muestra hlaw hat hfile h reloj
        (AccessBounds.nroPagina_lt ram (a.base + desplaz))
      obtain ⟨hchunk, hle, htramo⟩ := tramo_spec ram (a.base + desplaz) (Nat.pos_of_ne_zero hn)
      cases hres : traerPagina ram reloj srv w a.file a.tag (nroPagina ram (a.base + desplaz)) with
      | mk w₁ marco =>
        rw [hres] at hsana₁ hmarco htraer
        simp only [hres] at hop hbien ⊢
        cases marco with
        | none => simp at hop
        | some i =>
          obtain ⟨hi, hclave⟩ := hmarco i rfl
          have hsana₂ := accederMarco_sana hsana₁ reloj a hi (by rw [hclave]; rfl) salida htramo
          have htraida : bien w₁.storage := by
            by_contra hno
            have hmarco := storage_accederMarco ram reloj a w₁ i salida desplaz
              (tramo ram (a.base + desplaz) n)
            exact hat.conserva.accederDesde ram reloj a rondas (hmarco.symm ▸ hno) _ _ _ hbien
          obtain ⟨limpias₁, flat₁, hmuestra, holvida⟩ := htraer htraida
          obtain ⟨limpias₂, flat₂, hronda, hpuesto⟩ :=
            accederMarco_muestra hmuestra hescribir reloj hi hclave salida htramo (by omega)
          obtain ⟨limpias', flat', hfinal, hresto⟩ := ih hsana₂ hronda (by omega) hop hbien
          exact ⟨limpias', flat', hfinal, (holvida.puesto.trans hpuesto).trans hresto⟩

/-- An access fails at the first page that cannot be brought in. The bytes before it are
an access of their own. -/
theorem accederDesde_fallo {rondas : ℕ} (hrondas : n ≤ rondas) {salida' : Bytes}
    (hop : accederDesde ram reloj srv a rondas w salida desplaz n = (w', salida', false)) :
    ∃ m, m < n ∧ ∃ w₁ salida₁,
      (∀ r, m ≤ r → accederDesde ram reloj srv a r w salida desplaz m = (w₁, salida₁, true)) ∧
      traerPagina ram reloj srv w₁ a.file a.tag (nroPagina ram (a.base + (desplaz + m))) =
        (w', none) := by
  induction rondas generalizing w salida desplaz n with
  | zero => simp [accederDesde] at hop
  | succ rondas ih =>
    unfold accederDesde at hop
    split_ifs at hop with hn
    · simp at hop
    · obtain ⟨hchunk, hle, htramo⟩ := tramo_spec ram (a.base + desplaz) (Nat.pos_of_ne_zero hn)
      cases hres : traerPagina ram reloj srv w a.file a.tag (nroPagina ram (a.base + desplaz)) with
      | mk w₁ marco =>
        simp only [hres] at hop
        cases marco with
        | none =>
          obtain rfl := (Prod.mk.inj hop).1
          refine ⟨0, Nat.pos_of_ne_zero hn, w, salida, fun r _ => ?_, hres⟩
          cases r with
          | zero => rfl
          | succ r => rfl
        | some i =>
          obtain ⟨m, hm, w₂, salida₂, hantes, hfalla⟩ := ih (by omega) hop
          refine ⟨tramo ram (a.base + desplaz) n + m, by omega, w₂, salida₂, fun r hr => ?_, ?_⟩
          · have htramo' : tramo ram (a.base + desplaz) (tramo ram (a.base + desplaz) n + m) =
                tramo ram (a.base + desplaz) n := by
              unfold tramo at hm ⊢
              omega
            obtain ⟨r, rfl⟩ := Nat.exists_eq_add_one.mpr (show 0 < r by omega)
            rw [accederDesde, if_neg (by omega), hres]
            simp only [htramo', Nat.add_sub_cancel_left]
            exact hantes r (by omega)
          · rw [← Nat.add_assoc desplaz]
            exact hfalla

end Rondas

section Notas

variable (srv : Servidor σ) (contenido : σ → Clave → Bytes) (ft : String × String)

/-- Storage with a note of whether it has kept every page sent to it. -/
def anotado : Servidor (σ × Prop) where
  readBlock st nombre p := Prod.map (·, st.2) id (srv.readBlock st.1 nombre p)
  writeBlock st f t p b :=
    let r := srv.writeBlock st.1 f t p b
    ((r.1, st.2 ∧ Guarda contenido ft st.1 ((f, t), p) b r), r.2)
  create st a := Prod.map (·, st.2) id (srv.create st.1 a)
  truncate st a n := Prod.map (·, st.2) id (srv.truncate st.1 a n)
  tag st a a' := Prod.map (·, st.2) id (srv.tag st.1 a a')
  commit st a := Prod.map (·, st.2) id (srv.commit st.1 a)
  flush st f t := Prod.map (·, st.2) id (srv.flush st.1 f t)
  delete st f t := Prod.map (·, st.2) id (srv.delete st.1 f t)

/-- The note takes no part in the answers. -/
theorem morfismo_anotado :
    Morfismo Prod.fst (anotado srv contenido ft) srv (fun _ _ => True) fun _ => True where
  readBlock _ _ _ := rfl
  writeBlock _ _ _ _ _ := rfl
  create _ _ := rfl
  truncate _ _ _ _ := rfl
  tag _ _ _ := rfl
  commit _ _ := rfl
  flush _ _ _ := rfl
  delete _ _ _ _ := rfl

theorem atiende_anotado :
    Atiende (anotado srv contenido ft) (fun st => contenido st.1) ft Prod.snd where
  lectura := fun _ _ _ h => h
  escritura := fun _ _ _ _ _ h => h

variable {srv contenido} in
theorem StorageConFallas.anotado (hlaw : StorageConFallas srv ram contenido) :
    StorageConFallas (anotado srv contenido ft) ram fun st => contenido st.1 where
  largo := fun st => hlaw.largo st.1
  lectura := fun st => hlaw.lectura st.1
  leida := fun st => hlaw.leida st.1

/-- Storage keeps each page of the access that is sent back to make room. -/
def GuardaEnviados (ram : Ram) (reloj : Reloj) (w : Worker σ) (a : Acceso) (n : ℕ) : Prop :=
  (accederMemoria ram reloj (anotado srv contenido (a.file, a.tag)) ⟨w.memoria, (w.storage, True)⟩
    a n []).1.storage.2

end Notas

section Escrituras

/-- The File:Tag shows the same bytes. -/
def MismoContenido (ram : Ram) (contenido : σ → Clave → Bytes) (ft : String × String)
    (w w' : Worker σ) : Prop :=
  ∀ p, paginaVisible ram contenido w' (ft, p) = paginaVisible ram contenido w (ft, p)

/-- Each cell shows the last byte put in it. The others show what they did, or, on a page
that was in a frame and not dirty, what Storage had. -/
def SoloPuestos (ram : Ram) (contenido : σ → Clave → Bytes) (ft : String × String)
    (w w' : Worker σ) (puestos : List ((ℕ × ℕ) × UInt8)) : Prop :=
  ∀ p, ∃ antes : Bytes, (antes = paginaVisible ram contenido w (ft, p) ∨
      enMarcoLimpio w.memoria ft p = true ∧ antes = contenido w.storage (ft, p)) ∧
    ∀ o, (paginaVisible ram contenido w' (ft, p))[o]? = (lastValue (p, o) puestos).or antes[o]?

/-- The first `n` bytes of the write go well, and the page of the next cannot be brought in. -/
def FallaTras (ram : Ram) (reloj : Reloj) (srv : Servidor σ) (w : Worker σ) (a : Acceso) (n : ℕ)
    (w' : Worker σ) : Prop :=
  ∃ w₁ salida, accederMemoria ram reloj srv w a n [] = (w₁, salida, true) ∧
    traerPagina ram reloj srv w₁ a.file a.tag (nroPagina ram (a.base + n)) = (w', none)

theorem FallaTras.conImagen {τ : Type*} {φ : τ → σ} {srv' : Servidor τ}
    {truncable : String → ℤ → Prop} {borrable : String × String → Prop}
    (h : Morfismo φ srv' srv truncable borrable) {v v' : Worker τ} {a : Acceso}
    {n : ℕ} (hfalla : FallaTras ram reloj srv' v a n v') :
    FallaTras ram reloj srv (imagen φ v) a n (imagen φ v') := by
  obtain ⟨v₁, salida, hantes, htraer⟩ := hfalla
  refine ⟨imagen φ v₁, salida, ?_, ?_⟩
  · rw [accederMemoria_imagen h, hantes]
    rfl
  · rw [traerPagina_imagen h, htraer]
    rfl

theorem soloPuestos_of_falla (hlaw : StorageConFallas srv ram contenido) {a : Acceso}
    (hat : Atiende srv contenido (a.file, a.tag) bien) (hfile : ':' ∉ a.file.toList)
    (hescribir : a.escribir = true) {n : ℕ} (hn : n ≤ a.entrada.length)
    (hsana : TablaSana ram w.memoria) (hfalla : FallaTras ram reloj srv w a n w')
    (hbien : bien w'.storage) :
    SoloPuestos ram contenido (a.file, a.tag) w w' (destinos ram a n 0 n) := by
  obtain ⟨w₁, salida, hantes, htraer⟩ := hfalla
  have hmuestra := muestra_of_sana hlaw hsana (a.file, a.tag)
  have htraida : bien (traerPagina ram reloj srv w₁ a.file a.tag
      (nroPagina ram (a.base + n))).1.storage := by
    rw [htraer]
    exact hbien
  have hrondasBien : bien w₁.storage := by
    by_contra hno
    exact hat.conserva.traerPagina hno ram reloj _ _ _ htraida
  unfold accederMemoria at hantes
  have hop : (accederDesde ram reloj srv a n w [] 0 n).2.2 = true := by
    rw [hantes]
  have hbienRondas : bien (accederDesde ram reloj srv a n w [] 0 n).1.storage := by
    rw [hantes]
    exact hrondasBien
  have hrondas := accederDesde_muestra hlaw hat hfile hescribir reloj hsana hmuestra (by omega)
    hop hbienRondas
  rw [hantes] at hrondas
  obtain ⟨limpias₁, flat₁, hrondas, hpuesto⟩ := hrondas
  obtain ⟨limpias₂, flat₂, hfinal, holvida⟩ := traerPagina_muestra hlaw hat hfile hrondas reloj
    (AccessBounds.nroPagina_lt ram (a.base + n)) htraida
  rw [htraer] at hfinal
  have htodo := hpuesto.trans holvida.puesto
  rw [List.append_nil] at htodo
  intro p
  rw [hfinal.visible]
  exact htodo.paginas p

/-- A write that fails has put the bytes that go before the first page that could not be
brought in, and nothing else, if Storage keeps what is sent back in the meantime. -/
theorem soloPuestos_escrituraFallida (hlaw : StorageConFallas srv ram contenido) (reloj : Reloj)
    (st : σ) (ops : List (Operacion σ)) {file : String} (hfile : ':' ∉ file.toList) (tag : String)
    (base : ℕ) (entrada : Bytes) {salida : Bytes}
    (hop : accederMemoria ram reloj srv (operarTodas ram reloj srv st ops).worker
      ⟨file, tag, base, true, entrada⟩ entrada.length [] = (w', salida, false))
    (hguarda : GuardaEnviados srv contenido ram reloj (operarTodas ram reloj srv st ops).worker
      ⟨file, tag, base, true, entrada⟩ entrada.length) :
    ∃ n < entrada.length,
      FallaTras ram reloj srv (operarTodas ram reloj srv st ops).worker
        ⟨file, tag, base, true, entrada⟩ n w' ∧
      SoloPuestos ram contenido (file, tag) (operarTodas ram reloj srv st ops).worker w'
        (destinos ram ⟨file, tag, base, true, entrada⟩ n 0 n) := by
  have hsana := tablaSana_operarTodas ram reloj srv st ops
  generalize (operarTodas ram reloj srv st ops).worker = w at hsana hop hguarda ⊢
  have hmorf := morfismo_anotado srv contenido (file, tag)
  have himagen := accederMemoria_imagen hmorf ram reloj ⟨w.memoria, (w.storage, True)⟩
    ⟨file, tag, base, true, entrada⟩ entrada.length []
  unfold GuardaEnviados at hguarda
  rw [show imagen Prod.fst ⟨w.memoria, (w.storage, True)⟩ = w from rfl, hop] at himagen
  cases hnota : accederMemoria ram reloj (anotado srv contenido (file, tag))
      ⟨w.memoria, (w.storage, True)⟩ ⟨file, tag, base, true, entrada⟩ entrada.length [] with
  | mk v r =>
    obtain ⟨salida', ok⟩ := r
    rw [hnota] at himagen hguarda
    obtain ⟨rfl, hresto⟩ := Prod.mk.inj himagen
    obtain ⟨rfl, rfl⟩ := Prod.mk.inj hresto
    obtain ⟨n, hn, w₁, salida₁, hantes, htraer⟩ := accederDesde_fallo (le_refl _) hnota
    rw [Nat.zero_add] at htraer
    have hfalla : FallaTras ram reloj (anotado srv contenido (file, tag))
        ⟨w.memoria, (w.storage, True)⟩ ⟨file, tag, base, true, entrada⟩ n v :=
      ⟨w₁, salida₁, hantes n (le_refl n), htraer⟩
    exact ⟨n, hn, hfalla.conImagen hmorf, soloPuestos_of_falla (hlaw.anotado (file, tag))
      (atiende_anotado srv contenido (file, tag)) hfile rfl hn.le hsana hfalla hguarda⟩

end Escrituras

section Servidor

variable (md5 : Bytes → String) (sb : StorageState.Superbloque)

/-- The page that READ_BLOCK answers, and zeros where it answers none. -/
def paginaStorage (s : StorageState.Storage) (k : Clave) : Bytes :=
  match leerBloque sb s (k.1.1 ++ ":" ++ k.1.2) k.2 with
  | some b => if k.2 < 2 ^ 32 ∧ sb.blockSize ≤ b.length then b.take sb.blockSize
    else List.replicate sb.blockSize 0
  | none => List.replicate sb.blockSize 0

/-- Storage is such a server. -/
theorem storageConFallas_servidorStorage (ram : Ram) :
    StorageConFallas (servidorStorage md5 sb) (conBloques sb ram) (paginaStorage sb) where
  largo := by
    intro s k
    unfold paginaStorage
    split
    · split_ifs with hlargo
      · exact List.length_take_of_le hlargo.2
      · exact List.length_replicate
    · exact List.length_replicate
  lectura := fun _ _ _ => rfl
  leida := by
    intro s f t p b _ huint hb hlargo
    change leerBloque sb s (f ++ ":" ++ t) p = some b at hb
    unfold paginaStorage
    rw [hb]
    exact (if_pos ⟨huint, hlargo⟩).symm

/-- Past the last page there are zeros. -/
theorem paginaStorage_fuera {s : StorageState.Storage} (hfile : ':' ∉ file.toList)
    (hp : AccessBounds.bloquesDe s file tag ≤ p) :
    paginaStorage sb s ((file, tag), p) = List.replicate sb.blockSize 0 := by
  unfold paginaStorage
  by_cases huint : p < 2 ^ 32
  · rw [AccessBounds.leerBloque_fuera hfile hp huint]
  · split
    · exact if_neg fun h => huint h.1
    · rfl

end Servidor

section Rotura

/-- A memory of one frame of two bytes. -/
def ramUnMarco : Ram := ⟨2, 2, .clockM, Nat.two_pos, by decide⟩

/-- A Worker that has executed nothing, in front of a Storage just started. -/
def trasIniciar : Worker StorageState.Storage :=
  (operarTodas (conBloques superbloqueChico ramUnMarco) relojParado
    (servidorStorage (fun _ => "") superbloqueChico) (freshStart superbloqueChico) []).worker

/-- Three bytes from the second on. -/
def escrituraLarga : Acceso := ⟨"initial_file", "BASE", 1, true, [7, 8, 9]⟩

/-- The one page of BASE is stored in its block, and there are no others. -/
theorem guarda_base : Guarda (paginaStorage superbloqueChico) ("initial_file", "BASE")
    (freshStart superbloqueChico) (("initial_file", "BASE"), 0) [48, 7]
    ((servidorStorage (fun _ => "") superbloqueChico).writeBlock (freshStart superbloqueChico)
      "initial_file" "BASE" 0 [48, 7]) := by
  refine Or.inl fun p => ?_
  cases p with
  | zero => decide
  | succ p =>
    have hfile : ':' ∉ "initial_file".toList := by decide
    rw [Function.update_of_ne (by simp), paginaStorage_fuera _ hfile, paginaStorage_fuera _ hfile]
    · exact Nat.le_add_left 1 p
    · exact Nat.le_add_left 1 p

/-- The first byte goes into page 0, which leaves memory, and there is no page 1. -/
theorem soloPuestos_escrituraFallida_base :
    ∃ n < 3,
      FallaTras (conBloques superbloqueChico ramUnMarco) relojParado
        (servidorStorage (fun _ => "") superbloqueChico) trasIniciar escrituraLarga n
        (accederMemoria (conBloques superbloqueChico ramUnMarco) relojParado
          (servidorStorage (fun _ => "") superbloqueChico) trasIniciar escrituraLarga 3 []).1 ∧
      SoloPuestos (conBloques superbloqueChico ramUnMarco) (paginaStorage superbloqueChico)
        ("initial_file", "BASE") trasIniciar
        (accederMemoria (conBloques superbloqueChico ramUnMarco) relojParado
          (servidorStorage (fun _ => "") superbloqueChico) trasIniciar escrituraLarga 3 []).1
        (destinos (conBloques superbloqueChico ramUnMarco) escrituraLarga n 0 n) :=
  soloPuestos_escrituraFallida (storageConFallas_servidorStorage (fun _ => "") superbloqueChico
      ramUnMarco) relojParado (freshStart superbloqueChico) []
    (by decide : ':' ∉ "initial_file".toList) "BASE" 1 [7, 8, 9]
    (Prod.ext rfl (Prod.ext rfl (by decide))) ⟨trivial, guarda_base⟩

/-- The page that could be brought in has changed. -/
theorem not_mismoContenido : ¬ ∀ md5 sb ram reloj st ops file tag base entrada w' salida,
    Alcanzable md5 sb st → ':' ∉ file.toList →
    accederMemoria (conBloques sb ram) reloj (servidorStorage md5 sb)
      (operarTodas (conBloques sb ram) reloj (servidorStorage md5 sb) st ops).worker
      ⟨file, tag, base, true, entrada⟩ entrada.length [] = (w', salida, false) →
    MismoContenido (conBloques sb ram) (paginaStorage sb) (file, tag)
      (operarTodas (conBloques sb ram) reloj (servidorStorage md5 sb) st ops).worker w' := by
  intro h
  have hmismo := h (fun _ => "") superbloqueChico ramUnMarco relojParado
    (freshStart superbloqueChico) [] "initial_file" "BASE" 1 [7, 8, 9] _ _ (Reaches.refl _)
    (by decide) (Prod.ext rfl (Prod.ext rfl (by decide))) 0
  exact absurd hmismo (by decide)

end Rotura

end MasterOfFiles.FailedWrites
