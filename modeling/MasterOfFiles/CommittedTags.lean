import MasterOfFiles.SharedStrings
import MasterOfFiles.WriteReadback

/-!
Committed Tags. Every request but WRITE_BLOCK refuses a committed Tag or leaves
its links alone, and a Tag hidden behind another of its name is never committed.
WRITE_BLOCK does not look at the Tag's state: whatever Tag it is sent to, it
rewrites block0000. A request whose names are not plain may remove the Tag's directory,
and one that uses a freed string may end the process.
-/
namespace MasterOfFiles.CommittedTags

open KeyedLists ByteBuffers BlockNames StorageState StorageFiles StorageOperations PartialRuns
open TagLookups BlockZero TruncateEffects RequestEffects ReachableStates WriteReadback
open WatchedRuns PlainNames SharedStrings

variable {md5 : Bytes → String} {sb : Superbloque} {s s' : Storage} {f t : String}

section Sellado

/-- The Tag is not committed, or all its logical blocks have links. -/
def Enlazado (s : Storage) (f t : String) : Prop :=
  ∀ tag, buscarTag s f t = some tag → tag.metadata.estado = .commited →
    ∀ bl ∈ tag.listaBlockLogicos, (s.disco.links (rutaBlockLogico f t bl.nombreBlock)).isSome

/-- Behind a Tag, no other Tag of its name is committed. -/
def DetrasAbierto (a b : Tag) : Prop := a.nameTag = b.nameTag → b.metadata.estado ≠ .commited

def Ordenado (s : Storage) : Prop := ∀ file ∈ s.listaFiles, file.tags.Pairwise DetrasAbierto

def Sellado (s : Storage) : Prop := (∀ f t, Enlazado s f t) ∧ Ordenado s

theorem enlazado_of_abierto (h : Abierto s f t) : Enlazado s f t := by
  intro tag htag hcommit
  obtain ⟨tag', htag', habierto⟩ := h
  obtain rfl := Option.some.inj (htag.symm.trans htag')
  exact absurd hcommit habierto

/-- Only the Tag an update is about has to be looked at again. -/
theorem enlazado_cambio (h : ∀ f t, Enlazado s f t) (hself : Enlazado s' f t)
    (htag : ∀ f' t', rutaTag f' t' ≠ rutaTag f t → buscarTag s' f' t' = buscarTag s f' t')
    (hlinks : ∀ r, directorio r ≠ rutaTag f t → s'.disco.links r = s.disco.links r) :
    ∀ f' t', Enlazado s' f' t' := by
  intro f' t'
  rcases eq_or_ne (rutaTag f' t') (rutaTag f t) with heq | hne
  · obtain ⟨rfl, rfl⟩ := Prod.mk.inj heq
    exact hself
  · intro tag htag' hcommit bl hbl
    rw [htag f' t' hne] at htag'
    rw [hlinks (rutaBlockLogico f' t' bl.nombreBlock) hne]
    exact h f' t' tag htag' hcommit bl hbl

theorem ordenado_modificarTags (h : Ordenado s) (f : String) {g : List Tag → List Tag}
    (hg : ∀ tags : List Tag, tags.Pairwise DetrasAbierto → (g tags).Pairwise DetrasAbierto) :
    Ordenado (modificarTags s f g) :=
  forall_modifyFirst h fun file hfile => hg file.tags (h file (mem_of_first hfile))

/-- The Tag found is behind no other of its name, so its state may change freely. -/
theorem ordenado_modificarTag (h : Ordenado s) (f t : String) {g : Tag → Tag}
    (hname : ∀ tag, (g tag).nameTag = tag.nameTag) : Ordenado (modificarTag s f t g) := by
  refine ordenado_modificarTags h f fun tags htags => pairwise_modifyFirst htags ?_ ?_
  · intro tag tag' ht ht' heq
    rw [hname, ht] at heq
    exact absurd heq ht'
  · intro tag tag' hdetras
    unfold DetrasAbierto
    rw [hname]
    exact hdetras

theorem ordenado_agregarTag (h : Ordenado s) (f : String) {tag : Tag}
    (habierto : tag.metadata.estado ≠ .commited) : Ordenado (agregarTag s f tag) := by
  refine ordenado_modificarTags h f fun tags htags => ?_
  refine List.pairwise_append.mpr ⟨htags, List.pairwise_singleton _ _, ?_⟩
  intro tag' _ nuevo hnuevo _
  obtain rfl := List.mem_singleton.mp hnuevo
  exact habierto

theorem ordenado_crearFile (h : Ordenado s) (f : String) : Ordenado (crearFile s f) := by
  intro file hfile
  rcases List.mem_append.mp hfile with hold | hnew
  · exact h file hold
  · obtain rfl := List.mem_singleton.mp hnew
    exact List.Pairwise.nil

theorem ordenado_asegurarFile (h : Ordenado s) (f : String) : Ordenado (asegurarFile s f) := by
  unfold asegurarFile
  split_ifs
  · exact h
  · exact ordenado_crearFile h f

/-- What a DELETE exposes is not committed. -/
theorem gemelo_abierto (h : Ordenado s) {tag tag' : Tag} (htag : buscarTag s f t = some tag)
    (hgemelo : gemelo s f t = some tag') : tag'.metadata.estado ≠ .commited := by
  obtain ⟨file, hfile, hfirst⟩ := buscarTag_eq_some htag
  obtain ⟨file', hfile', hfirst'⟩ := Option.bind_eq_some_iff.mp hgemelo
  obtain rfl := Option.some.inj (hfile.symm.trans hfile')
  refine rel_of_first_eraseFirst (h file (mem_of_first hfile)) hfirst hfirst' ?_
  rw [key_of_first hfirst, key_of_first hfirst']

theorem abierto_terminarTruncate (h : Abierto s f t) (tamanio : ℤ) :
    Abierto (terminarTruncate s f t tamanio) f t := by
  obtain ⟨tag, htag, habierto⟩ := h
  refine ⟨fijarTamanio tamanio tag, ?_, habierto⟩
  rw [buscarTag_terminarTruncate_self, htag, Option.map_some]

theorem links_ampliar_ne {nro : ℤ} {k : ℕ} {r : RutaBlock} (hr : directorio r ≠ rutaTag f t) :
    (ampliar s f t nro k).disco.links r = s.disco.links r :=
  Function.update_of_ne (fun heq => hr (congrArg directorio heq)) _ _

theorem links_reducir_ne {r : RutaBlock} (hr : directorio r ≠ rutaTag f t) :
    (reducir s f t).disco.links r = s.disco.links r := by
  unfold reducir
  split
  · rfl
  · exact Function.update_of_ne (fun heq => hr (congrArg directorio heq)) _ _

/-- A TAG adds links, so those there were stay. -/
theorem links_copiarTag_of_isSome {tag : Tag} {mc : RutaTag → Option ConfigText.Config}
    {r : RutaBlock} (hr : (s.disco.links r).isSome) :
    (copiarTag s f t tag mc).disco.links r = s.disco.links r := by
  refine if_neg ?_
  rintro ⟨-, -, hnone⟩
  rw [hnone] at hr
  simp at hr

theorem enlazado_copiarTag (h : ∀ f t, Enlazado s f t) (tag : Tag)
    (mc : RutaTag → Option ConfigText.Config) (f' t' : String) :
    Enlazado (copiarTag s f t tag mc) f' t' := by
  intro tag' htag' hcommit bl hbl
  rw [buscarTag_copiarTag] at htag'
  rcases Option.or_eq_some_iff.mp htag' with hold | ⟨_, hnew⟩
  · have hlink := h f' t' tag' hold hcommit bl hbl
    rw [links_copiarTag_of_isSome hlink]
    exact hlink
  · split_ifs at hnew
    obtain rfl := Option.some.inj hnew
    simp [copia] at hcommit

theorem enlazado_creado (h : ∀ f t, Enlazado s f t) (mc : RutaTag → Option ConfigText.Config)
    (f' t' : String) : Enlazado (creado s f t mc) f' t' := by
  intro tag' htag' hcommit bl hbl
  rw [buscarTag_creado] at htag'
  rcases Option.or_eq_some_iff.mp htag' with hold | ⟨_, hnew⟩
  · exact h f' t' tag' hold hcommit bl hbl
  · split_ifs at hnew
    obtain rfl := Option.some.inj hnew
    exact absurd hbl List.not_mem_nil

theorem enlazado_commiteado (h : ∀ f t, Enlazado s f t) {tag : Tag}
    (htag : buscarTag s f t = some tag) (index guardado : ConfigText.Config)
    (mc : RutaTag → Option ConfigText.Config) (hcontenidos : ∀ bl ∈ tag.listaBlockLogicos,
      (s.disco.getContenido (rutaBlockLogico f t bl.nombreBlock)).isSome) :
    ∀ f' t', Enlazado (commiteado s f t tag index guardado mc) f' t' := by
  have hname := nameTag_commitear tag.listaBlockLogicos
  refine enlazado_cambio (f := f) (t := t) h ?_ ?_ fun _ _ => rfl
  · intro tag' htag' _ bl hbl
    have hself : buscarTag (commiteado s f t tag index guardado mc) f t =
        (buscarTag s f t).map (commitear tag.listaBlockLogicos) :=
      buscarTag_modificarTag_self (cambiarIndice s index guardado) hname f t
    rw [hself, htag, Option.map_some] at htag'
    obtain rfl := Option.some.inj htag'
    obtain ⟨c, hc⟩ := Option.isSome_iff_exists.mp (hcontenidos bl hbl)
    obtain ⟨b, hb, _⟩ := Option.bind_eq_some_iff.mp hc
    exact Option.isSome_of_eq_some hb
  · exact fun f' t' hne => buscarTag_modificarTag_ne (cambiarIndice s index guardado) hname hne

theorem enlazado_eliminado (h : Sellado s) {tag : Tag} (htag : buscarTag s f t = some tag) :
    ∀ f' t', Enlazado (eliminado s f t tag) f' t' := by
  refine enlazado_cambio (f := f) (t := t) h.1 ?_ ?_ fun r hr => if_neg hr
  · intro tag' htag' hcommit
    have hself : buscarTag (eliminado s f t tag) f t = gemelo s f t :=
      buscarTag_quitarTag_self s f t
    rw [hself] at htag'
    exact absurd hcommit (gemelo_abierto h.2 htag htag')
  · exact fun f' t' hne => buscarTag_quitarTag_ne s hne

theorem conserva_sellado (md5 : Bytes → String) (sb : Superbloque) (x : Solicitud) :
    Conserva md5 sb Sellado x where
  crear := fun _ f t mc _ _ hQ _ =>
    ⟨enlazado_creado hQ.1 mc,
      ordenado_agregarTag (ordenado_crearFile hQ.2 f) f (by simp [tagNuevo])⟩
  ampliar := by
    intro s₁ f t _ nro k _ _ hQ habierto _
    refine ⟨enlazado_cambio hQ.1 (enlazado_of_abierto (habierto.ampliar nro k)) ?_ ?_, ?_⟩
    · exact fun f' t' hne => buscarTag_ampliar_ne hne nro k
    · exact fun r hr => links_ampliar_ne hr
    · exact ordenado_modificarTag hQ.2 f t (nameTag_agregarBloqueLogico _)
  reducir := by
    intro s₁ f t _ _ _ hQ habierto
    refine ⟨enlazado_cambio hQ.1 (enlazado_of_abierto habierto.reducir) ?_ ?_, ?_⟩
    · exact fun f' t' hne => buscarTag_reducir_ne s₁ hne
    · exact fun r hr => links_reducir_ne hr
    · unfold reducir
      split
      · exact hQ.2
      · exact ordenado_modificarTag hQ.2 f t nameTag_quitarUltimo
  terminar := by
    intro s₁ f t tamanio _ _ hQ habierto
    have hself := enlazado_of_abierto (abierto_terminarTruncate habierto tamanio)
    have hname := nameTag_fijarTamanio tamanio
    obtain ⟨mc, hmc⟩ := terminarTruncate_eq s₁ f t tamanio
    rw [hmc] at hself ⊢
    refine ⟨enlazado_cambio hQ.1 hself ?_ fun _ _ => rfl, ordenado_modificarTag hQ.2 f t hname⟩
    exact fun f' t' hne => buscarTag_modificarTag_ne s₁ hname hne
  copiar := fun _ _ _ f _ tag mc _ _ hQ _ => ⟨enlazado_copiarTag hQ.1 tag mc,
    ordenado_agregarTag (ordenado_asegurarFile hQ.2 f) f (by simp [copia])⟩
  commitear := fun _ f t tag index guardado mc _ _ hQ htag _ hcontenidos _ =>
    ⟨enlazado_commiteado hQ.1 htag index guardado mc hcontenidos,
      ordenado_modificarTag hQ.2 f t (nameTag_commitear tag.listaBlockLogicos)⟩
  escribir := fun _ _ _ _ _ _ _ _ _ hQ _ => hQ
  eliminar := fun _ f _ _ _ _ hQ htag => ⟨enlazado_eliminado hQ htag,
    ordenado_modificarTags hQ.2 f fun _ htags => htags.sublist sublist_eraseFirst⟩

theorem sellado_freshStart (sb : Superbloque) : Sellado (freshStart sb) := by
  obtain ⟨mc, hmc⟩ := freshStart_eq sb
  rw [hmc]
  constructor
  · intro f t tag htag _ bl hbl
    obtain ⟨file, hfile, rfl, hmem⟩ := mem_of_buscarTag htag
    have hname := nameTag_of_buscarTag htag
    obtain rfl := List.mem_singleton.mp hfile
    obtain rfl := List.mem_singleton.mp hmem
    obtain rfl := List.mem_singleton.mp hbl
    rw [← hname]
    have hlink : Function.update (fun _ => none) rutaInicial (some bloqueFisicoInicial)
        rutaInicial = some bloqueFisicoInicial := Function.update_self ..
    exact Option.isSome_of_eq_some hlink
  · intro file hfile
    obtain rfl := List.mem_singleton.mp hfile
    exact List.pairwise_singleton _ _

theorem sellado_alcanzable (h : Alcanzable md5 sb s) : Sellado s := by
  have hstep : ∀ s x s', Coherente sb s ∧ Sellado s → paso md5 sb s x = .ok s' →
      Coherente sb s' ∧ Sellado s' := by
    intro s x s' hs hop
    exact (conserva_sellado md5 sb x).paso hs.1 hs.2 hop
  exact (run_invariant hstep ⟨coherente_freshStart sb, sellado_freshStart sb⟩ h).2

end Sellado

section Corrida

/-- The Tag is found and committed. -/
def Cerrado (s : Storage) (f t : String) : Prop :=
  ∃ tag, buscarTag s f t = some tag ∧ tag.metadata.estado = .commited

/-- Estado, size and number of blocks of the Tag found. -/
def resumen (s : Storage) (f t : String) : Option (Estado × ℤ × ℕ) :=
  (buscarTag s f t).map fun tag =>
    (tag.metadata.estado, tag.metadata.tamanioFile, tag.listaBlockLogicos.length)

/-- What a client sees of the Tag is the same in both states. -/
structure SinCambios (sb : Superbloque) (s s' : Storage) (f t : String) : Prop where
  resumen_igual : resumen s' f t = resumen s f t
  lecturas : ∀ n, storageReadBlock sb s' f t n = storageReadBlock sb s f t n

/-- Each WRITE_BLOCK accepted leaves the bytes of block0000 as they are, or the
Tag has no block linked to block0000. -/
def RespetaCommit (sb : Superbloque) (f t : String) (s : Storage) : Solicitud → Prop
  | .writeBlock f' t' n contenido =>
    (∃ bl original, Escribible sb s f' t' n contenido bl original) →
      YaEscrito sb s f' t' n contenido ∨ ∀ m : ℕ, enlaceDe s f t m ≠ some bloqueFisicoInicial
  | _ => True

theorem SinCambios.refl (sb : Superbloque) (s : Storage) (f t : String) :
    SinCambios sb s s f t := ⟨rfl, fun _ => rfl⟩

theorem SinCambios.trans_iff {s₁ s₂ s₃ : Storage} (h : SinCambios sb s₁ s₂ f t) :
    SinCambios sb s₁ s₃ f t ↔ SinCambios sb s₂ s₃ f t := by
  constructor
  · intro h'
    exact ⟨h'.resumen_igual.trans h.resumen_igual.symm,
      fun n => (h'.lecturas n).trans (h.lecturas n).symm⟩
  · intro h'
    exact ⟨h'.resumen_igual.trans h.resumen_igual, fun n => (h'.lecturas n).trans (h.lecturas n)⟩

theorem SinCambios.cerrado (h : SinCambios sb s s' f t) (hcerrado : Cerrado s f t) :
    Cerrado s' f t := by
  obtain ⟨tag, htag, hcommit⟩ := hcerrado
  have hresumen := h.resumen_igual
  unfold resumen at hresumen
  rw [htag, Option.map_some] at hresumen
  obtain ⟨tag', htag', heq⟩ := Option.map_eq_some_iff.mp hresumen
  exact ⟨tag', htag', (Prod.mk.inj heq).1.trans hcommit⟩

/-- The Tag, the links of its blocks and all block files are those of `s`. -/
structure Intacto (s : Storage) (f t : String) (tag : Tag) (s' : Storage) : Prop where
  tag_igual : buscarTag s' f t = some tag
  enlaces : ∀ bl ∈ tag.listaBlockLogicos, s'.disco.links (rutaBlockLogico f t bl.nombreBlock) =
    s.disco.links (rutaBlockLogico f t bl.nombreBlock)
  archivos : s'.disco.physicalBlocks = s.disco.physicalBlocks

variable {tag : Tag}

theorem Intacto.sinCambios (hcoh : Coherente sb s) (hcoh' : Coherente sb s')
    (htag : buscarTag s f t = some tag) (h : Intacto s f t tag s') : SinCambios sb s s' f t := by
  constructor
  · unfold resumen
    rw [h.tag_igual, htag]
  · refine (storageReadBlock_eq_iff hcoh' hcoh f t f t).mpr fun n => ?_
    unfold contenidoDe enlaceDe
    rw [h.tag_igual, htag, h.archivos, Option.bind_some]
    cases hbl : tag.listaBlockLogicos[n]? with
    | none => rfl
    | some bl =>
      rw [Option.bind_some, Option.bind_some, h.enlaces bl (List.mem_of_getElem? hbl)]

/-- An update of one Tag that keeps the block files and the links outside its
directory keeps every other Tag intact. -/
theorem Intacto.cambio {s₁ s₂ : Storage} (h : Intacto s f t tag s₁) {f' t' : String}
    (hne : rutaTag f t ≠ rutaTag f' t') (htag : buscarTag s₂ f t = buscarTag s₁ f t)
    (hlinks : ∀ r, directorio r ≠ rutaTag f' t' → s₂.disco.links r = s₁.disco.links r)
    (harchivos : s₂.disco.physicalBlocks = s₁.disco.physicalBlocks) : Intacto s f t tag s₂ where
  tag_igual := htag.trans h.tag_igual
  enlaces := fun bl hbl =>
    (hlinks (rutaBlockLogico f t bl.nombreBlock) hne).trans (h.enlaces bl hbl)
  archivos := harchivos.trans h.archivos

theorem ne_of_abierto {s₁ : Storage} (htag : buscarTag s₁ f t = some tag)
    (hcommit : tag.metadata.estado = .commited) {f' t' : String} (habierto : Abierto s₁ f' t') :
    rutaTag f t ≠ rutaTag f' t' := by
  intro heq
  obtain ⟨rfl, rfl⟩ := Prod.mk.inj heq
  obtain ⟨tag', htag', habierto⟩ := habierto
  obtain rfl := Option.some.inj (htag.symm.trans htag')
  exact habierto hcommit

/-- Of the requests that can change a committed Tag, DELETE and WRITE_BLOCK are all. -/
theorem conserva_intacto (hcommit : tag.metadata.estado = .commited)
    (hlinks : ∀ bl ∈ tag.listaBlockLogicos,
      (s.disco.links (rutaBlockLogico f t bl.nombreBlock)).isSome) {x : Solicitud}
    (hdelete : x ≠ .delete f t) (hwrite : ∀ f' t' n contenido, x ≠ .writeBlock f' t' n contenido) :
    Conserva md5 sb (Intacto s f t tag) x where
  crear := by
    intro s₁ f' t' mc _ _ hQ _
    refine ⟨?_, hQ.enlaces, hQ.archivos⟩
    rw [buscarTag_creado, hQ.tag_igual, Option.some_or]
  ampliar := by
    intro s₁ f' t' _ nro k _ _ hQ habierto _
    have hne := ne_of_abierto hQ.tag_igual hcommit habierto
    exact hQ.cambio hne (buscarTag_ampliar_ne hne nro k) (fun _ hr => links_ampliar_ne hr) rfl
  reducir := by
    intro s₁ f' t' _ _ _ hQ habierto
    have hne := ne_of_abierto hQ.tag_igual hcommit habierto
    refine hQ.cambio hne (buscarTag_reducir_ne s₁ hne) (fun _ hr => links_reducir_ne hr) ?_
    unfold reducir
    split <;> rfl
  terminar := by
    intro s₁ f' t' tamanio _ _ hQ habierto
    have hne := ne_of_abierto hQ.tag_igual hcommit habierto
    obtain ⟨mc, hmc⟩ := terminarTruncate_eq s₁ f' t' tamanio
    rw [hmc]
    exact hQ.cambio hne (buscarTag_modificarTag_ne s₁ (nameTag_fijarTamanio tamanio) hne)
      (fun _ _ => rfl) rfl
  copiar := by
    intro s₁ fo tgo f' t' origen mc _ _ hQ _
    refine ⟨?_, fun bl hbl => ?_, hQ.archivos⟩
    · rw [buscarTag_copiarTag, hQ.tag_igual, Option.some_or]
    · have hlink := hQ.enlaces bl hbl
      rw [links_copiarTag_of_isSome (hlink ▸ hlinks bl hbl), hlink]
  commitear := by
    intro s₁ f' t' tag' index guardado mc _ _ hQ htag' habierto _ _
    have hne := ne_of_abierto hQ.tag_igual hcommit ⟨tag', htag', habierto⟩
    exact hQ.cambio hne (buscarTag_modificarTag_ne (cambiarIndice s₁ index guardado)
      (nameTag_commitear tag'.listaBlockLogicos) hne) (fun _ _ => rfl) rfl
  escribir := fun _ f' t' n contenido _ _ heq => absurd heq (hwrite f' t' n contenido)
  eliminar := by
    intro s₁ f' t' tag' heq _ hQ _
    have hne : rutaTag f t ≠ rutaTag f' t' := by
      intro hruta
      obtain ⟨rfl, rfl⟩ := Prod.mk.inj hruta
      exact hdelete heq
    exact hQ.cambio hne (buscarTag_quitarTag_ne s₁ hne) (fun _ hr => if_neg hr) rfl

/-- A write that is accepted is seen through the Tag when it changes block0000
and the Tag has a block linked there. -/
theorem sinCambios_escribirCero_iff (md5 : Bytes → String) (h : Coherente sb s) {f' t' : String}
    {n : ℕ} {contenido original : Bytes} {bl : BlockLogico}
    (he : Escribible sb s f' t' n contenido bl original) :
    SinCambios sb s (escribirCero md5 sb s original contenido) f t ↔
      YaEscrito sb s f' t' n contenido ∨ ∀ m : ℕ, enlaceDe s f t m ≠ some bloqueFisicoInicial := by
  have hlectura := lectura_escribirCero_iff md5 h he f t
  constructor
  · intro hsin
    by_cases hya : YaEscrito sb s f' t' n contenido
    · exact Or.inl hya
    · refine Or.inr fun m => ?_
      rcases (hlectura m).mp (hsin.lecturas m) with hya' | hneg | hlink
      · exact absurd hya' hya
      · omega
      · exact hlink
  · intro hcond
    refine ⟨rfl, fun m => (hlectura m).mpr ?_⟩
    rcases hcond with hya | hlink
    · exact Or.inl hya
    · exact Or.inr (Or.inr (hlink m.toNat))

theorem sinCambios_paso_iff {x : Solicitud} (hdelete : x ≠ .delete f t) (h : Coherente sb s)
    (hsellado : Sellado s) (hcerrado : Cerrado s f t) (hop : paso md5 sb s x = .ok s') :
    SinCambios sb s s' f t ↔ RespetaCommit sb f t s x := by
  by_cases hwrite : ∃ f' t' n contenido, x = .writeBlock f' t' n contenido
  · obtain ⟨f', t', n, contenido, rfl⟩ := hwrite
    rcases paso_writeBlock h hop with ⟨rfl, hrechazo⟩ | ⟨bl, original, he, rfl⟩
    · refine iff_of_true (SinCambios.refl sb s' f t) ?_
      rintro ⟨bl, original, he⟩
      exact absurd he (hrechazo bl original)
    · rw [sinCambios_escribirCero_iff md5 h he]
      exact ⟨fun hcond _ => hcond, fun hcond => hcond ⟨bl, original, he⟩⟩
  · obtain ⟨tag, htag, hcommit⟩ := hcerrado
    have hc : Conserva md5 sb (Intacto s f t tag) x :=
      conserva_intacto hcommit (hsellado.1 f t tag htag hcommit) hdelete
        fun f' t' n contenido heq => hwrite ⟨f', t', n, contenido, heq⟩
    obtain ⟨hcoh', hintacto⟩ := hc.paso h ⟨htag, fun _ _ => rfl, rfl⟩ hop
    refine iff_of_true (hintacto.sinCambios h hcoh' htag) ?_
    unfold RespetaCommit
    split
    · next f' t' n contenido => exact absurd ⟨f', t', n, contenido, rfl⟩ hwrite
    · trivial

/-- Of the values of the strings alone. -/
theorem sinCambios_valores_iff (h : Alcanzable md5 sb s) (hcerrado : Cerrado s f t)
    (xs : List Solicitud) (hxs : .delete f t ∉ xs) :
    AlongRun (paso md5 sb) (fun s' => SinCambios sb s s' f t) s xs ↔
      EachStep (paso md5 sb) (RespetaCommit sb f t) s xs := by
  refine alongRun_iff_eachStep (I := fun s => Coherente sb s ∧ Sellado s)
    (A := fun x => x ≠ .delete f t) ?_ ?_ ⟨coherente_alcanzable h, sellado_alcanzable h⟩
    (SinCambios.refl sb s f t) xs fun x hx heq => hxs (heq ▸ hx)
  · rintro s₁ x s₂ hx ⟨hcoh, hsellado⟩ hsin hop
    rw [hsin.trans_iff]
    exact sinCambios_paso_iff hx hcoh hsellado (hsin.cerrado hcerrado) hop
  · rintro s₁ x s₂ _ ⟨hcoh, hsellado⟩ _ _ hop
    exact (conserva_sellado md5 sb x).paso hcoh hsellado hop

/-- A committed Tag looks the same all along a run of plain requests without its DELETE just
when no request uses a freed string and each write leaves block0000 as it is or the Tag is
not linked there. -/
theorem sinCambios_alongRun_iff {raiz : Bytes} {c : Vigilado}
    (h : AlcanzableVigilado md5 sb raiz c) (hcerrado : Cerrado c.state f t)
    (xs : List (Pedido raiz)) (hxs : .delete f t ∉ xs.unattach) :
    AlongRun (pasoVigilado md5 sb)
        (fun c' => c'.known = true ∧ SinCambios sb c.state c'.state f t) c xs.unattach ↔
      EachStep (pasoVigilado md5 sb)
        (fun c' x => SinTocarLiberadas md5 sb c' x ∧ RespetaCommit sb f t c'.state x)
        c xs.unattach :=
  alongRun_watched_iff_eachStep h.known
    (sinCambios_valores_iff h.alcanzable hcerrado xs.unattach hxs)

def pedidosBase : List (Pedido raizChica) :=
  [Solicitud.tag "initial_file" "BASE" "a" "b", .truncate "a" "b" 0].attachWith
    (Llana raizChica) (by decide)

theorem sinCambios_alongRun_iff_base :
    AlongRun (pasoVigilado hashLegible superbloqueChico) (fun c' => c'.known = true ∧
        SinCambios superbloqueChico (inicio superbloqueChico).state c'.state "initial_file" "BASE")
        (inicio superbloqueChico) pedidosBase.unattach ↔
      EachStep (pasoVigilado hashLegible superbloqueChico)
        (fun c' x => SinTocarLiberadas hashLegible superbloqueChico c' x ∧
          RespetaCommit superbloqueChico "initial_file" "BASE" c'.state x)
        (inicio superbloqueChico) pedidosBase.unattach :=
  sinCambios_alongRun_iff ⟨rfl, [], rfl⟩ ⟨tagInicial superbloqueChico, by decide, rfl⟩ _
    (by simp [pedidosBase])

/-- Writing a copy of BASE changes what BASE reads. -/
theorem not_sinCambios_write : ¬ ∀ md5 sb s s' f t, Alcanzable md5 sb s → Cerrado s f t →
    ∀ xs, .delete f t ∉ xs → run (paso md5 sb) s xs = .ok s' → SinCambios sb s s' f t := by
  intro h
  have hsin := h hashLegible superbloqueChico _ _ "initial_file" "BASE"
    (alcanzable_estadoTras hashLegible superbloqueChico [])
    ⟨tagInicial superbloqueChico, by decide, rfl⟩
    [.tag "initial_file" "BASE" "a" "b", .writeBlock "a" "b" 0 [88]] (by simp) rfl
  exact absurd (hsin.lecturas 0) (by decide)

end Corrida

end MasterOfFiles.CommittedTags
