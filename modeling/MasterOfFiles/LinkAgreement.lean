import Mathlib.Data.List.Nodup
import MasterOfFiles.PlainNames
import MasterOfFiles.ReachableStates

/-!
The association a logical block has in memory against the hard link it has on
disk. TAG makes both to block0000 and COMMIT never moves either; TRUNCATE links
a free block and records block0000, and a DELETE that exposes a second Tag of
the same name leaves that Tag's blocks without links. The requests are those whose
names rm takes as they are.
-/
namespace MasterOfFiles.LinkAgreement

open KeyedLists BlockNames StorageState StorageFiles StorageOperations PartialRuns
open TagLookups BlockZero TruncateEffects RequestEffects ReachableStates PlainNames

variable {md5 : ByteBuffers.Bytes → String} {sb : Superbloque} {s s' : Storage} {f t : String}

/-- Every logical block of every Tag that is found is linked to the block its
association names. -/
def LinksAgree (s : Storage) : Prop :=
  ∀ f t tag, buscarTag s f t = some tag → ∀ bl ∈ tag.listaBlockLogicos,
    s.disco.links (rutaBlockLogico f t bl.nombreBlock) = some bl.bloqueFisicoAsociado

/-- What a run without disagreements keeps beside: all links are to block0000,
and a Tag's logical blocks have different names. -/
structure Alineado (s : Storage) : Prop where
  enlaces : ∀ r b, s.disco.links r = some b → b = bloqueFisicoInicial
  nombres : TodoTag (fun _ tag => (tag.listaBlockLogicos.map BlockLogico.nombreBlock).Nodup) s

def Acorde (s : Storage) : Prop := LinksAgree s ∧ Alineado s

section Modificaciones

/-- Updates of a Tag that keep its list keep agreement. -/
theorem acorde_modificarTag (h : Acorde s) (f t : String) {g : Tag → Tag}
    (hname : ∀ tag, (g tag).nameTag = tag.nameTag)
    (hlista : ∀ tag, buscarTag s f t = some tag →
      (g tag).listaBlockLogicos = tag.listaBlockLogicos) :
    Acorde (modificarTag s f t g) := by
  obtain ⟨hlinks, halineado⟩ := h
  constructor
  · intro f' t' tag' htag'
    rcases eq_or_ne (rutaTag f' t') (rutaTag f t) with heq | hne
    · obtain ⟨rfl, rfl⟩ := Prod.mk.inj heq
      rw [buscarTag_modificarTag_self s hname] at htag'
      obtain ⟨tag, htag, rfl⟩ := Option.map_eq_some_iff.mp htag'
      rw [hlista tag htag]
      exact hlinks f' t' tag htag
    · rw [buscarTag_modificarTag_ne s hname hne] at htag'
      exact hlinks f' t' tag' htag'
  · refine ⟨halineado.enlaces, halineado.nombres.modificarTag fun tag htag hnodup => ?_⟩
    rw [hlista tag htag]
    exact hnodup

/-- Where the blocks of the Tag have different names, the last one alone is unlinked. -/
theorem linksAgree_reducir (hlinks : LinksAgree s) {tag : Tag}
    (htag : buscarTag s f t = some tag)
    (hnodup : (tag.listaBlockLogicos.map BlockLogico.nombreBlock).Nodup) {bl : BlockLogico}
    (hlast : tag.listaBlockLogicos.getLast? = some bl)
    (hdisco : (reducir s f t).disco.links =
      Function.update s.disco.links (rutaBlockLogico f t bl.nombreBlock) none) :
    LinksAgree (reducir s f t) := by
  obtain ⟨bls, hbls⟩ := List.getLast?_eq_some_iff.mp hlast
  rw [hbls, List.map_append, List.map_singleton, List.nodup_append_comm,
    List.singleton_append, List.nodup_cons] at hnodup
  intro f' t' tag' htag' bl' hbl'
  rw [hdisco]
  rcases eq_or_ne (rutaTag f' t') (rutaTag f t) with heq | hne
  · obtain ⟨rfl, rfl⟩ := Prod.mk.inj heq
    rw [buscarTag_reducir_self, htag, Option.map_some] at htag'
    obtain rfl := Option.some.inj htag'
    rw [quitarUltimo, hbls, List.dropLast_concat] at hbl'
    have hname : bl'.nombreBlock ≠ bl.nombreBlock := fun heq' =>
      hnodup.1 (heq' ▸ List.mem_map_of_mem hbl')
    have hruta : rutaBlockLogico f' t' bl'.nombreBlock ≠
        rutaBlockLogico f' t' bl.nombreBlock := fun heq' =>
      hname (Prod.mk.inj (Prod.mk.inj heq').2).2
    rw [Function.update_of_ne hruta]
    exact hlinks f' t' tag htag bl' (hbls ▸ List.mem_append_left _ hbl')
  · rw [buscarTag_reducir_ne s hne] at htag'
    rw [Function.update_of_ne (rutaBlockLogico_ne hne _ _)]
    exact hlinks f' t' tag' htag' bl' hbl'

theorem acorde_reducir (h : Acorde s) (f t : String) :
    Acorde (reducir s f t) := by
  cases htag : buscarTag s f t with
  | none =>
    unfold reducir
    rw [htag]
    exact h
  | some tag =>
    cases hlast : tag.listaBlockLogicos.getLast? with
    | none =>
      rw [reducir_vacio htag hlast]
      exact h
    | some bl =>
      obtain ⟨hlinks, halineado⟩ := h
      have hdisco : (reducir s f t).disco.links =
          Function.update s.disco.links (rutaBlockLogico f t bl.nombreBlock) none := by
        rw [reducir_eq htag hlast]
        rfl
      refine ⟨linksAgree_reducir hlinks htag (halineado.nombres.of_buscarTag htag) hlast hdisco,
        ?_, ?_⟩
      · intro r b hr
        rw [hdisco] at hr
        rcases eq_or_ne r (rutaBlockLogico f t bl.nombreBlock) with rfl | hne
        · rw [Function.update_self] at hr
          simp at hr
        · rw [Function.update_of_ne hne] at hr
          exact halineado.enlaces r b hr
      · rw [reducir_eq htag hlast]
        refine halineado.nombres.modificarTag (g := quitarUltimo) fun tag' _ hnodup' => ?_
        exact hnodup'.sublist ((List.dropLast_sublist _).map _)

theorem acorde_terminarTruncate (h : Acorde s) (f t : String) (tamanio : ℤ) :
    Acorde (terminarTruncate s f t tamanio) := by
  obtain ⟨mc, hmc⟩ := terminarTruncate_eq s f t tamanio
  have hmodificar := acorde_modificarTag h f t (nameTag_fijarTamanio tamanio) fun _ _ => rfl
  rw [hmc]
  exact ⟨hmodificar.1, hmodificar.2.enlaces, hmodificar.2.nombres⟩

/-- The copy a TAG makes agrees, whatever links its directory already had. -/
theorem acorde_copiarTag (hcoh : Coherente sb s) (h : Acorde s) {fo tgo : String} {tag : Tag}
    (htag : buscarTag s fo tgo = some tag) (f t : String)
    (mc : RutaTag → Option ConfigText.Config) : Acorde (copiarTag s f t tag mc) := by
  obtain ⟨hlinks, halineado⟩ := h
  have hdisco : (copiarTag s f t tag mc).disco.links = enlazarCero s.disco.links (rutaTag f t)
      (tag.listaBlockLogicos.map BlockLogico.nombreBlock) := rfl
  refine ⟨?_, ?_, ?_⟩
  · intro f' t' tag' htag' bl hbl
    rw [hdisco]
    rw [buscarTag_copiarTag] at htag'
    unfold enlazarCero
    rcases Option.or_eq_some_iff.mp htag' with hold | ⟨_, hnew⟩
    · have hold' := hlinks f' t' tag' hold bl hbl
      rw [if_neg (by simp [hold']), hold']
    · split_ifs at hnew with heq
      obtain ⟨rfl, rfl⟩ := heq
      obtain rfl := Option.some.inj hnew
      have hcero : bl.bloqueFisicoAsociado = bloqueFisicoInicial :=
        (hcoh.tag_cero htag).asociados bl hbl
      rw [hcero]
      cases hlink : s.disco.links (rutaBlockLogico f' t bl.nombreBlock) with
      | none => exact if_pos ⟨rfl, List.mem_map_of_mem hbl, rfl⟩
      | some b => rw [if_neg (by simp), halineado.enlaces _ b hlink]
  · intro r b hr
    rw [hdisco] at hr
    unfold enlazarCero at hr
    split_ifs at hr
    · exact (Option.some.inj hr).symm
    · exact halineado.enlaces r b hr
  · have hnodup := halineado.nombres.of_buscarTag htag
    exact (halineado.nombres.asegurarFile f).agregarTag hnodup

theorem acorde_creado (h : Acorde s) (f t : String) (mc : RutaTag → Option ConfigText.Config) :
    Acorde (creado s f t mc) := by
  obtain ⟨hlinks, halineado⟩ := h
  refine ⟨?_, halineado.enlaces, ?_⟩
  · intro f' t' tag' htag' bl hbl
    rw [buscarTag_creado] at htag'
    rcases Option.or_eq_some_iff.mp htag' with hold | ⟨_, hnew⟩
    · exact hlinks f' t' tag' hold bl hbl
    · split_ifs at hnew
      obtain rfl := Option.some.inj hnew
      exact absurd hbl List.not_mem_nil
  · exact (halineado.nombres.crearFile f).agregarTag List.nodup_nil

end Modificaciones

section Corrida

/-- A TRUNCATE makes no link, and a DELETE exposes no Tag with blocks. -/
def MantieneEnlaces (sb : Superbloque) (s : Storage) : Solicitud → Prop
  | .truncate f t tamanio => ∀ tag, Truncable sb s f t tamanio tag →
      ∀ i < bloquesQueAgrega sb tag tamanio, ∀ k,
        ¬ Ampliable sb s f t (cantidadBloques sb tag.metadata.tamanioFile + i) k
  | .delete f t => ∀ tag, gemelo s f t = some tag → tag.listaBlockLogicos = []
  | _ => True

/-- A logical block is linked elsewhere than memory says. -/
def Roto (s : Storage) (f t : String) : Prop :=
  ∃ tag, buscarTag s f t = some tag ∧ ∃ bl ∈ tag.listaBlockLogicos, ∃ b,
    s.disco.links (rutaBlockLogico f t bl.nombreBlock) = some b ∧ b ≠ bloqueFisicoInicial

theorem not_linksAgree_of_roto (h : Coherente sb s) (hroto : Roto s f t) : ¬ LinksAgree s := by
  obtain ⟨tag, htag, bl, hbl, b, hb, hne⟩ := hroto
  intro hlinks
  have hlink := hlinks f t tag htag bl hbl
  rw [hb, (h.tag_cero htag).asociados bl hbl] at hlink
  exact hne (Option.some.inj hlink)

theorem roto_ampliar (h : Coherente sb s) (hvisible : (buscarTag s f t).isSome) {nro : ℤ} {k : ℕ}
    (ha : Ampliable sb s f t nro k) : Roto (ampliar s f t nro k) f t := by
  obtain ⟨tag, htag⟩ := Option.isSome_iff_exists.mp hvisible
  refine ⟨_, by rw [buscarTag_ampliar_self, htag, Option.map_some],
    ⟨crearNombreBloqueLogico nro, "block0000"⟩, ?_, nombreBloqueFisico k, ?_, ?_⟩
  · exact List.mem_append_right _ (List.mem_singleton.mpr rfl)
  · exact Function.update_self ..
  · intro hzero
    obtain rfl := (nombreBloqueFisico_eq_inicial_iff k).mp hzero
    have hbit := bit_of_libre ha.libre
    rw [h.bit_cero] at hbit
    simp at hbit

theorem roto_ampliar_of_roto (hroto : Roto s f t) {nro : ℤ} {k : ℕ}
    (ha : Ampliable sb s f t nro k) : Roto (ampliar s f t nro k) f t := by
  obtain ⟨tag, htag, bl, hbl, b, hb, hne⟩ := hroto
  refine ⟨_, by rw [buscarTag_ampliar_self, htag, Option.map_some], bl, ?_, b, ?_, hne⟩
  · exact List.mem_append_left _ hbl
  · change Function.update s.disco.links _ _ _ = some b
    rw [Function.update_of_ne, hb]
    intro heq
    rw [heq, ha.sin_enlace] at hb
    simp at hb

theorem roto_terminarTruncate (hroto : Roto s f t) (tamanio : ℤ) :
    Roto (terminarTruncate s f t tamanio) f t := by
  obtain ⟨tag, htag, bl, hbl, b, hb, hne⟩ := hroto
  refine ⟨fijarTamanio tamanio tag, ?_, bl, hbl, b, ?_, hne⟩
  · rw [buscarTag_terminarTruncate_self, htag, Option.map_some]
  · obtain ⟨mc, hmc⟩ := terminarTruncate_eq s f t tamanio
    rw [hmc]
    exact hb

/-- TRUNCATE keeps agreement when it makes no link, and only then. -/
theorem acorde_truncate (h : Coherente sb s) (hacorde : Acorde s) {tamanio c : ℤ}
    (hop : operacionTruncateFile sb s f t tamanio = .ok (s', c)) :
    (MantieneEnlaces sb s (.truncate f t tamanio) → Acorde s') ∧
      (LinksAgree s' → MantieneEnlaces sb s (.truncate f t tamanio)) := by
  rcases truncate_casos h hop with ⟨rfl, hn⟩ | ⟨tag, ht, ⟨_, hs'⟩ | ⟨_, rfl⟩⟩
  · exact ⟨fun _ => hacorde, fun _ tag ht' => absurd ht' (hn tag)⟩
  · constructor
    · intro hmantiene
      have hsame : agrandado sb s f t tag tamanio = s :=
        agrandar_of_not_ampliable h _ _ (hmantiene tag ht)
      rw [hsame] at hs'
      rcases hs' with rfl | rfl
      · exact hacorde
      · exact acorde_terminarTruncate hacorde f t tamanio
    · intro hlinks tag' ht' i hi k ha
      obtain rfl := ht.unico ht'
      have hroto : Roto (agrandado sb s f t tag' tamanio) f t :=
        agrandar_of_ampliable (Q := fun s₂ => Roto s₂ f t) h ht.abierto
          (fun nro k ha => roto_ampliar h ht.abierto.visible ha)
          (fun _ _ _ _ _ hroto ha => roto_ampliar_of_roto hroto ha) _ _ ⟨i, hi, k, ha⟩
      have hcoh : Coherente sb (agrandado sb s f t tag' tamanio) :=
        (agrandar_regla (Q := fun _ => True) h ht.abierto trivial
          (fun _ _ _ _ _ _ _ => trivial) _ _).1
      rcases hs' with rfl | rfl
      · exact not_linksAgree_of_roto hcoh hroto hlinks
      · exact not_linksAgree_of_roto (coherente_terminarTruncate hcoh f t tamanio)
          (roto_terminarTruncate hroto tamanio) hlinks
  · have hreduce := (reducirVeces_regla h ht.abierto hacorde
      (fun s₁ _ _ hacorde₁ => acorde_reducir hacorde₁ f t) (bloquesQueLibera sb tag tamanio)).2.2
    refine ⟨fun _ => acorde_terminarTruncate hreduce f t tamanio, ?_⟩
    intro _ tag' ht' i hi
    obtain rfl := ht.unico ht'
    unfold bloquesQueAgrega at hi
    omega

/-- A DELETE keeps agreement when the Tag it exposes has no blocks, and only then. -/
theorem acorde_eliminado (sb : Superbloque) (hacorde : Acorde s) (f t : String) (tag : Tag) :
    (MantieneEnlaces sb s (.delete f t) → Acorde (eliminado s f t tag)) ∧
      (LinksAgree (eliminado s f t tag) → MantieneEnlaces sb s (.delete f t)) := by
  obtain ⟨hlinks, halineado⟩ := hacorde
  have hself : buscarTag (eliminado s f t tag) f t = gemelo s f t :=
    buscarTag_quitarTag_self s f t
  constructor
  · intro hmantiene
    refine ⟨?_, ?_, ?_⟩
    · intro f' t' tag' htag' bl hbl
      rcases eq_or_ne (rutaTag f' t') (rutaTag f t) with heq | hne
      · obtain ⟨rfl, rfl⟩ := Prod.mk.inj heq
        rw [hself] at htag'
        rw [hmantiene tag' htag'] at hbl
        exact absurd hbl List.not_mem_nil
      · have hotro : buscarTag (eliminado s f t tag) f' t' = buscarTag s f' t' :=
          buscarTag_quitarTag_ne s hne
        rw [hotro] at htag'
        rw [links_eliminado, directorio_rutaBlockLogico, if_neg hne]
        exact hlinks f' t' tag' htag' bl hbl
    · intro r b hr
      rw [links_eliminado] at hr
      split_ifs at hr
      exact halineado.enlaces r b hr
    · exact halineado.nombres.quitarTag f t
  · intro hlinks' tag' htag'
    refine List.eq_nil_iff_forall_not_mem.mpr fun bl hbl => ?_
    have hlink := hlinks' f t tag' (hself.trans htag') bl hbl
    rw [links_eliminado, directorio_rutaBlockLogico, if_pos rfl] at hlink
    simp at hlink

theorem gemelo_of_none (hnone : buscarTag s f t = none) : gemelo s f t = none := by
  unfold gemelo
  cases hfile : buscarFile s f with
  | none => rfl
  | some file =>
    rw [buscarTag, hfile, Option.bind_some, first_eq_none_iff] at hnone
    rw [Option.bind_some, first_eq_none_iff]
    exact fun hmem => hnone ((sublist_eraseFirst.map Tag.nameTag).subset hmem)

theorem acorde_paso {x : Solicitud} (h : Coherente sb s) (hacorde : Acorde s)
    (hop : paso md5 sb s x = .ok s') :
    (MantieneEnlaces sb s x → Acorde s') ∧ (LinksAgree s' → MantieneEnlaces sb s x) := by
  by_cases htruncate : ∃ f t tamanio, x = .truncate f t tamanio
  · obtain ⟨f, t, tamanio, rfl⟩ := htruncate
    obtain ⟨c, hop⟩ := paso_truncate hop
    exact acorde_truncate h hacorde hop
  · by_cases hdelete : ∃ f t, x = .delete f t
    · obtain ⟨f, t, rfl⟩ := hdelete
      rcases paso_delete h hop with ⟨rfl, hnone⟩ | ⟨tag, htag, rfl⟩
      · refine ⟨fun _ => hacorde, fun _ tag htag => ?_⟩
        rw [gemelo_of_none hnone] at htag
        simp at htag
      · exact acorde_eliminado sb hacorde f t tag
    · have hc : Conserva md5 sb Acorde x := {
        crear := fun _ f t mc _ _ hQ _ => acorde_creado hQ f t mc
        ampliar := fun _ f t tamanio _ _ heq => absurd ⟨f, t, tamanio, heq⟩ htruncate
        reducir := fun _ f t tamanio heq => absurd ⟨f, t, tamanio, heq⟩ htruncate
        terminar := fun _ f t tamanio heq => absurd ⟨f, t, tamanio, heq⟩ htruncate
        copiar := fun _ _ _ f t _ mc _ hcoh hQ htag => acorde_copiarTag hcoh hQ htag f t mc
        commitear := by
          intro s₁ f t tag _ _ _ _ _ hQ htag _ _ _
          have hmodificar := acorde_modificarTag hQ f t
            (nameTag_commitear tag.listaBlockLogicos) fun tag' htag' => by
              obtain rfl := Option.some.inj (htag.symm.trans htag')
              rfl
          exact ⟨hmodificar.1, hmodificar.2.enlaces, hmodificar.2.nombres⟩
        escribir := fun _ _ _ _ _ _ _ _ _ hQ _ => ⟨hQ.1, hQ.2.enlaces, hQ.2.nombres⟩
        eliminar := fun _ f t _ heq => absurd ⟨f, t, heq⟩ hdelete }
      refine ⟨fun _ => (hc.paso h hacorde hop).2, fun _ => ?_⟩
      unfold MantieneEnlaces
      split
      · next f t tamanio => exact absurd ⟨f, t, tamanio, rfl⟩ htruncate
      · next f t => exact absurd ⟨f, t, rfl⟩ hdelete
      · trivial

theorem acorde_freshStart (sb : Superbloque) : Acorde (freshStart sb) := by
  obtain ⟨mc, hmc⟩ := freshStart_eq sb
  refine ⟨?_, ?_, ?_⟩
  · rw [hmc]
    intro f t tag htag bl hbl
    obtain ⟨file, hfile, rfl, hmem⟩ := mem_of_buscarTag htag
    have hname := nameTag_of_buscarTag htag
    obtain rfl := List.mem_singleton.mp hfile
    obtain rfl := List.mem_singleton.mp hmem
    obtain rfl := List.mem_singleton.mp hbl
    rw [← hname]
    change Function.update (fun _ => none) rutaInicial (some bloqueFisicoInicial) rutaInicial =
      some bloqueFisicoInicial
    rw [Function.update_self]
  · exact fun r b hr => (links_freshStart hr).2
  · rw [hmc]
    intro file hfile tag htag
    obtain rfl := List.mem_singleton.mp hfile
    obtain rfl := List.mem_singleton.mp htag
    exact List.nodup_singleton _

/-- Memory and disk agree all along a run of plain requests just when no TRUNCATE of the
run links a block and no DELETE exposes a second Tag that has blocks. -/
theorem linksAgree_alongRun_iff (md5 : ByteBuffers.Bytes → String) (sb : Superbloque)
    {raiz : ByteBuffers.Bytes} (xs : List (Pedido raiz)) :
    AlongRun (paso md5 sb) LinksAgree (freshStart sb) xs.unattach ↔
      EachStep (paso md5 sb) (MantieneEnlaces sb) (freshStart sb) xs.unattach := by
  obtain ⟨hlinks, halineado⟩ := acorde_freshStart sb
  refine alongRun_iff_eachStep (I := fun s => Coherente sb s ∧ Alineado s) (A := fun _ => True)
    ?_ ?_ ⟨coherente_freshStart sb, halineado⟩ hlinks xs.unattach fun _ _ => trivial
  · rintro s x s' _ ⟨hcoh, halineado⟩ hlinks hop
    obtain ⟨hmantiene, hrompe⟩ := acorde_paso hcoh ⟨hlinks, halineado⟩ hop
    exact ⟨hrompe, fun hc => (hmantiene hc).1⟩
  · rintro s x s' _ ⟨hcoh, halineado⟩ hlinks hc hop
    exact ⟨coherente_paso hcoh hop, ((acorde_paso hcoh ⟨hlinks, halineado⟩ hop).1 hc).2⟩

/-- The first block a Tag grows by is recorded at block0000 and linked to block0001. -/
theorem not_linksAgree_truncate : ¬ ∀ md5 sb s, Alcanzable md5 sb s → LinksAgree s := by
  intro h
  have hlinks := h hashLegible superbloqueChico _ (alcanzable_estadoTras hashLegible
    superbloqueChico [.create "a" "b", .truncate "a" "b" 2])
  have hlink := hlinks "a" "b" ⟨"b", ⟨2, ["0"], .workInProgress⟩, [⟨"000000.dat", "block0000"⟩]⟩
    (by decide) ⟨"000000.dat", "block0000"⟩ (by decide)
  exact absurd hlink (by decide)

end Corrida

end MasterOfFiles.LinkAgreement
