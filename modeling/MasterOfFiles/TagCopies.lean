import MasterOfFiles.WriteReadback

/-!
What TAG copies. The copy's links are made from the source's associations in
memory, all of them block0000, so the copy reads as block0000 does and agrees
with the source exactly where the source's own links read the same.
-/
namespace MasterOfFiles.TagCopies

open KeyedLists ByteBuffers BlockNames StorageState StorageFiles StorageOperations
open TagLookups BlockZero RequestEffects ReachableStates WriteReadback

variable {md5 : Bytes → String} {sb : Superbloque} {s s' : Storage} {fo tgo f t : String}

/-- After the TAG the destination is an open copy that reads as the source did,
and the source is as it was. -/
structure CopiaFiel (sb : Superbloque) (s s' : Storage) (fo tgo f t : String) : Prop where
  copiado : ∃ origen destino, buscarTag s fo tgo = some origen ∧
    buscarTag s' f t = some destino ∧ destino.metadata.estado = .workInProgress ∧
    destino.metadata.tamanioFile = origen.metadata.tamanioFile ∧
    destino.listaBlockLogicos.length = origen.listaBlockLogicos.length
  lecturas : ∀ i, storageReadBlock sb s' f t i = storageReadBlock sb s fo tgo i
  origen_igual : buscarTag s' fo tgo = buscarTag s fo tgo
  origen_lecturas : ∀ i, storageReadBlock sb s' fo tgo i = storageReadBlock sb s fo tgo i

/-- Every block of the Tag reads as block0000 does. -/
def LeeComoCero (s : Storage) (f t : String) : Prop :=
  ∀ tag, buscarTag s f t = some tag → ∀ i < tag.listaBlockLogicos.length,
    contenidoDe s f t i = s.disco.physicalBlocks bloqueFisicoInicial

theorem tag_ok (h : Coherente sb s)
    (hop : atenderWorker md5 sb s (.tag fo tgo f t) = .ok (s', .ok)) :
    ∃ tag mc, buscarTag s fo tgo = some tag ∧ s' = copiarTag s f t tag mc := by
  have hpar : ((operacionTagFile s fo tgo f t).1,
      respuestaDe (operacionTagFile s fo tgo f t).2) = (s', Respuesta.ok) := Except.ok.inj hop
  cases htag : buscarTag s fo tgo with
  | none =>
    have herror : operacionTagFile s fo tgo f t = (s, -1) := by
      unfold operacionTagFile
      rw [htag]
    rw [herror] at hpar
    simp [respuestaDe] at hpar
  | some tag =>
    obtain ⟨mc, hmc⟩ := tag_eq h htag f t
    rw [hmc] at hpar
    exact ⟨tag, mc, rfl, (Prod.mk.inj hpar).1.symm⟩

/-- Without earlier links in its directory, the copy is linked to block0000 throughout. -/
theorem contenidoDe_copiarTag_destino (h : Coherente sb s) (hdestino : buscarTag s f t = none)
    (tag : Tag) (mc : RutaTag → Option ConfigText.Config) (n : ℕ) :
    contenidoDe (copiarTag s f t tag mc) f t n =
      if n < tag.listaBlockLogicos.length then s.disco.physicalBlocks bloqueFisicoInicial
      else none := by
  have hbuscar : buscarTag (copiarTag s f t tag mc) f t = some (copia t tag) := by
    rw [buscarTag_copiarTag, hdestino, Option.none_or, if_pos ⟨rfl, rfl⟩]
  have hlibre : ∀ nombre, s.disco.links (rutaBlockLogico f t nombre) = none := by
    intro nombre
    cases hlink : s.disco.links (rutaBlockLogico f t nombre) with
    | none => rfl
    | some b =>
      have hvisible : (buscarTag s f t).isSome := h.enlace_visible _ b hlink
      simp [hdestino] at hvisible
  unfold contenidoDe enlaceDe
  rw [hbuscar, Option.bind_some]
  change ((tag.listaBlockLogicos[n]?.bind _).bind s.disco.physicalBlocks) = _
  by_cases hn : n < tag.listaBlockLogicos.length
  · have hmem : tag.listaBlockLogicos[n].nombreBlock ∈
        tag.listaBlockLogicos.map BlockLogico.nombreBlock :=
      List.mem_map_of_mem (List.getElem_mem hn)
    have hlink : enlazarCero s.disco.links (rutaTag f t)
        (tag.listaBlockLogicos.map BlockLogico.nombreBlock)
        (rutaBlockLogico f t tag.listaBlockLogicos[n].nombreBlock) = some bloqueFisicoInicial :=
      if_pos ⟨rfl, hmem, hlibre _⟩
    rw [if_pos hn, List.getElem?_eq_getElem hn, Option.bind_some]
    change (enlazarCero s.disco.links _ _ _).bind s.disco.physicalBlocks = _
    rw [hlink, Option.bind_some]
  · rw [if_neg hn, List.getElem?_eq_none (by omega)]
    rfl

theorem contenidoDe_copiarTag_otro (hne : rutaTag fo tgo ≠ rutaTag f t) {tag' : Tag}
    (htag' : buscarTag s fo tgo = some tag') (tag : Tag)
    (mc : RutaTag → Option ConfigText.Config) (n : ℕ) :
    contenidoDe (copiarTag s f t tag mc) fo tgo n = contenidoDe s fo tgo n := by
  have hbuscar : buscarTag (copiarTag s f t tag mc) fo tgo = buscarTag s fo tgo := by
    rw [buscarTag_copiarTag, htag', Option.some_or]
  have hlinks : ∀ nombre, (copiarTag s f t tag mc).disco.links (rutaBlockLogico fo tgo nombre) =
      s.disco.links (rutaBlockLogico fo tgo nombre) := fun nombre =>
    if_neg fun hnew => hne hnew.1
  unfold contenidoDe enlaceDe
  rw [hbuscar]
  simp only [hlinks]
  rfl

/-- A TAG to a new destination copies faithfully just when every block of the
source reads as block0000 does. -/
theorem copiaFiel_iff (h : Alcanzable md5 sb s) (hdestino : buscarTag s f t = none)
    (hop : atenderWorker md5 sb s (.tag fo tgo f t) = .ok (s', .ok)) :
    CopiaFiel sb s s' fo tgo f t ↔ LeeComoCero s fo tgo := by
  have hcoh := coherente_alcanzable h
  obtain ⟨tag, mc, htag, rfl⟩ := tag_ok hcoh hop
  have hcoh' := coherente_copiarTag hcoh htag f t mc
  have hne : rutaTag fo tgo ≠ rutaTag f t := by
    intro heq
    obtain ⟨rfl, rfl⟩ := Prod.mk.inj heq
    simp [hdestino] at htag
  have hlecturas : (∀ i, storageReadBlock sb (copiarTag s f t tag mc) f t i =
      storageReadBlock sb s fo tgo i) ↔ LeeComoCero s fo tgo := by
    rw [storageReadBlock_eq_iff hcoh' hcoh]
    constructor
    · intro hcontenido tag' htag' n hn
      obtain rfl := Option.some.inj (htag.symm.trans htag')
      rw [← hcontenido n, contenidoDe_copiarTag_destino hcoh hdestino, if_pos hn]
    · intro hcero n
      rw [contenidoDe_copiarTag_destino hcoh hdestino]
      by_cases hn : n < tag.listaBlockLogicos.length
      · rw [if_pos hn, hcero tag htag n hn]
      · rw [if_neg hn, contenidoDe, enlaceDe, htag, Option.bind_some,
          List.getElem?_eq_none (by omega)]
        rfl
  constructor
  · exact fun hfiel => hlecturas.mp hfiel.lecturas
  · intro hcero
    refine ⟨⟨tag, copia t tag, htag, ?_, rfl, rfl, rfl⟩, hlecturas.mpr hcero, ?_, ?_⟩
    · rw [buscarTag_copiarTag, hdestino, Option.none_or, if_pos ⟨rfl, rfl⟩]
    · rw [buscarTag_copiarTag, htag, Option.some_or]
    · exact (storageReadBlock_eq_iff hcoh' hcoh fo tgo fo tgo).mpr
        (contenidoDe_copiarTag_otro hne htag tag mc)

theorem copiaFiel_iff_base :
    CopiaFiel superbloqueChico (estadoTras hashLegible superbloqueChico [])
        (operacionTagFile (estadoTras hashLegible superbloqueChico []) "initial_file" "BASE"
          "a" "b").1 "initial_file" "BASE" "a" "b" ↔
      LeeComoCero (estadoTras hashLegible superbloqueChico []) "initial_file" "BASE" :=
  copiaFiel_iff (alcanzable_estadoTras hashLegible superbloqueChico []) (by decide)
    (congrArg Except.ok (Prod.ext rfl (by decide)))

/-- The copy of a Tag that TRUNCATE grew reads as block0000, not as its source. -/
theorem not_copiaFiel_truncate : ¬ ∀ md5 sb s s' fo tgo f t, Alcanzable md5 sb s →
    buscarTag s f t = none → atenderWorker md5 sb s (.tag fo tgo f t) = .ok (s', .ok) →
    CopiaFiel sb s s' fo tgo f t := by
  intro h
  have hfiel := h hashLegible superbloqueChico _ _ "a" "b" "c" "d"
    (alcanzable_estadoTras hashLegible superbloqueChico [.create "a" "b", .truncate "a" "b" 2])
    (by decide) (congrArg Except.ok (Prod.ext rfl (by decide)))
  exact absurd (hfiel.lecturas 0) (by decide)

end MasterOfFiles.TagCopies
