import MasterOfFiles.TruncateEffects

/-!
What the other requests do from a state that meets the invariant, and the
invariant itself in every reachable state. COMMIT only fills the hash index,
WRITE_BLOCK always writes block0000, and DELETE never frees a block.
-/
namespace MasterOfFiles.RequestEffects

open KeyedLists ByteBuffers ConfigText BlockNames StorageState StorageFiles StorageOperations
open PartialRuns TagLookups BlockZero TruncateEffects

variable {md5 : Bytes → String} {sb : Superbloque} {s s' : Storage} {f t f' t' : String}

section CreateTag

def tagNuevo (t : String) : Tag := ⟨t, ⟨0, [], .workInProgress⟩, []⟩

/-- The Tag a successful TAG appends: a copy of the source's list and metadata. -/
def copia (t : String) (tag : Tag) : Tag :=
  ⟨t, ⟨tag.metadata.tamanioFile, tag.metadata.blocksFisicosUsados, .workInProgress⟩,
    tag.listaBlockLogicos⟩

/-- The state after a CREATE that was not rejected. -/
def creado (s : Storage) (f t : String) (mc : RutaTag → Option Config) : Storage :=
  agregarTag (cambiarDisco (crearFile s f)
    { s.disco with
      tagDirs := Function.update s.disco.tagDirs (rutaTag f t) true
      metadataConfig := mc }) f (tagNuevo t)

theorem create_rechazado (h : (buscarTag s f t).isSome) : operacionCreateFile s f t = (s, -1) :=
  if_pos h

theorem create_eq (h : buscarTag s f t = none) : ∃ mc, operacionCreateFile s f t =
    (creado s f t mc, 0) := by
  unfold operacionCreateFile
  rw [if_neg (by simp [h])]
  simp only [crearTag_fst]
  exact ⟨_, rfl⟩

theorem buscarFile_asegurarFile (s : Storage) (f : String) :
    (buscarFile (asegurarFile s f) f).isSome := by
  unfold asegurarFile
  split_ifs with hfile
  · exact hfile
  · exact buscarFile_crearFile_self s f

theorem buscarTag_asegurarFile (s : Storage) (f f' t' : String) :
    buscarTag (asegurarFile s f) f' t' = buscarTag s f' t' := by
  unfold asegurarFile
  split_ifs
  · rfl
  · exact buscarTag_crearFile s f f' t'

/-- Only the list of Files changes when a File is made sure of. -/
theorem asegurarFile_eq (s : Storage) (f : String) :
    asegurarFile s f = { s with listaFiles := (asegurarFile s f).listaFiles } := by
  unfold asegurarFile
  split_ifs <;> rfl

/-- Missing names of a Tag's directory get a link to block0000. -/
def enlazarCero (links : RutaBlock → Option String) (rt : RutaTag) (nombres : List String) :
    RutaBlock → Option String := fun r =>
  if directorio r = rt ∧ r.2.2 ∈ nombres ∧ links r = none then some bloqueFisicoInicial
  else links r

theorem enlazarCero_cons (links : RutaBlock → Option String) (rt : RutaTag) (nombre : String)
    (nombres : List String) :
    enlazarCero (enlazarCero links rt [nombre]) rt nombres =
      enlazarCero links rt (nombre :: nombres) := by
  funext r
  unfold enlazarCero
  by_cases hdir : directorio r = rt
  · by_cases hnone : links r = none
    · by_cases hname : r.2.2 = nombre
      · simp [hdir, hnone, hname]
      · simp [hdir, hnone, hname]
    · simp [hnone]
  · simp [hdir]

theorem sumarAsociados_sumarAsociados (s : Storage) (i : ℕ) (a b : ℤ) :
    sumarAsociados (sumarAsociados s i a) i b = sumarAsociados s i (a + b) := by
  unfold sumarAsociados
  rw [List.modify_modify_eq]
  congr 2
  funext bf
  simp [add_assoc]

theorem sumarAsociados_zero (s : Storage) (i : ℕ) : sumarAsociados s i 0 = s := by
  unfold sumarAsociados
  simp only [add_zero]
  rw [show (fun bf : BlockFisico => bf) = id from rfl, List.modify_id]

theorem buscarIndex_sumarAsociados (s : Storage) (i : ℕ) (k : ℤ) (nombre : String) :
    buscarIndexBlockFisico (sumarAsociados s i k) nombre = buscarIndexBlockFisico s nombre := by
  have hmap : ∀ bfs : List BlockFisico, bfs.findIdx? (fun bf => bf.pathBlock = nombre) =
      (bfs.map BlockFisico.pathBlock).findIdx? (· = nombre) := by
    intro bfs
    rw [List.findIdx?_map]
    rfl
  unfold buscarIndexBlockFisico
  rw [hmap, hmap]
  congr 1
  refine map_pathBlock_modify ?_ s.listaBloquesFisicos i
  exact fun _ => rfl

theorem copiarBloque_eq (hindex : buscarIndexBlockFisico s bloqueFisicoInicial = some 0)
    (harchivo : (s.disco.physicalBlocks bloqueFisicoInicial).isSome)
    (hdir : s.disco.tagDirs (rutaTag f t) = true) (acc : List BlockLogico) {bl : BlockLogico}
    (hbl : bl.bloqueFisicoAsociado = bloqueFisicoInicial) :
    copiarBloque f t (s, acc) bl =
      (cambiarDisco (sumarAsociados s 0 1) (cambiarEnlaces s.disco
        (enlazarCero s.disco.links (rutaTag f t) [bl.nombreBlock])), acc ++ [bl]) := by
  have hlinkear : linkearBlABf s.disco f t bl.nombreBlock bl.bloqueFisicoAsociado =
      some (cambiarEnlaces s.disco
        (enlazarCero s.disco.links (rutaTag f t) [bl.nombreBlock])) := by
    have hruta : ∀ r : RutaBlock, directorio r = rutaTag f t ∧ r.2.2 = bl.nombreBlock ↔
        r = rutaBlockLogico f t bl.nombreBlock := by
      rintro ⟨a, b, c⟩
      simp [directorio, rutaTag, rutaBlockLogico, and_assoc]
    unfold linkearBlABf Disco.link
    rw [hbl, if_neg (by simp [hdir, Option.isSome_iff_ne_none.mp harchivo])]
    by_cases hlink : (s.disco.links (rutaBlockLogico f t bl.nombreBlock)).isSome
    · rw [if_pos hlink]
      have hsame : enlazarCero s.disco.links (rutaTag f t) [bl.nombreBlock] = s.disco.links := by
        funext r
        unfold enlazarCero
        refine if_neg ?_
        rintro ⟨hr, hname, hnone⟩
        obtain rfl := (hruta r).mp ⟨hr, List.mem_singleton.mp hname⟩
        rw [hnone] at hlink
        simp at hlink
      rw [hsame]
      rfl
    · rw [if_neg hlink]
      have hupdate : enlazarCero s.disco.links (rutaTag f t) [bl.nombreBlock] =
          Function.update s.disco.links (rutaBlockLogico f t bl.nombreBlock)
            (some bloqueFisicoInicial) := by
        funext r
        unfold enlazarCero
        rcases eq_or_ne r (rutaBlockLogico f t bl.nombreBlock) with rfl | hne
        · rw [Function.update_self]
          exact if_pos ⟨rfl, List.mem_singleton.mpr rfl, Option.not_isSome_iff_eq_none.mp hlink⟩
        · rw [Function.update_of_ne hne]
          refine if_neg ?_
          rintro ⟨hr, hname, -⟩
          exact hne ((hruta r).mp ⟨hr, List.mem_singleton.mp hname⟩)
      rw [hupdate]
      rfl
  have hindex' : ∀ d, buscarIndexBlockFisico { s with disco := d } bl.bloqueFisicoAsociado =
      some 0 := by
    intro d
    rw [hbl]
    exact hindex
  unfold copiarBloque
  simp only [hlinkear, hindex']
  rfl

theorem copiarBloques_eq (hindex : buscarIndexBlockFisico s bloqueFisicoInicial = some 0)
    (harchivo : (s.disco.physicalBlocks bloqueFisicoInicial).isSome)
    (hdir : s.disco.tagDirs (rutaTag f t) = true) (acc bls : List BlockLogico)
    (hbls : ∀ bl ∈ bls, bl.bloqueFisicoAsociado = bloqueFisicoInicial) :
    bls.foldl (copiarBloque f t) (s, acc) =
      (cambiarDisco (sumarAsociados s 0 bls.length) (cambiarEnlaces s.disco
        (enlazarCero s.disco.links (rutaTag f t) (bls.map BlockLogico.nombreBlock))),
        acc ++ bls) := by
  induction bls generalizing s acc with
  | nil =>
    have hnil : enlazarCero s.disco.links (rutaTag f t) [] = s.disco.links := by
      funext r
      simp [enlazarCero]
    rw [List.map_nil, hnil, List.length_nil, Nat.cast_zero, sumarAsociados_zero, List.append_nil]
    rfl
  | cons bl bls ih =>
    have hindex' : buscarIndexBlockFisico (sumarAsociados s 0 1) bloqueFisicoInicial = some 0 :=
      (buscarIndex_sumarAsociados s 0 1 _).trans hindex
    have htail := ih (s := cambiarDisco (sumarAsociados s 0 1) (cambiarEnlaces s.disco
      (enlazarCero s.disco.links (rutaTag f t) [bl.nombreBlock]))) hindex' harchivo hdir
      (acc ++ [bl]) fun bl' hbl' => hbls bl' (List.mem_cons_of_mem _ hbl')
    have hsum := sumarAsociados_sumarAsociados s 0 1 bls.length
    have hlength : ((bl :: bls).length : ℤ) = 1 + bls.length := by
      rw [List.length_cons]
      omega
    rw [List.foldl_cons, copiarBloque_eq hindex harchivo hdir acc
      (hbls bl (List.mem_cons_self ..)), htail, hlength, ← hsum, List.map_cons,
      ← enlazarCero_cons s.disco.links (rutaTag f t) bl.nombreBlock (bls.map _), List.append_assoc]
    rfl

/-- The state after a TAG, `mc` being what the metadata files then hold. -/
def copiarTag (s : Storage) (f t : String) (tag : Tag) (mc : RutaTag → Option Config) : Storage :=
  agregarTag
    (cambiarDisco (sumarAsociados (asegurarFile s f) 0 tag.listaBlockLogicos.length)
      { s.disco with
        tagDirs := Function.update s.disco.tagDirs (rutaTag f t) true
        links := enlazarCero s.disco.links (rutaTag f t)
          (tag.listaBlockLogicos.map BlockLogico.nombreBlock)
        metadataConfig := mc })
    f (copia t tag)

theorem tag_eq (h : Coherente sb s) {fo tgo : String} {tag : Tag}
    (htag : buscarTag s fo tgo = some tag) (f t : String) :
    ∃ mc, operacionTagFile s fo tgo f t = (copiarTag s f t tag mc, 0) := by
  have hasegurar : (asegurarFile s f).disco = s.disco := by rw [asegurarFile_eq]
  obtain ⟨b, hb, _⟩ := h.archivo_cero
  have hindex : buscarIndexBlockFisico (asegurarFile s f) bloqueFisicoInicial = some 0 := by
    rw [asegurarFile_eq]
    exact h.index_cero
  have hcopia := copiarBloques_eq (s := cambiarDisco (asegurarFile s f)
      (crearTag ((asegurarFile s f).disco.crearRutaTag (rutaTag f t)) t (rutaTag f t)).2)
    (f := f) (t := t) hindex
    (by simp [cambiarDisco, crearTag, Disco.crearRutaTag, hasegurar, hb])
    (by simp [cambiarDisco, crearTag, Disco.crearRutaTag]) [] tag.listaBlockLogicos
    (h.tag_cero htag).asociados
  obtain ⟨mc, hmc⟩ := actualizarMetadata_eq (cambiarEnlaces
    (crearTag ((asegurarFile s f).disco.crearRutaTag (rutaTag f t)) t (rutaTag f t)).2
    (enlazarCero (asegurarFile s f).disco.links (rutaTag f t)
      (tag.listaBlockLogicos.map BlockLogico.nombreBlock)))
    (rutaTag f t) ⟨tag.metadata.tamanioFile, tag.metadata.blocksFisicosUsados, .workInProgress⟩
  refine ⟨mc, ?_⟩
  have hop : operacionTagFile s fo tgo f t = (registrarCopia
      (copiarBloques (cambiarDisco (asegurarFile s f)
        (crearTag ((asegurarFile s f).disco.crearRutaTag (rutaTag f t)) t (rutaTag f t)).2) f t
        tag.listaBlockLogicos).1 f tag (tagNuevo t)
      (copiarBloques (cambiarDisco (asegurarFile s f)
        (crearTag ((asegurarFile s f).disco.crearRutaTag (rutaTag f t)) t (rutaTag f t)).2) f t
        tag.listaBlockLogicos).2, 0) := by
    unfold operacionTagFile
    simp only [htag, crearTag_fst]
    rfl
  rw [hop, copiarBloques, hcopia]
  change (agregarTag (cambiarDisco _ (actualizarMetadata (cambiarEnlaces
    (crearTag ((asegurarFile s f).disco.crearRutaTag (rutaTag f t)) t (rutaTag f t)).2
    (enlazarCero (asegurarFile s f).disco.links (rutaTag f t)
      (tag.listaBlockLogicos.map BlockLogico.nombreBlock)))
    (rutaTag f t) ⟨tag.metadata.tamanioFile, tag.metadata.blocksFisicosUsados, .workInProgress⟩))
    f _, (0 : ℤ)) = _
  rw [hmc, hasegurar]
  rfl

section Buscar

variable (s) (f t : String) (tag : Tag) (mc : RutaTag → Option Config)

theorem buscarTag_copiarTag (f' t' : String) :
    buscarTag (copiarTag s f t tag mc) f' t' =
      (buscarTag s f' t').or (if f' = f ∧ t = t' then some (copia t tag) else none) := by
  have hcopia : buscarTag (copiarTag s f t tag mc) f' t' =
      (buscarTag (asegurarFile s f) f' t').or
        (if f' = f ∧ t = t' then some (copia t tag) else none) :=
    buscarTag_agregarTag _ (buscarFile_asegurarFile s f) f' t'
  rw [hcopia, buscarTag_asegurarFile]

end Buscar

theorem buscarTag_creado (s : Storage) (f t : String) (mc : RutaTag → Option Config)
    (f' t' : String) : buscarTag (creado s f t mc) f' t' =
      (buscarTag s f' t').or (if f' = f ∧ t = t' then some (tagNuevo t) else none) := by
  have hagregar : buscarTag (creado s f t mc) f' t' =
      (buscarTag (crearFile s f) f' t').or
        (if f' = f ∧ t = t' then some (tagNuevo t) else none) :=
    buscarTag_agregarTag _ (buscarFile_crearFile_self s f) f' t'
  rw [hagregar, buscarTag_crearFile]

theorem coherente_creado (h : Coherente sb s) (f t : String) (mc : RutaTag → Option Config) :
    Coherente sb (creado s f t mc) := by
  refine Coherente.agregarTag ?_ (buscarFile_crearFile_self s f) ?_
  · exact (h.crearFile f).conDisco rfl rfl
  · exact ⟨fun bl hbl => absurd hbl List.not_mem_nil, fun e he => absurd he List.not_mem_nil⟩

theorem coherente_copiarTag (h : Coherente sb s) {fo tgo : String} {tag : Tag}
    (htag : buscarTag s fo tgo = some tag) (f t : String) (mc : RutaTag → Option Config) :
    Coherente sb (copiarTag s f t tag mc) := by
  have hcopia : TagEnCero (copia t tag) :=
    ⟨(h.tag_cero htag).asociados, (h.tag_cero htag).usados⟩
  have hdisco : (asegurarFile s f).disco = s.disco := by rw [asegurarFile_eq]
  have hagregar := ((h.asegurarFile f).sumarAsociados 0 tag.listaBlockLogicos.length).agregarTag
    (buscarFile_asegurarFile s f) hcopia
  -- the links are made before the Tag is appended, but the two touch different fields
  have hlinks : ∀ r b, enlazarCero s.disco.links (rutaTag f t)
      (tag.listaBlockLogicos.map BlockLogico.nombreBlock) r = some b →
      (asegurarFile s f).disco.links r = some b ∨ b = bloqueFisicoInicial ∧
        (buscarTag (agregarTag (asegurarFile s f) f (copia t tag)) r.1 r.2.1).isSome := by
    intro r b hr
    unfold enlazarCero at hr
    split_ifs at hr with hnew
    · refine Or.inr ⟨(Option.some.inj hr).symm, ?_⟩
      obtain ⟨hf, ht⟩ := Prod.mk.inj hnew.1
      rw [buscarTag_agregarTag _ (buscarFile_asegurarFile s f), Option.isSome_or]
      simp [hf, ht, copia]
    · exact Or.inl (by rw [hdisco, hr])
  have henlaces := hagregar.conEnlaces hlinks
  exact henlaces.conDisco (congrArg Disco.physicalBlocks hdisco).symm rfl

end CreateTag

section Commit

def cambiarIndice (s : Storage) (index guardado : Config) : Storage :=
  { s with hashIndexConfig := index, disco := { s.disco with blocksHashIndex := guardado } }

theorem coherente_cambiarIndice (h : Coherente sb s) {index : Config}
    (hindex : ∀ p ∈ index, p.2 = bloqueFisicoInicial) (guardado : Config) :
    Coherente sb (cambiarIndice s index guardado) :=
  (h.conIndice hindex).conDisco rfl rfl

/-- What COMMIT does with a block whose contents it reads. -/
theorem procesarBloqueCommit_pasos {bl bl' : BlockLogico}
    (hop : procesarBloqueCommit md5 f t s bl = .ok (s', bl')) :
    ∃ c, s.disco.getContenido (rutaBlockLogico f t bl.nombreBlock) = some c ∧
      ((configGet s.hashIndexConfig (hashContenido md5 c) = none ∧
          s' = agregarHashNuevo s (hashContenido md5 c) bl.bloqueFisicoAsociado ∧ bl' = bl) ∨
        (configGet s.hashIndexConfig (hashContenido md5 c) = some bl.bloqueFisicoAsociado ∧
          s' = s ∧ bl' = bl) ∨
        ∃ b, configGet s.hashIndexConfig (hashContenido md5 c) = some b ∧
          b ≠ bl.bloqueFisicoAsociado ∧
          reasignarBloqueLogico s (rutaBlockLogico f t bl.nombreBlock) bl b
            bl.bloqueFisicoAsociado = (s', bl')) := by
  unfold procesarBloqueCommit at hop
  cases hc : s.disco.getContenido (rutaBlockLogico f t bl.nombreBlock) with
  | none => simp [hc] at hop
  | some c =>
    refine ⟨c, rfl, ?_⟩
    simp only [hc] at hop
    cases hget : configGet s.hashIndexConfig (hashContenido md5 c) with
    | none =>
      simp only [hget] at hop
      obtain ⟨rfl, rfl⟩ := Prod.mk.inj (Except.ok.inj hop)
      exact Or.inl ⟨rfl, rfl, rfl⟩
    | some b =>
      simp only [hget] at hop
      split_ifs at hop with hb
      · obtain ⟨rfl, rfl⟩ := Prod.mk.inj (Except.ok.inj hop)
        exact Or.inr (Or.inl ⟨by rw [hb], rfl, rfl⟩)
      · exact Or.inr (Or.inr ⟨b, rfl, hb, Except.ok.inj hop⟩)

theorem procesarBloques_cons_ok {bl : BlockLogico} {bls bls' : List BlockLogico}
    (hop : procesarBloques md5 f t s (bl :: bls) = .ok (s', bls')) :
    ∃ s₁ bl₁ bls₂, procesarBloqueCommit md5 f t s bl = .ok (s₁, bl₁) ∧
      procesarBloques md5 f t s₁ bls = .ok (s', bls₂) ∧ bls' = bl₁ :: bls₂ := by
  unfold procesarBloques at hop
  cases hhead : procesarBloqueCommit md5 f t s bl with
  | error e => simp [hhead] at hop
  | ok p =>
    simp only [hhead] at hop
    cases htail : procesarBloques md5 f t p.1 bls with
    | error e => simp [htail] at hop
    | ok q =>
      simp only [htail] at hop
      obtain ⟨rfl, rfl⟩ := Prod.mk.inj (Except.ok.inj hop)
      exact ⟨p.1, p.2, q.2, rfl, htail, rfl⟩

/-- A COMMIT that returns has found no open Tag, or has processed all its blocks. -/
theorem commit_pasos {c : ℤ} (hop : operacionCommitTag md5 s f t = .ok (s', c)) :
    (s' = s ∧ ∀ tag, buscarTag s f t = some tag → tag.metadata.estado = .commited) ∨
      ∃ tag s₁ bls, buscarTag s f t = some tag ∧ tag.metadata.estado ≠ .commited ∧
        procesarBloques md5 f t s tag.listaBlockLogicos = .ok (s₁, bls) ∧
        s' = guardarMetadata (modificarTag s₁ f t (commitear bls)) f t ∧ c = 0 := by
  unfold operacionCommitTag at hop
  cases htag : buscarTag s f t with
  | none =>
    simp only [htag] at hop
    exact Or.inl ⟨(Prod.mk.inj (Except.ok.inj hop)).1.symm, fun tag htag' => by simp at htag'⟩
  | some tag =>
    simp only [htag] at hop
    split_ifs at hop with hestado
    · refine Or.inl ⟨(Prod.mk.inj (Except.ok.inj hop)).1.symm, fun tag' htag' => ?_⟩
      obtain rfl := Option.some.inj htag'
      exact hestado
    · cases hbloques : procesarBloques md5 f t s tag.listaBlockLogicos with
      | error e => simp [hbloques] at hop
      | ok p =>
        simp only [hbloques] at hop
        obtain ⟨rfl, rfl⟩ := Prod.mk.inj (Except.ok.inj hop)
        exact Or.inr ⟨tag, p.1, p.2, rfl, hestado, hbloques, rfl, rfl⟩

/-- COMMIT never finds a hash of another block: it adds to the index or does nothing. -/
theorem procesarBloqueCommit_ok (h : Coherente sb s) {bl bl' : BlockLogico}
    (hbl : bl.bloqueFisicoAsociado = bloqueFisicoInicial)
    (hop : procesarBloqueCommit md5 f t s bl = .ok (s', bl')) :
    bl' = bl ∧ (s.disco.getContenido (rutaBlockLogico f t bl.nombreBlock)).isSome ∧
      ∃ index guardado, s' = cambiarIndice s index guardado ∧
        ∀ p ∈ index, p.2 = bloqueFisicoInicial := by
  obtain ⟨c, hc, ⟨_, rfl, rfl⟩ | ⟨_, rfl, rfl⟩ | ⟨b, hget, hb, _⟩⟩ :=
    procesarBloqueCommit_pasos hop
  · refine ⟨rfl, by rw [hc]; rfl, _, _, rfl, fun p hp => ?_⟩
    rcases mem_configSetValue hp with hold | rfl
    · exact h.indice_cero p hold
    · exact hbl
  · exact ⟨rfl, by rw [hc]; rfl, s'.hashIndexConfig, s'.disco.blocksHashIndex, rfl, h.indice_cero⟩
  · exact absurd ((h.indice_cero _ (mem_of_configGet hget)).trans hbl.symm) hb

theorem procesarBloques_ok (h : Coherente sb s) {bls bls' : List BlockLogico}
    (hbls : ∀ bl ∈ bls, bl.bloqueFisicoAsociado = bloqueFisicoInicial)
    (hop : procesarBloques md5 f t s bls = .ok (s', bls')) :
    bls' = bls ∧
      (∀ bl ∈ bls, (s.disco.getContenido (rutaBlockLogico f t bl.nombreBlock)).isSome) ∧
      ∃ index guardado, s' = cambiarIndice s index guardado ∧
        ∀ p ∈ index, p.2 = bloqueFisicoInicial := by
  induction bls generalizing s s' bls' with
  | nil =>
    obtain ⟨rfl, rfl⟩ := Prod.mk.inj (Except.ok.inj hop)
    refine ⟨rfl, fun bl hbl => absurd hbl List.not_mem_nil, s.hashIndexConfig,
      s.disco.blocksHashIndex, rfl, h.indice_cero⟩
  | cons bl bls ih =>
    obtain ⟨s₁, bl₁, bls₂, hhead, htail, rfl⟩ := procesarBloques_cons_ok hop
    obtain ⟨rfl, hcontenido, index, guardado, rfl, hindex⟩ :=
      procesarBloqueCommit_ok h (hbls bl (List.mem_cons_self ..)) hhead
    obtain ⟨rfl, hcontenidos, index', guardado', rfl, hindex'⟩ :=
      ih (coherente_cambiarIndice h hindex _)
        (fun bl' hbl' => hbls bl' (List.mem_cons_of_mem _ hbl')) htail
    refine ⟨rfl, ?_, index', guardado', rfl, hindex'⟩
    intro bl' hbl'
    rcases List.mem_cons.mp hbl' with rfl | hbl'
    · exact hcontenido
    · exact hcontenidos bl' hbl'

/-- The state after a COMMIT that was not rejected. -/
def commiteado (s : Storage) (f t : String) (tag : Tag) (index guardado : Config)
    (mc : RutaTag → Option Config) : Storage :=
  cambiarDisco (modificarTag (cambiarIndice s index guardado) f t (commitear tag.listaBlockLogicos))
    { s.disco with blocksHashIndex := guardado, metadataConfig := mc }

theorem commit_casos (h : Coherente sb s) {c : ℤ}
    (hop : operacionCommitTag md5 s f t = .ok (s', c)) :
    s' = s ∨ ∃ tag index guardado mc, buscarTag s f t = some tag ∧
      tag.metadata.estado ≠ .commited ∧
      (∀ bl ∈ tag.listaBlockLogicos,
        (s.disco.getContenido (rutaBlockLogico f t bl.nombreBlock)).isSome) ∧
      (∀ p ∈ index, p.2 = bloqueFisicoInicial) ∧ s' = commiteado s f t tag index guardado mc := by
  obtain ⟨rfl, _⟩ | ⟨tag, s₁, bls, htag, hestado, hbloques, rfl, _⟩ := commit_pasos hop
  · exact Or.inl rfl
  · obtain ⟨rfl, hcontenidos, index, guardado, rfl, hindex⟩ :=
      procesarBloques_ok h (h.tag_cero htag).asociados hbloques
    obtain ⟨mc, hmc⟩ := guardarMetadata_eq (modificarTag (cambiarIndice s index guardado) f t
      (commitear tag.listaBlockLogicos)) f t
    exact Or.inr ⟨tag, index, guardado, mc, htag, hestado, hcontenidos, hindex, hmc⟩

theorem coherente_commiteado (h : Coherente sb s) {tag : Tag} (htag : buscarTag s f t = some tag)
    {index guardado : Config} (hindex : ∀ p ∈ index, p.2 = bloqueFisicoInicial)
    (mc : RutaTag → Option Config) : Coherente sb (commiteado s f t tag index guardado mc) := by
  have hmodificar := (coherente_cambiarIndice h hindex guardado).modificarTag f t
    (nameTag_commitear tag.listaBlockLogicos)
    fun _ _ hcero => ⟨(h.tag_cero htag).asociados, hcero.usados⟩
  exact hmodificar.conDisco rfl rfl

end Commit

section Write

variable {contenido original : Bytes} {n : ℕ} {bl : BlockLogico}

theorem length_bufferEscritura (original : Bytes) (hcabe : contenido.length ≤ sb.blockSize) :
    (bufferEscritura sb original contenido).length = sb.blockSize := by
  have hprevio : (overlay (List.replicate sb.blockSize 0) 0
      ((cString original).take sb.blockSize)).length = sb.blockSize := by
    rw [length_overlay]
    · exact List.length_replicate
    · rw [List.length_replicate, List.length_take]
      omega
  unfold bufferEscritura
  rw [length_overlay]
  · exact hprevio
  · omega

/-- WRITE_BLOCK on page `n` is accepted. -/
structure Escribible (sb : Superbloque) (s : Storage) (f t : String) (n : ℕ) (contenido : Bytes)
    (bl : BlockLogico) (original : Bytes) : Prop where
  bloque : ((buscarTag s f t).bind fun tag => tag.listaBlockLogicos[n]?) = some bl
  cabe : contenido.length ≤ sb.blockSize
  previo : s.disco.getContenido (rutaBlockLogico f t bl.nombreBlock) = some original

/-- The state after a WRITE_BLOCK that was accepted. -/
def escribirCero (md5 : Bytes → String) (sb : Superbloque) (s : Storage)
    (original contenido : Bytes) : Storage :=
  let disco := s.disco.escribirArchivoTruncado bloqueFisicoInicial
    (bufferEscritura sb original contenido)
  let index := configRemoveKey s.hashIndexConfig (hashContenido md5 original)
  { s with
    listaBloquesFisicos := s.listaBloquesFisicos.modify 0
      fun bf => { bf with contenido := disco.physicalBlocks bf.pathBlock }
    hashIndexConfig := index
    disco := { disco with blocksHashIndex := index } }

theorem write_aceptado (h : Coherente sb s) (he : Escribible sb s f t n contenido bl original) :
    storageWriteBlock md5 sb s f t n contenido =
      (escribirCero md5 sb s original contenido, .ok) := by
  obtain ⟨tag, htag, hbl⟩ := Option.bind_eq_some_iff.mp he.bloque
  have hasoc : bl.bloqueFisicoAsociado = bloqueFisicoInicial :=
    (h.tag_cero htag).asociados bl (List.mem_of_getElem? hbl)
  obtain ⟨bf0, bfs, hbfs, hname⟩ := h.bloque_cero
  have hop : operacionWriteBloque md5 sb s f t bl contenido =
      (escribirCero md5 sb s original contenido, 0) := by
    have hindex := h.index_cero
    unfold operacionWriteBloque
    rw [if_neg (by simp [htag]), he.previo]
    simp only [if_neg (not_lt.mpr he.cabe), hasoc, hindex, hbfs, List.getElem?_cons_zero, hname]
    unfold escribirCero
    rw [hbfs]
  unfold storageWriteBlock
  simp only [htag, hbl, if_neg (not_lt.mpr he.cabe), hop]
  rfl

theorem write_rechazado
    (hn : ∀ bl original, ¬ Escribible sb s f t n contenido bl original) :
    storageWriteBlock md5 sb s f t n contenido = (s, .error) := by
  unfold storageWriteBlock
  cases htag : buscarTag s f t with
  | none => rfl
  | some tag =>
    cases hbl : tag.listaBlockLogicos[n]? with
    | none => simp only [hbl]
    | some bl =>
      simp only [hbl]
      split_ifs with hcabe
      · rfl
      · cases hprevio : s.disco.getContenido (rutaBlockLogico f t bl.nombreBlock) with
        | some original =>
          refine absurd ⟨?_, not_lt.mp hcabe, hprevio⟩ (hn bl original)
          rw [htag, Option.bind_some, hbl]
        | none =>
          have hop : operacionWriteBloque md5 sb s f t bl contenido = (s, -1) := by
            unfold operacionWriteBloque
            rw [if_neg (by simp [htag]), hprevio]
          rw [hop]
          rfl

theorem write_casos (h : Coherente sb s) (md5 : Bytes → String) (f t : String) (n : ℕ)
    (contenido : Bytes) :
    storageWriteBlock md5 sb s f t n contenido = (s, .error) ∨
      ∃ bl original, Escribible sb s f t n contenido bl original ∧
        storageWriteBlock md5 sb s f t n contenido =
          (escribirCero md5 sb s original contenido, .ok) := by
  by_cases he : ∃ bl original, Escribible sb s f t n contenido bl original
  · obtain ⟨bl, original, he⟩ := he
    exact Or.inr ⟨bl, original, he, write_aceptado h he⟩
  · exact Or.inl (write_rechazado fun bl original hbl => he ⟨bl, original, hbl⟩)

theorem coherente_escribirCero (h : Coherente sb s) (md5 : Bytes → String) (original : Bytes)
    (hcabe : contenido.length ≤ sb.blockSize) :
    Coherente sb (escribirCero md5 sb s original contenido) where
  tags_cero := h.tags_cero
  indice_cero := fun p hp => h.indice_cero p (List.mem_of_mem_filter hp)
  nombres := by
    refine Eq.trans (map_pathBlock_modify ?_ _ _) h.nombres
    exact fun _ => rfl
  archivo := by
    intro k hk
    change ∃ b, Function.update s.disco.physicalBlocks bloqueFisicoInicial _
      (nombreBloqueFisico k) = some b ∧ _
    rcases eq_or_ne (nombreBloqueFisico k) bloqueFisicoInicial with hname | hname
    · rw [hname, Function.update_self]
      exact ⟨_, rfl, length_bufferEscritura original hcabe⟩
    · rw [Function.update_of_ne hname]
      exact h.archivo k hk
  archivo_nombre := by
    intro nombre hsome
    change (Function.update s.disco.physicalBlocks bloqueFisicoInicial _ nombre).isSome at hsome
    rcases eq_or_ne nombre bloqueFisicoInicial with hname | hname
    · exact ⟨0, cantBlock_pos sb, hname.trans nombreBloqueFisico_zero.symm⟩
    · rw [Function.update_of_ne hname] at hsome
      exact h.archivo_nombre nombre hsome
  bit_cero := h.bit_cero
  enlace_ocupado := h.enlace_ocupado
  enlace_unico := h.enlace_unico
  enlace_visible := h.enlace_visible

end Write

section Delete

theorem liberarUsados_eq (h : Coherente sb s) (usados : List String)
    (hcero : ∀ e ∈ usados, e = "0") :
    usados.foldl (liberarUsado sb) s = sumarAsociados s 0 (-usados.length) := by
  induction usados generalizing s with
  | nil =>
    rw [List.length_nil, Nat.cast_zero, neg_zero, sumarAsociados_zero]
    rfl
  | cons e usados ih =>
    obtain rfl := hcero e (List.mem_cons_self ..)
    have hname : nameBloque (cantBlock sb) (atoi "0") = bloqueFisicoInicial := by
      have hzero := nameBloque_of_lt (cantBlock_pos sb)
      rw [nombreBloqueFisico_zero] at hzero
      exact hzero
    have hstep : liberarUsado sb s "0" = sumarAsociados s 0 (-1) := by
      unfold liberarUsado
      simp only [hname, h.index_cero]
      exact if_neg fun hfree => hfree.2 rfl
    have hlength : (-1 + -(usados.length : ℤ)) = -(("0" :: usados).length : ℤ) := by
      rw [List.length_cons]
      omega
    rw [List.foldl_cons, hstep, ih (h.sumarAsociados 0 (-1))
      fun e he => hcero e (List.mem_cons_of_mem _ he), sumarAsociados_sumarAsociados, hlength]

/-- The state after a DELETE of a Tag that exists. -/
def eliminado (s : Storage) (f t : String) (tag : Tag) : Storage :=
  quitarTag (cambiarDisco (sumarAsociados s 0 (-tag.metadata.blocksFisicosUsados.length))
    (s.disco.eliminarCarpetaConContenido (rutaTag f t))) f t

theorem delete_eq (h : Coherente sb s) {tag : Tag} (htag : buscarTag s f t = some tag) :
    operacionEliminarTag sb s f t = eliminado s f t tag := by
  have hliberar := liberarUsados_eq h tag.metadata.blocksFisicosUsados.reverse
    fun e he => (h.tag_cero htag).usados e (List.mem_reverse.mp he)
  rw [List.length_reverse] at hliberar
  unfold operacionEliminarTag
  simp only [htag, hliberar]
  rfl

theorem delete_rechazado (hnone : buscarTag s f t = none) : operacionEliminarTag sb s f t = s := by
  unfold operacionEliminarTag
  rw [hnone]

theorem links_eliminado (s : Storage) (f t : String) (tag : Tag) (r : RutaBlock) :
    (eliminado s f t tag).disco.links r =
      if directorio r = rutaTag f t then none else s.disco.links r := rfl

theorem coherente_eliminado (h : Coherente sb s) (f t : String) (tag : Tag) :
    Coherente sb (eliminado s f t tag) := by
  have hlinks : ∀ r b, (if directorio r = rutaTag f t then none else s.disco.links r) = some b →
      s.disco.links r = some b := by
    intro r b hr
    split_ifs at hr
    exact hr
  have henlaces := (h.sumarAsociados 0 (-tag.metadata.blocksFisicosUsados.length)).conEnlaces
    fun r b hr => Or.inl (hlinks r b hr)
  have hdisco := henlaces.conDisco
    (d := s.disco.eliminarCarpetaConContenido (rutaTag f t)) rfl rfl
  refine hdisco.quitarTag ?_
  intro r b hr hdir
  exact absurd (hr.symm.trans (if_pos hdir)) (by simp)

end Delete

end MasterOfFiles.RequestEffects
