import MasterOfFiles.ReachableStates

/-!
The hash index against the contents of the blocks it names. Every entry names
block0000, so the index is sound when its keys are the hash of what block0000
holds. COMMIT enters the hash of what it reads behind the links, under the name
in memory, and WRITE_BLOCK changes block0000 and removes the hash of another.
-/
namespace MasterOfFiles.HashIndex

open KeyedLists ByteBuffers ConfigText BlockNames StorageState StorageFiles StorageOperations
open PartialRuns TagLookups BlockZero TruncateEffects RequestEffects ReachableStates

variable {md5 : Bytes → String} {sb : Superbloque} {s s' : Storage} {f t : String}

/-- Every entry names a block whose contents have its hash, and the file on disk
has the same entries. -/
def IndexSound (md5 : Bytes → String) (s : Storage) : Prop :=
  s.disco.blocksHashIndex = s.hashIndexConfig ∧
    ∀ hash b, configGet s.hashIndexConfig hash = some b →
      ∃ c, s.disco.physicalBlocks b = some c ∧ hashContenido md5 c = hash

section Claves

theorem indexSound_iff (h : Coherente sb s) {cero : Bytes}
    (hcero : s.disco.physicalBlocks bloqueFisicoInicial = some cero) :
    IndexSound md5 s ↔ s.disco.blocksHashIndex = s.hashIndexConfig ∧
      ∀ hash, (configGet s.hashIndexConfig hash).isSome → hash = hashContenido md5 cero := by
  refine and_congr_right fun _ => ?_
  constructor
  · intro hsound hash hsome
    obtain ⟨b, hb⟩ := Option.isSome_iff_exists.mp hsome
    obtain ⟨c, hc, rfl⟩ := hsound hash b hb
    obtain rfl : b = bloqueFisicoInicial := h.indice_cero _ (mem_of_configGet hb)
    rw [Option.some.inj (hc.symm.trans hcero)]
  · intro hclaves hash b hb
    obtain rfl : b = bloqueFisicoInicial := h.indice_cero _ (mem_of_configGet hb)
    exact ⟨cero, hcero, (hclaves hash (by rw [hb]; rfl)).symm⟩

theorem indexSound_congr (hsound : IndexSound md5 s)
    (harchivos : s'.disco.physicalBlocks = s.disco.physicalBlocks)
    (hindice : s'.hashIndexConfig = s.hashIndexConfig)
    (hguardado : s'.disco.blocksHashIndex = s.disco.blocksHashIndex) : IndexSound md5 s' := by
  unfold IndexSound
  rw [harchivos, hindice, hguardado]
  exact hsound

theorem isSome_configGet_set (c : Config) (k v k' : String) :
    (configGet (configSetValue c k v) k').isSome ↔ k' = k ∨ (configGet c k').isSome := by
  by_cases hk : k' = k
  · rw [hk, configGet_set_self]
    simp
  · rw [configGet_set_ne _ _ hk]
    simp [hk]

end Claves

section Commit

/-- A processed block has its hash in the index, and no other entry is new. -/
theorem procesarBloqueCommit_indice (h : Coherente sb s) {bl bl' : BlockLogico}
    (hasoc : bl.bloqueFisicoAsociado = bloqueFisicoInicial)
    (hguardado : s.disco.blocksHashIndex = s.hashIndexConfig) {c : Bytes}
    (hc : s.disco.getContenido (rutaBlockLogico f t bl.nombreBlock) = some c)
    (hop : procesarBloqueCommit md5 f t s bl = .ok (s', bl')) :
    s'.disco.blocksHashIndex = s'.hashIndexConfig ∧
      ∀ hash, (configGet s'.hashIndexConfig hash).isSome ↔
        hash = hashContenido md5 c ∨ (configGet s.hashIndexConfig hash).isSome := by
  obtain ⟨c', hc', hpasos⟩ := procesarBloqueCommit_pasos hop
  obtain rfl := Option.some.inj (hc.symm.trans hc')
  rcases hpasos with ⟨_, rfl, _⟩ | ⟨hget, rfl, _⟩ | ⟨b, hget, hb, _⟩
  · exact ⟨rfl, isSome_configGet_set _ _ _⟩
  · refine ⟨hguardado, fun hash => ⟨Or.inr, ?_⟩⟩
    rintro (rfl | hsome)
    · rw [hget]
      rfl
    · exact hsome
  · exact absurd ((h.indice_cero _ (mem_of_configGet hget)).trans hasoc.symm) hb

/-- COMMIT adds to the index the hashes it has not got of the blocks it reads. -/
theorem procesarBloques_indice (h : Coherente sb s) {bls bls' : List BlockLogico}
    (hbls : ∀ bl ∈ bls, bl.bloqueFisicoAsociado = bloqueFisicoInicial)
    (hguardado : s.disco.blocksHashIndex = s.hashIndexConfig)
    (hop : procesarBloques md5 f t s bls = .ok (s', bls')) :
    s'.disco.blocksHashIndex = s'.hashIndexConfig ∧
      ∀ hash, (configGet s'.hashIndexConfig hash).isSome ↔
        (configGet s.hashIndexConfig hash).isSome ∨ ∃ bl ∈ bls, ∃ c,
          s.disco.getContenido (rutaBlockLogico f t bl.nombreBlock) = some c ∧
            hashContenido md5 c = hash := by
  induction bls generalizing s bls' with
  | nil =>
    obtain ⟨rfl, -⟩ := Prod.mk.inj (Except.ok.inj hop)
    exact ⟨hguardado, fun hash => by simp⟩
  | cons bl bls ih =>
    have hasoc := hbls bl (List.mem_cons_self ..)
    obtain ⟨s₁, bl₁, bls₂, hhead, htail, -⟩ := procesarBloques_cons_ok hop
    obtain ⟨-, hcontenido, index, guardado, hs₁, hindex⟩ := procesarBloqueCommit_ok h hasoc hhead
    obtain ⟨c, hc⟩ := Option.isSome_iff_exists.mp hcontenido
    have hclaves := procesarBloqueCommit_indice h hasoc hguardado hc hhead
    have hcoh₁ : Coherente sb s₁ := by
      rw [hs₁]
      exact coherente_cambiarIndice h hindex guardado
    have hcontenidos : ∀ r, s₁.disco.getContenido r = s.disco.getContenido r := by
      rw [hs₁]
      exact fun _ => rfl
    obtain ⟨hguardado₂, hclaves₂⟩ := ih hcoh₁
      (fun bl' hbl' => hbls bl' (List.mem_cons_of_mem _ hbl')) hclaves.1 htail
    refine ⟨hguardado₂, fun hash => ?_⟩
    rw [hclaves₂, hclaves.2]
    simp only [hcontenidos, List.exists_mem_cons_iff, hc, Option.some.injEq,
      exists_eq_left']
    rw [or_assoc, or_left_comm, eq_comm (a := hash)]

/-- The blocks COMMIT reads have the hash of block0000. -/
def LeeSoloCero (md5 : Bytes → String) (s : Storage) (f t : String) : Prop :=
  ∀ tag, buscarTag s f t = some tag → tag.metadata.estado ≠ .commited →
    ∀ bl ∈ tag.listaBlockLogicos, ∀ c,
      s.disco.getContenido (rutaBlockLogico f t bl.nombreBlock) = some c →
      ∀ cero, s.disco.physicalBlocks bloqueFisicoInicial = some cero →
        hashContenido md5 c = hashContenido md5 cero

theorem indexSound_commit_iff (h : Coherente sb s) (hsound : IndexSound md5 s) {c : ℤ}
    (hop : operacionCommitTag md5 s f t = .ok (s', c)) :
    IndexSound md5 s' ↔ LeeSoloCero md5 s f t := by
  obtain ⟨rfl, hcerrado⟩ | ⟨tag, s₁, bls, htag, hestado, hbloques, rfl, _⟩ := commit_pasos hop
  · exact iff_of_true hsound fun tag htag habierto => absurd (hcerrado tag htag) habierto
  · have hasoc := (h.tag_cero htag).asociados
    obtain ⟨-, -, index, guardado, hs₁, hindex⟩ := procesarBloques_ok h hasoc hbloques
    obtain ⟨hguardado, hclaves⟩ := procesarBloques_indice h hasoc hsound.1 hbloques
    obtain ⟨mc, hmc⟩ := guardarMetadata_eq (modificarTag s₁ f t (commitear bls)) f t
    obtain ⟨cero, hcero, _⟩ := h.archivo_cero
    have hcoh₁ : Coherente sb s₁ := by
      rw [hs₁]
      exact coherente_cambiarIndice h hindex guardado
    have hcero₁ : s₁.disco.physicalBlocks bloqueFisicoInicial = some cero := by
      rw [hs₁]
      exact hcero
    have hsound₁ : IndexSound md5 (guardarMetadata (modificarTag s₁ f t (commitear bls)) f t) ↔
        IndexSound md5 s₁ := by
      rw [hmc]
      exact Iff.rfl
    rw [hsound₁, indexSound_iff hcoh₁ hcero₁]
    have hviejas := ((indexSound_iff h hcero).mp hsound).2
    constructor
    · rintro ⟨_, hhash⟩ tag' htag' _ bl hbl c hc cero' hcero'
      obtain rfl := Option.some.inj (htag.symm.trans htag')
      obtain rfl := Option.some.inj (hcero.symm.trans hcero')
      exact hhash _ ((hclaves _).mpr (Or.inr ⟨bl, hbl, c, hc, rfl⟩))
    · intro hcondicion
      refine ⟨hguardado, fun hash hsome => ?_⟩
      rcases (hclaves hash).mp hsome with hvieja | ⟨bl, hbl, c, hc, rfl⟩
      · exact hviejas hash hvieja
      · exact hcondicion tag htag hestado bl hbl c hc cero hcero

end Commit

section Write

variable {n : ℕ} {contenido original : Bytes} {bl : BlockLogico}

/-- The index has no entry, or WRITE_BLOCK removes it, or block0000 keeps its hash. -/
def EscribeAlDia (md5 : Bytes → String) (sb : Superbloque) (s : Storage)
    (original contenido : Bytes) : Prop :=
  ∀ cero, s.disco.physicalBlocks bloqueFisicoInicial = some cero →
    configGet s.hashIndexConfig (hashContenido md5 cero) = none ∨
      hashContenido md5 original = hashContenido md5 cero ∨
        hashContenido md5 (bufferEscritura sb original contenido) = hashContenido md5 cero

theorem indexSound_escribirCero_iff (h : Coherente sb s) (hsound : IndexSound md5 s)
    (hcabe : contenido.length ≤ sb.blockSize) (original : Bytes) :
    IndexSound md5 (escribirCero md5 sb s original contenido) ↔
      EscribeAlDia md5 sb s original contenido := by
  obtain ⟨cero, hcero, _⟩ := h.archivo_cero
  have hviejas := ((indexSound_iff h hcero).mp hsound).2
  have hcero' : (escribirCero md5 sb s original contenido).disco.physicalBlocks
      bloqueFisicoInicial = some (bufferEscritura sb original contenido) := by
    change Function.update s.disco.physicalBlocks bloqueFisicoInicial _ bloqueFisicoInicial = _
    exact Function.update_self ..
  rw [indexSound_iff (coherente_escribirCero h md5 original hcabe) hcero']
  constructor
  · rintro ⟨_, hclaves⟩ cero₁ hcero₁
    obtain rfl := Option.some.inj (hcero.symm.trans hcero₁)
    by_cases hquita : hashContenido md5 original = hashContenido md5 cero
    · exact Or.inr (Or.inl hquita)
    · cases hget : configGet s.hashIndexConfig (hashContenido md5 cero) with
      | none => exact Or.inl rfl
      | some b =>
        refine Or.inr (Or.inr (hclaves _ ?_).symm)
        change (configGet (configRemoveKey s.hashIndexConfig _) _).isSome
        rw [configGet_remove_ne _ (Ne.symm hquita), hget]
        rfl
  · intro haldia
    refine ⟨rfl, fun hash hsome => ?_⟩
    change (configGet (configRemoveKey s.hashIndexConfig _) hash).isSome at hsome
    have hne : hash ≠ hashContenido md5 original := by
      rintro rfl
      rw [configGet_remove_self] at hsome
      simp at hsome
    rw [configGet_remove_ne _ hne] at hsome
    obtain rfl := hviejas hash hsome
    rcases haldia cero hcero with hnone | hquita | hqueda
    · simp [hnone] at hsome
    · exact absurd hquita.symm hne
    · exact hqueda.symm

end Write

section Corrida

/-- COMMIT and WRITE_BLOCK keep the keys of the index the hash of block0000. -/
def IndiceAlDia (md5 : Bytes → String) (sb : Superbloque) (s : Storage) : Solicitud → Prop
  | .commit f t => LeeSoloCero md5 s f t
  | .writeBlock f t n contenido => ∀ bl original, Escribible sb s f t n contenido bl original →
      EscribeAlDia md5 sb s original contenido
  | _ => True

/-- The other requests change neither the index nor the contents of a block. -/
theorem conserva_indexSound {x : Solicitud} (hcommit : ∀ f t, x ≠ .commit f t)
    (hwrite : ∀ f t n contenido, x ≠ .writeBlock f t n contenido) :
    Conserva md5 sb (IndexSound md5) x where
  crear := fun _ _ _ _ _ _ hQ _ => indexSound_congr hQ rfl rfl rfl
  ampliar := fun _ _ _ _ _ _ _ _ hQ _ _ => indexSound_congr hQ rfl rfl rfl
  reducir := by
    intro s f t _ _ _ hQ _
    unfold reducir
    split
    · exact hQ
    · exact indexSound_congr hQ rfl rfl rfl
  terminar := by
    intro s f t tamanio _ _ hQ _
    obtain ⟨mc, hmc⟩ := terminarTruncate_eq s f t tamanio
    rw [hmc]
    exact indexSound_congr hQ rfl rfl rfl
  copiar := by
    intro s _ _ f t tag mc _ _ hQ _
    refine indexSound_congr hQ rfl ?_ rfl
    change (asegurarFile s f).hashIndexConfig = s.hashIndexConfig
    rw [asegurarFile_eq]
  commitear := fun _ f t _ _ _ _ heq => absurd heq (hcommit f t)
  escribir := fun _ f t n contenido _ _ heq => absurd heq (hwrite f t n contenido)
  eliminar := fun _ _ _ _ _ _ hQ _ => indexSound_congr hQ rfl rfl rfl

theorem indexSound_paso_iff {x : Solicitud} (h : Coherente sb s) (hsound : IndexSound md5 s)
    (hop : paso md5 sb s x = .ok s') : IndexSound md5 s' ↔ IndiceAlDia md5 sb s x := by
  by_cases hcommit : ∃ f t, x = .commit f t
  · obtain ⟨f, t, rfl⟩ := hcommit
    obtain ⟨c, hop⟩ := paso_commit hop
    exact indexSound_commit_iff h hsound hop
  · by_cases hwrite : ∃ f t n contenido, x = .writeBlock f t n contenido
    · obtain ⟨f, t, n, contenido, rfl⟩ := hwrite
      rcases paso_writeBlock h hop with ⟨rfl, hn⟩ | ⟨bl, original, he, rfl⟩
      · exact iff_of_true hsound fun bl original he => absurd he (hn bl original)
      · rw [indexSound_escribirCero_iff h hsound he.cabe]
        constructor
        · intro haldia bl' original' he'
          obtain rfl := Option.some.inj (he.bloque.symm.trans he'.bloque)
          obtain rfl := Option.some.inj (he.previo.symm.trans he'.previo)
          exact haldia
        · exact fun haldia => haldia bl original he
    · have hc : Conserva md5 sb (IndexSound md5) x :=
        conserva_indexSound (fun f t heq => hcommit ⟨f, t, heq⟩)
          fun f t n contenido heq => hwrite ⟨f, t, n, contenido, heq⟩
      refine iff_of_true (hc.paso h hsound hop).2 ?_
      unfold IndiceAlDia
      split
      · next f t => exact absurd ⟨f, t, rfl⟩ hcommit
      · next f t n contenido => exact absurd ⟨f, t, n, contenido, rfl⟩ hwrite
      · trivial

theorem indexSound_freshStart (md5 : Bytes → String) (sb : Superbloque) :
    IndexSound md5 (freshStart sb) := by
  obtain ⟨mc, hmc⟩ := freshStart_eq sb
  rw [hmc]
  exact ⟨rfl, fun hash b hget => by simp [configGet, first] at hget⟩

/-- The index is sound all along a run just when no COMMIT of the run reads a block
of another hash than block0000's, and no WRITE_BLOCK leaves behind the old one. -/
theorem indexSound_alongRun_iff (md5 : Bytes → String) (sb : Superbloque) (xs : List Solicitud) :
    AlongRun (paso md5 sb) (IndexSound md5) (freshStart sb) xs ↔
      EachStep (paso md5 sb) (IndiceAlDia md5 sb) (freshStart sb) xs := by
  refine alongRun_iff_eachStep (I := Coherente sb) (A := fun _ => True) ?_ ?_
    (coherente_freshStart sb) (indexSound_freshStart md5 sb) xs fun _ _ => trivial
  · exact fun s x s' _ hcoh hsound hop => indexSound_paso_iff hcoh hsound hop
  · exact fun s x s' _ hcoh _ _ hop => coherente_paso hcoh hop

/-- COMMIT of a new block enters the hash of its zeros under block0000, which
holds other bytes. -/
theorem not_indexSound_commit : ¬ ∀ md5 sb s, Alcanzable md5 sb s → IndexSound md5 s := by
  intro h
  have hsound := h hashLegible superbloqueChico _ (alcanzable_estadoTras hashLegible
    superbloqueChico [.create "a" "b", .truncate "a" "b" 2, .commit "a" "b"])
  have hget : configGet (estadoTras hashLegible superbloqueChico
      [.create "a" "b", .truncate "a" "b" 2, .commit "a" "b"]).hashIndexConfig "0" =
      some bloqueFisicoInicial := by decide
  have harchivo : (estadoTras hashLegible superbloqueChico [.create "a" "b", .truncate "a" "b" 2,
      .commit "a" "b"]).disco.physicalBlocks bloqueFisicoInicial = some [48, 48] := by decide
  obtain ⟨c, hc, hhash⟩ := hsound.2 "0" bloqueFisicoInicial hget
  rw [harchivo] at hc
  obtain rfl := Option.some.inj hc
  exact absurd hhash (by decide)

end Corrida

end MasterOfFiles.HashIndex
