import MasterOfFiles.ReachableStates

/-!
What a successful WRITE does to the hash index. It takes out the hash of what the
logical block's link read, whichever block that entry names, and the line with the
new hash is lost when config_save writes the dictionary back. The index is kept only
where it already was what WRITE should have made it.
-/
namespace MasterOfFiles.IndexUpdates

open KeyedLists ByteBuffers ConfigText BlockNames StorageState StorageFiles StorageOperations
open ReachableStates

variable {md5 : Bytes → String} {sb : Superbloque} {s s' : Storage} {f t b : String}
variable {bl : BlockLogico} {contenido leido nuevo : Bytes} {viejo : Option Bytes}

/-- From one index to another the entry of a block follows its contents: the new hash
names it, the old one does not any more, and the rest is as it was. -/
structure EntradaAlDia (md5 : Bytes → String) (antes despues : Config) (b : String)
    (viejo : Option Bytes) (nuevo : Bytes) : Prop where
  nueva : configGet despues (hashContenido md5 nuevo) = some b
  vieja : ∀ c, viejo = some c → hashContenido md5 c ≠ hashContenido md5 nuevo →
    configGet despues (hashContenido md5 c) ≠ some b
  otras : ∀ hash, hash ≠ hashContenido md5 nuevo →
    (∀ c, viejo = some c → hashContenido md5 c = hash → configGet antes hash ≠ some b) →
    configGet despues hash = configGet antes hash

/-- Taking a hash out is all the change the entry needs. -/
structure BastaQuitar (md5 : Bytes → String) (index : Config) (b hash : String)
    (viejo : Option Bytes) (nuevo : Bytes) : Prop where
  nueva : configGet index (hashContenido md5 nuevo) = some b
  distinta : hashContenido md5 nuevo ≠ hash
  propia : ∀ v, configGet index hash = some v →
    v = b ∧ ∃ c, viejo = some c ∧ hashContenido md5 c = hash
  vieja : ∀ c, viejo = some c → hashContenido md5 c ≠ hash →
    hashContenido md5 c ≠ hashContenido md5 nuevo →
    configGet index (hashContenido md5 c) ≠ some b

section Entradas

theorem bastaQuitar_of_alDia {index : Config} {hash : String}
    (h : EntradaAlDia md5 index (configRemoveKey index hash) b viejo nuevo) :
    BastaQuitar md5 index b hash viejo nuevo := by
  have hdistinta : hashContenido md5 nuevo ≠ hash := by
    intro heq
    have hnueva := h.nueva
    rw [heq, configGet_remove_self] at hnueva
    simp at hnueva
  refine ⟨?_, hdistinta, fun v hv => ?_, fun c hc hhash hnuevo => ?_⟩
  · rw [← configGet_remove_ne index hdistinta]
    exact h.nueva
  · by_contra hajena
    have hotra := h.otras hash hdistinta.symm fun c hc hhash hb =>
      hajena ⟨Option.some.inj (hv.symm.trans hb), c, hc, hhash⟩
    rw [configGet_remove_self, hv] at hotra
    simp at hotra
  · rw [← configGet_remove_ne index hhash]
    exact h.vieja c hc hnuevo

theorem alDia_of_bastaQuitar {index : Config} {hash : String}
    (h : BastaQuitar md5 index b hash viejo nuevo) :
    EntradaAlDia md5 index (configRemoveKey index hash) b viejo nuevo := by
  refine ⟨?_, fun c hc hnuevo => ?_, fun hash' hnuevo hotra => ?_⟩
  · rw [configGet_remove_ne index h.distinta]
    exact h.nueva
  · by_cases hhash : hashContenido md5 c = hash
    · rw [hhash, configGet_remove_self]
      simp
    · rw [configGet_remove_ne index hhash]
      exact h.vieja c hc hhash hnuevo
  · by_cases hhash : hash' = hash
    · subst hhash
      rw [configGet_remove_self]
      cases hget : configGet index hash' with
      | none => rfl
      | some v =>
        obtain ⟨rfl, c, hc, hvieja⟩ := h.propia v hget
        exact absurd hget (hotra c hc hvieja)
    · exact configGet_remove_ne index hhash

theorem alDia_iff_bastaQuitar {index : Config} {hash : String} :
    EntradaAlDia md5 index (configRemoveKey index hash) b viejo nuevo ↔
      BastaQuitar md5 index b hash viejo nuevo :=
  ⟨bastaQuitar_of_alDia, alDia_of_bastaQuitar⟩

end Entradas

section Escritura

/-- What a successful WRITE read, and what it leaves in the block and in the indexes. -/
theorem escritura_aceptada
    (hop : operacionWriteBloque md5 sb s f t bl contenido = (s', 0)) :
    ∃ leido, s.disco.getContenido (rutaBlockLogico f t bl.nombreBlock) = some leido ∧
      s'.hashIndexConfig = configRemoveKey s.hashIndexConfig (hashContenido md5 leido) ∧
      s'.disco.blocksHashIndex = s'.hashIndexConfig ∧
      s'.disco.physicalBlocks bl.bloqueFisicoAsociado =
        some (bufferEscritura sb leido contenido) := by
  unfold operacionWriteBloque at hop
  by_cases hnone : (buscarTag s f t).isNone
  · simp [hnone] at hop
  · rw [if_neg hnone] at hop
    cases hleido : s.disco.getContenido (rutaBlockLogico f t bl.nombreBlock) with
    | none => simp [hleido] at hop
    | some leido =>
      simp only [hleido] at hop
      by_cases hcabe : sb.blockSize < contenido.length
      · simp [hcabe] at hop
      · rw [if_neg hcabe] at hop
        cases hindex : buscarIndexBlockFisico s bl.bloqueFisicoAsociado with
        | none => simp [hindex] at hop
        | some i =>
          obtain ⟨hi, hname, _⟩ := List.findIdx?_eq_some_iff_getElem.mp hindex
          have hbf := List.getElem?_eq_getElem hi
          simp only [hindex, hbf] at hop
          obtain ⟨rfl, -⟩ := Prod.mk.inj hop
          refine ⟨leido, rfl, rfl, rfl, ?_⟩
          rw [← of_decide_eq_true hname]
          exact Function.update_self ..

/-- Both indexes after a WRITE on a block, against the index before it. -/
def IndicesAlDia (md5 : Bytes → String) (s s' : Storage) (b : String) : Prop :=
  ∃ nuevo, s'.disco.physicalBlocks b = some nuevo ∧
    EntradaAlDia md5 s.hashIndexConfig s'.hashIndexConfig b (s.disco.physicalBlocks b) nuevo ∧
    EntradaAlDia md5 s.hashIndexConfig s'.disco.blocksHashIndex b (s.disco.physicalBlocks b)
      nuevo

/-- A WRITE keeps both indexes exactly when taking out the hash of what the link read
leaves the block's entry as it should be. -/
theorem indicesAlDia_iff
    (hleido : s.disco.getContenido (rutaBlockLogico f t bl.nombreBlock) = some leido)
    (hop : operacionWriteBloque md5 sb s f t bl contenido = (s', 0)) :
    IndicesAlDia md5 s s' bl.bloqueFisicoAsociado ↔
      BastaQuitar md5 s.hashIndexConfig bl.bloqueFisicoAsociado (hashContenido md5 leido)
        (s.disco.physicalBlocks bl.bloqueFisicoAsociado)
        (bufferEscritura sb leido contenido) := by
  obtain ⟨leido', hleido', hindice, hguardado, hnuevo⟩ := escritura_aceptada hop
  obtain rfl := Option.some.inj (hleido.symm.trans hleido')
  unfold IndicesAlDia
  rw [hguardado, hindice]
  constructor
  · rintro ⟨nuevo, hnuevo', halDia, _⟩
    obtain rfl := Option.some.inj (hnuevo.symm.trans hnuevo')
    exact alDia_iff_bastaQuitar.mp halDia
  · intro hbasta
    have halDia := alDia_iff_bastaQuitar.mpr hbasta
    exact ⟨_, hnuevo, halDia, halDia⟩

end Escritura

section Inicial

/-- The block of BASE after a fresh start. -/
def blInicial : BlockLogico := ⟨bloqueLogicoInicial, bloqueFisicoInicial⟩

theorem escritura_inicial : ∃ leido s',
    (freshStart superbloqueChico).disco.getContenido
        (rutaBlockLogico "initial_file" "BASE" blInicial.nombreBlock) = some leido ∧
      operacionWriteBloque hashLegible superbloqueChico (freshStart superbloqueChico)
        "initial_file" "BASE" blInicial [65] = (s', 0) ∧ s'.hashIndexConfig = [] :=
  ⟨_, _, rfl, rfl, rfl⟩

theorem indicesAlDia_iff_inicial : ∃ leido s',
    IndicesAlDia hashLegible (freshStart superbloqueChico) s' bloqueFisicoInicial ↔
      BastaQuitar hashLegible (freshStart superbloqueChico).hashIndexConfig bloqueFisicoInicial
        (hashContenido hashLegible leido)
        ((freshStart superbloqueChico).disco.physicalBlocks bloqueFisicoInicial)
        (bufferEscritura superbloqueChico leido [65]) := by
  obtain ⟨leido, s', hleido, hop, _⟩ := escritura_inicial
  exact ⟨leido, s', indicesAlDia_iff hleido hop⟩

/-- The first WRITE after a fresh start leaves the index empty. -/
theorem not_indicesAlDia : ¬ ∀ md5 sb s f t bl contenido s',
    operacionWriteBloque md5 sb s f t bl contenido = (s', 0) →
      IndicesAlDia md5 s s' bl.bloqueFisicoAsociado := by
  intro h
  obtain ⟨leido, s', _, hop, hvacio⟩ := escritura_inicial
  obtain ⟨nuevo, _, halDia, _⟩ := h _ _ _ _ _ _ _ _ hop
  have hnueva := halDia.nueva
  rw [hvacio] at hnueva
  simp [configGet, first] at hnueva

end Inicial

end MasterOfFiles.IndexUpdates
