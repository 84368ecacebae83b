import MasterOfFiles.TagLookups

/-!
The invariant of every state a Storage reaches. Whatever block TRUNCATE links a
new logical block to, it records the association with block0000, so block0000 is
the only block ever named in memory, in the metadata and in the hash index. The
invariant also ties the hard links to the bitmap: a linked block has its bit
set, and a block other than block0000 is linked at most once.
-/
namespace MasterOfFiles.BlockZero

open KeyedLists ByteBuffers ConfigText BlockNames StorageState StorageFiles StorageOperations
open TagLookups

def cambiarDisco (s : Storage) (d : Disco) : Storage := { s with disco := d }

def cambiarEnlaces (d : Disco) (links : RutaBlock → Option String) : Disco :=
  { d with links := links }

structure TagEnCero (tag : Tag) : Prop where
  asociados : ∀ bl ∈ tag.listaBlockLogicos, bl.bloqueFisicoAsociado = bloqueFisicoInicial
  usados : ∀ e ∈ tag.metadata.blocksFisicosUsados, e = "0"

structure Coherente (sb : Superbloque) (s : Storage) : Prop where
  tags_cero : TodoTag (fun _ tag => TagEnCero tag) s
  indice_cero : ∀ p ∈ s.hashIndexConfig, p.2 = bloqueFisicoInicial
  nombres : s.listaBloquesFisicos.map BlockFisico.pathBlock =
    (List.range (cantBlock sb)).map nombreBloqueFisico
  archivo : ∀ k < cantBlock sb, ∃ b, s.disco.physicalBlocks (nombreBloqueFisico k) = some b ∧
    b.length = sb.blockSize
  archivo_nombre : ∀ nombre, (s.disco.physicalBlocks nombre).isSome →
    ∃ k < cantBlock sb, nombre = nombreBloqueFisico k
  bit_cero : s.bitmap[0]? = some true
  enlace_ocupado : ∀ r b, s.disco.links r = some b →
    ∃ k < cantBlock sb, b = nombreBloqueFisico k ∧ s.bitmap[k]? = some true
  enlace_unico : ∀ r r' b, s.disco.links r = some b → s.disco.links r' = some b →
    b ≠ bloqueFisicoInicial → r = r'
  enlace_visible : ∀ r b, s.disco.links r = some b → (buscarTag s r.1 r.2.1).isSome

section Consecuencias

variable {sb : Superbloque} {s : Storage} {f t : String}

theorem Coherente.tag_cero (h : Coherente sb s) {tag : Tag} (htag : buscarTag s f t = some tag) :
    TagEnCero tag :=
  h.tags_cero.of_buscarTag htag

theorem Coherente.bloque_cero (h : Coherente sb s) :
    ∃ bf0 bfs, s.listaBloquesFisicos = bf0 :: bfs ∧ bf0.pathBlock = bloqueFisicoInicial := by
  obtain ⟨n, hn⟩ := Nat.exists_eq_succ_of_ne_zero (cantBlock_pos sb).ne'
  have hnombres := h.nombres
  rw [hn, List.range_succ_eq_map] at hnombres
  cases hbfs : s.listaBloquesFisicos with
  | nil => simp [hbfs] at hnombres
  | cons bf0 bfs =>
    rw [hbfs, List.map_cons, List.map_cons] at hnombres
    refine ⟨bf0, bfs, rfl, ?_⟩
    rw [(List.cons.inj hnombres).1, nombreBloqueFisico_zero]

theorem Coherente.index_cero (h : Coherente sb s) :
    buscarIndexBlockFisico s bloqueFisicoInicial = some 0 := by
  obtain ⟨bf0, bfs, hbfs, hname⟩ := h.bloque_cero
  unfold buscarIndexBlockFisico
  rw [hbfs, List.findIdx?_cons, if_pos (by simpa only [decide_eq_true_eq] using hname)]

theorem Coherente.archivo_cero (h : Coherente sb s) :
    ∃ b, s.disco.physicalBlocks bloqueFisicoInicial = some b ∧ b.length = sb.blockSize := by
  rw [← nombreBloqueFisico_zero]
  exact h.archivo 0 (cantBlock_pos sb)

/-- The numbers that have a block file are those of the superblock's blocks. -/
def ArchivosCompletos (sb : Superbloque) (s : Storage) : Prop :=
  ∀ k, (s.disco.physicalBlocks (nombreBloqueFisico k)).isSome ↔ k < cantBlock sb

theorem Coherente.archivo_isSome_iff (h : Coherente sb s) : ArchivosCompletos sb s := by
  intro k
  constructor
  · intro hsome
    obtain ⟨k', hk', hname⟩ := h.archivo_nombre _ hsome
    exact nombreBloqueFisico_injective hname ▸ hk'
  · intro hk
    obtain ⟨b, hb, _⟩ := h.archivo k hk
    rw [hb]
    rfl

/-- A linked block can be read, and what is read fills a block. -/
theorem Coherente.getContenido_of_link (h : Coherente sb s) {r : RutaBlock} {b : String}
    (hlink : s.disco.links r = some b) :
    ∃ c, s.disco.getContenido r = some c ∧ s.disco.physicalBlocks b = some c ∧
      c.length = sb.blockSize := by
  obtain ⟨k, hk, rfl, _⟩ := h.enlace_ocupado r b hlink
  obtain ⟨c, hc, hlen⟩ := h.archivo k hk
  refine ⟨c, ?_, hc, hlen⟩
  rw [Disco.getContenido, hlink, Option.bind_some, hc]

theorem Coherente.length_of_getContenido (h : Coherente sb s) {r : RutaBlock} {c : Bytes}
    (hc : s.disco.getContenido r = some c) : c.length = sb.blockSize := by
  obtain ⟨b, hlink, hb⟩ := Option.bind_eq_some_iff.mp hc
  obtain ⟨c', hc', _, hlen⟩ := h.getContenido_of_link hlink
  rw [hc] at hc'
  obtain rfl := Option.some.inj hc'
  exact hlen

end Consecuencias

section Preservacion

variable {sb : Superbloque} {s : Storage}

theorem map_pathBlock_modify {g : BlockFisico → BlockFisico}
    (hg : ∀ bf, (g bf).pathBlock = bf.pathBlock) (bfs : List BlockFisico) (i : ℕ) :
    (bfs.modify i g).map BlockFisico.pathBlock = bfs.map BlockFisico.pathBlock := by
  apply List.ext_getElem?
  intro j
  rw [List.getElem?_map, List.getElem?_map, List.getElem?_modify]
  cases bfs[j]? with
  | none => rfl
  | some bf =>
    rcases eq_or_ne i j with hij | hij
    · simp [hij, hg]
    · simp [hij]

theorem Coherente.sumarAsociados (h : Coherente sb s) (indexBf : ℕ) (k : ℤ) :
    Coherente sb (sumarAsociados s indexBf k) :=
  { h with
    nombres := by
      refine Eq.trans (map_pathBlock_modify ?_ _ _) h.nombres
      exact fun _ => rfl }

/-- Directories, metadata files and the stored index play no part in the invariant. -/
theorem Coherente.conDisco (h : Coherente sb s) {d : Disco}
    (hphysical : d.physicalBlocks = s.disco.physicalBlocks) (hlinks : d.links = s.disco.links) :
    Coherente sb (cambiarDisco s d) where
  tags_cero := h.tags_cero
  indice_cero := h.indice_cero
  nombres := h.nombres
  archivo := hphysical ▸ h.archivo
  archivo_nombre := hphysical ▸ h.archivo_nombre
  bit_cero := h.bit_cero
  enlace_ocupado := hlinks ▸ h.enlace_ocupado
  enlace_unico := hlinks ▸ h.enlace_unico
  enlace_visible := hlinks ▸ h.enlace_visible

/-- Links may be dropped, or made to block0000 from a Tag that is found. -/
theorem Coherente.conEnlaces (h : Coherente sb s) {links : RutaBlock → Option String}
    (hlinks : ∀ r b, links r = some b → s.disco.links r = some b ∨
      b = bloqueFisicoInicial ∧ (buscarTag s r.1 r.2.1).isSome) :
    Coherente sb (cambiarDisco s (cambiarEnlaces s.disco links)) where
  tags_cero := h.tags_cero
  indice_cero := h.indice_cero
  nombres := h.nombres
  archivo := h.archivo
  archivo_nombre := h.archivo_nombre
  bit_cero := h.bit_cero
  enlace_ocupado := by
    intro r b hr
    rcases hlinks r b hr with hold | ⟨rfl, _⟩
    · exact h.enlace_ocupado r b hold
    · exact ⟨0, cantBlock_pos sb, nombreBloqueFisico_zero.symm, h.bit_cero⟩
  enlace_unico := by
    intro r r' b hr hr' hb
    rcases hlinks r b hr with hold | ⟨rfl, _⟩
    · rcases hlinks r' b hr' with hold' | ⟨rfl, _⟩
      · exact h.enlace_unico r r' b hold hold' hb
      · exact absurd rfl hb
    · exact absurd rfl hb
  enlace_visible := by
    intro r b hr
    rcases hlinks r b hr with hold | ⟨_, hvisible⟩
    · exact h.enlace_visible r b hold
    · exact hvisible

theorem Coherente.conIndice (h : Coherente sb s) {index : Config}
    (hindex : ∀ p ∈ index, p.2 = bloqueFisicoInicial) :
    Coherente sb { s with hashIndexConfig := index } :=
  { h with indice_cero := hindex }

/-- Changes to the File list keep what is found and leave every Tag at block0000. -/
theorem Coherente.conFiles (h : Coherente sb s) {s' : Storage}
    (hdisco : s'.disco = s.disco) (hindex : s'.hashIndexConfig = s.hashIndexConfig)
    (hbfs : s'.listaBloquesFisicos = s.listaBloquesFisicos) (hbitmap : s'.bitmap = s.bitmap)
    (htags : TodoTag (fun _ tag => TagEnCero tag) s')
    (hvisible : ∀ r b, s.disco.links r = some b → (buscarTag s' r.1 r.2.1).isSome) :
    Coherente sb s' where
  tags_cero := htags
  indice_cero := hindex ▸ h.indice_cero
  nombres := hbfs ▸ h.nombres
  archivo := hdisco ▸ h.archivo
  archivo_nombre := hdisco ▸ h.archivo_nombre
  bit_cero := hbitmap ▸ h.bit_cero
  enlace_ocupado := by
    rw [hdisco, hbitmap]
    exact h.enlace_ocupado
  enlace_unico := hdisco ▸ h.enlace_unico
  enlace_visible := by
    rw [hdisco]
    exact hvisible

theorem Coherente.modificarTag (h : Coherente sb s) (f t : String) {g : Tag → Tag}
    (hname : ∀ tag, (g tag).nameTag = tag.nameTag)
    (hcero : ∀ tag, buscarTag s f t = some tag → TagEnCero tag → TagEnCero (g tag)) :
    Coherente sb (modificarTag s f t g) := by
  refine h.conFiles rfl rfl rfl rfl (h.tags_cero.modificarTag hcero) ?_
  intro r b hr
  rw [isSome_buscarTag_modificarTag s hname]
  exact h.enlace_visible r b hr

theorem Coherente.crearFile (h : Coherente sb s) (f : String) :
    Coherente sb (crearFile s f) := by
  refine h.conFiles rfl rfl rfl rfl (h.tags_cero.crearFile f) ?_
  intro r b hr
  rw [buscarTag_crearFile]
  exact h.enlace_visible r b hr

theorem Coherente.asegurarFile (h : Coherente sb s) (f : String) :
    Coherente sb (asegurarFile s f) := by
  unfold StorageOperations.asegurarFile
  split_ifs
  · exact h
  · exact h.crearFile f

theorem Coherente.agregarTag (h : Coherente sb s) {f : String} {tag : Tag}
    (hfile : (buscarFile s f).isSome) (htag : TagEnCero tag) :
    Coherente sb (agregarTag s f tag) := by
  refine h.conFiles rfl rfl rfl rfl (h.tags_cero.agregarTag htag) ?_
  intro r b hr
  rw [buscarTag_agregarTag s hfile, Option.isSome_or, h.enlace_visible r b hr, Bool.true_or]

theorem Coherente.quitarTag (h : Coherente sb s) {f t : String}
    (hdir : ∀ r b, s.disco.links r = some b → directorio r ≠ rutaTag f t) :
    Coherente sb (quitarTag s f t) := by
  refine h.conFiles rfl rfl rfl rfl (h.tags_cero.quitarTag f t) ?_
  intro r b hr
  rw [buscarTag_quitarTag_ne s (hdir r b hr)]
  exact h.enlace_visible r b hr

end Preservacion

end MasterOfFiles.BlockZero
