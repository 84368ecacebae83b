import MasterOfFiles.BlockTable
import MasterOfFiles.TruncateTurns

/-!
Consistent images of the disk, as a Storage has them once loaded: the table, the
block files and the index have the blocks of the superblock, and every Tag has its
blocks linked and the list BLOCKS of its metadata, in memory and in metadata.config,
exact. A step that works on one Tag keeps what is the others' own, so a consistent
image stays so just when that Tag's list does.
-/
namespace MasterOfFiles.ConsistentImages

open ConfigText BlockNames StorageState StorageFiles StorageOperations
open TagLookups BlockZero BlockTable TruncateTurns

variable {sb : Superbloque} {s s' s'' : Storage} {f t : String}
variable {tag : Tag} {bls bls' : List BlockLogico} {usados : List String}

section Propiedad

/-- The numbers in blocks_usados are, once each, the places in the table of the
blocks the logical blocks are associated with. -/
structure ListaExacta (s : Storage) (tag : Tag) : Prop where
  sin_repetir : (tag.metadata.blocksFisicosUsados.map atoi).Nodup
  exacta : ∀ n : ℤ, n ∈ tag.metadata.blocksFisicosUsados.map atoi ↔
    ∃ bl ∈ tag.listaBlockLogicos, ∃ k : ℕ,
      buscarIndexBlockFisico s bl.bloqueFisicoAsociado = some k ∧ n = k

/-- metadata.config has the same list. -/
def EnDisco (d : Disco) (f t : String) (usados : List String) : Prop :=
  (d.metadataConfig (rutaTag f t)).map (fun lineas => (crearMetadata lineas).blocksFisicosUsados) =
    some usados

def BlocksExactos (s : Storage) : Prop :=
  ∀ f t tag, buscarTag s f t = some tag →
    ListaExacta s tag ∧ EnDisco s.disco f t tag.metadata.blocksFisicosUsados

end Propiedad

section Imagen

def DelSuperbloque (sb : Superbloque) (b : String) : Prop :=
  ∃ k < cantBlock sb, b = nombreBloqueFisico k

/-- The entries are, in decimal and once each, the numbers of the blocks of `bls`. -/
def UsadosDe (bls : List BlockLogico) (usados : List String) : Prop :=
  ∃ ks : List ℕ, usados = ks.map Nat.repr ∧ ks.Nodup ∧
    ∀ k, k ∈ ks ↔ nombreBloqueFisico k ∈ bls.map BlockLogico.bloqueFisicoAsociado

/-- The blocks of a Tag are linked under different names. -/
structure TagEnlazado (sb : Superbloque) (d : Disco) (f t : String) (tag : Tag) : Prop where
  nombres : (tag.listaBlockLogicos.map BlockLogico.nombreBlock).Nodup
  bloques : ∀ bl ∈ tag.listaBlockLogicos, DelSuperbloque sb bl.bloqueFisicoAsociado
  enlaces : ∀ bl ∈ tag.listaBlockLogicos,
    (d.links (rutaBlockLogico f t bl.nombreBlock)).isSome
  carpeta : d.tagDirs (rutaTag f t) = true

structure TagSano (sb : Superbloque) (d : Disco) (f t : String) (tag : Tag) : Prop
    extends TagEnlazado sb d f t tag where
  usados : UsadosDe tag.listaBlockLogicos tag.metadata.blocksFisicosUsados
  guardado : EnDisco d f t tag.metadata.blocksFisicosUsados

/-- The table, the block files and the index have the blocks of the superblock. -/
structure BloquesSanos (sb : Superbloque) (s : Storage) : Prop where
  tabla : TablaCompleta sb s
  archivos : ArchivosCompletos sb s
  indice : ∀ p ∈ s.hashIndexConfig, DelSuperbloque sb p.2

/-- What a consistent image is in memory once loaded. -/
structure ImagenConsistente (sb : Superbloque) (s : Storage) : Prop extends BloquesSanos sb s where
  tags : ∀ f t tag, buscarTag s f t = some tag → TagSano sb s.disco f t tag

theorem map_atoi_repr {ks : List ℕ} (h : ∀ k ∈ ks, k < 2 ^ 31) :
    (ks.map Nat.repr).map atoi = ks.map fun k : ℕ => (k : ℤ) := by
  rw [List.map_map]
  refine List.map_congr_left fun k hk => ?_
  have hlt := h k hk
  exact atoi_repr (n := k) ⟨by omega, by omega⟩

theorem repr_injective : Function.Injective Nat.repr := by
  intro m n h
  have hentero := congrArg leerEntero h
  exact Int.ofNat.inj ((leerEntero_repr m).symm.trans (hentero.trans (leerEntero_repr n)))

/-- There are no more blocks than an int counts. -/
theorem cantBlock_lt (sb : Superbloque) : cantBlock sb < 2 ^ 31 :=
  (Nat.div_le_self ..).trans_lt sb.int_range

theorem DelSuperbloque.lt {k : ℕ} (h : DelSuperbloque sb (nombreBloqueFisico k)) :
    k < cantBlock sb := by
  obtain ⟨j, hj, hname⟩ := h
  rwa [nombreBloqueFisico_injective hname]

theorem BloquesSanos.buscarIndex_iff (h : BloquesSanos sb s) {b : String}
    (hb : DelSuperbloque sb b) (k : ℕ) :
    buscarIndexBlockFisico s b = some k ↔ b = nombreBloqueFisico k := by
  obtain ⟨j, hj, rfl⟩ := hb
  rw [buscarIndex_of_tabla h.tabla hj, Option.some.injEq, nombreBloqueFisico_injective.eq_iff]

theorem BloquesSanos.archivo (h : BloquesSanos sb s) {b : String} (hb : DelSuperbloque sb b) :
    (s.disco.physicalBlocks b).isSome := by
  obtain ⟨k, hk, rfl⟩ := hb
  exact (h.archivos k).mpr hk

/-- With entries in decimal, the list is exact when its numbers are those of the blocks. -/
theorem listaExacta_iff (h : BloquesSanos sb s)
    (hbls : ∀ bl ∈ tag.listaBlockLogicos, DelSuperbloque sb bl.bloqueFisicoAsociado) {ks : List ℕ}
    (hint : ∀ k ∈ ks, k < 2 ^ 31) (hks : tag.metadata.blocksFisicosUsados = ks.map Nat.repr) :
    ListaExacta s tag ↔ ks.Nodup ∧ ∀ k, k ∈ ks ↔
      nombreBloqueFisico k ∈ tag.listaBlockLogicos.map BlockLogico.bloqueFisicoAsociado := by
  have hnodup : (tag.metadata.blocksFisicosUsados.map atoi).Nodup ↔ ks.Nodup := by
    rw [hks, map_atoi_repr hint]
    exact List.nodup_map_iff Nat.cast_injective
  have hmem : ∀ k : ℕ, (k : ℤ) ∈ tag.metadata.blocksFisicosUsados.map atoi ↔ k ∈ ks := by
    intro k
    rw [hks, map_atoi_repr hint]
    exact List.mem_map_of_injective Nat.cast_injective
  have hindice : ∀ n : ℤ, (∃ bl ∈ tag.listaBlockLogicos, ∃ k : ℕ,
        buscarIndexBlockFisico s bl.bloqueFisicoAsociado = some k ∧ n = k) ↔
      ∃ k : ℕ, n = k ∧
        nombreBloqueFisico k ∈ tag.listaBlockLogicos.map BlockLogico.bloqueFisicoAsociado := by
    intro n
    constructor
    · rintro ⟨bl, hbl, k, hk, rfl⟩
      refine ⟨k, rfl, List.mem_map.mpr ⟨bl, hbl, ?_⟩⟩
      exact (h.buscarIndex_iff (hbls bl hbl) k).mp hk
    · rintro ⟨k, rfl, hk⟩
      obtain ⟨bl, hbl, hname⟩ := List.mem_map.mp hk
      exact ⟨bl, hbl, k, (h.buscarIndex_iff (hbls bl hbl) k).mpr hname, rfl⟩
  constructor
  · intro hexacta
    refine ⟨hnodup.mp hexacta.sin_repetir, fun k => ?_⟩
    rw [← hmem, hexacta.exacta, hindice]
    constructor
    · rintro ⟨j, hj, hk⟩
      rwa [Int.ofNat.inj hj]
    · exact fun hk => ⟨k, rfl, hk⟩
  · rintro ⟨hnd, hiff⟩
    refine ⟨hnodup.mpr hnd, fun n => ?_⟩
    rw [hindice]
    constructor
    · intro hn
      rw [hks, map_atoi_repr hint] at hn
      obtain ⟨k, hk, rfl⟩ := List.mem_map.mp hn
      exact ⟨k, rfl, (hiff k).mp hk⟩
    · rintro ⟨k, rfl, hk⟩
      exact (hmem k).mpr ((hiff k).mpr hk)

theorem UsadosDe.lt {ks : List ℕ}
    (hbls : ∀ bl ∈ bls, DelSuperbloque sb bl.bloqueFisicoAsociado)
    (hks : ∀ k, k ∈ ks ↔ nombreBloqueFisico k ∈ bls.map BlockLogico.bloqueFisicoAsociado) :
    ∀ k ∈ ks, k < 2 ^ 31 := by
  intro k hk
  obtain ⟨bl, hbl, hname⟩ := List.mem_map.mp ((hks k).mp hk)
  have hlt := (hname ▸ hbls bl hbl).lt
  exact hlt.trans (cantBlock_lt sb)

theorem blocksExactos_of_imagen (h : ImagenConsistente sb s) : BlocksExactos s := by
  intro f t tag htag
  have hsano := h.tags f t tag htag
  obtain ⟨ks, hks, hexactos⟩ := hsano.usados
  have hint := UsadosDe.lt hsano.bloques hexactos.2
  exact ⟨(listaExacta_iff h.toBloquesSanos hsano.bloques hint hks).mpr hexactos, hsano.guardado⟩

end Imagen

section Marco

/-- What is the other Tags' own is as before. -/
structure Ajenos (f t : String) (s s' : Storage) : Prop where
  buscar : ∀ f' t', rutaTag f' t' ≠ rutaTag f t → buscarTag s' f' t' = buscarTag s f' t'
  enlaces : ∀ r, directorio r ≠ rutaTag f t → s'.disco.links r = s.disco.links r
  carpetas : ∀ rt, rt ≠ rutaTag f t → s'.disco.tagDirs rt = s.disco.tagDirs rt
  metadata : ∀ rt, rt ≠ rutaTag f t → s'.disco.metadataConfig rt = s.disco.metadataConfig rt

theorem Ajenos.trans (h : Ajenos f t s s') (h' : Ajenos f t s' s'') : Ajenos f t s s'' where
  buscar := fun f' t' hne => (h'.buscar f' t' hne).trans (h.buscar f' t' hne)
  enlaces := fun r hr => (h'.enlaces r hr).trans (h.enlaces r hr)
  carpetas := fun rt hrt => (h'.carpetas rt hrt).trans (h.carpetas rt hrt)
  metadata := fun rt hrt => (h'.metadata rt hrt).trans (h.metadata rt hrt)

/-- A change of one Tag's entry and of its links. -/
theorem ajenos_of_soloEnlaces {nombres : List String} {g : Tag → Tag}
    (hg : ∀ tag, (g tag).nameTag = tag.nameTag)
    (hlista : s'.listaFiles = (modificarTag s f t g).listaFiles)
    (h : SoloEnlaces f t nombres s s') : Ajenos f t s s' where
  buscar := by
    intro f' t' hne
    rw [buscarTag_congr hlista, buscarTag_modificarTag_ne s hg hne]
  enlaces := fun _ hr => h.enlaces_otro hr
  carpetas := fun rt _ => congrFun h.carpetas rt
  metadata := fun rt _ => congrFun h.metadata rt

theorem EnDisco.congr {d d' : Disco} (h : EnDisco d f t usados)
    (hmetadata : d'.metadataConfig (rutaTag f t) = d.metadataConfig (rutaTag f t)) :
    EnDisco d' f t usados := by
  unfold EnDisco
  rw [hmetadata]
  exact h

/-- Of the disk, a Tag needs its own directory, metadata file and links. -/
theorem TagSano.congr {d d' : Disco} (h : TagSano sb d f t tag)
    (henlaces : ∀ nombre, d'.links (rutaBlockLogico f t nombre) =
      d.links (rutaBlockLogico f t nombre))
    (hcarpeta : d'.tagDirs (rutaTag f t) = d.tagDirs (rutaTag f t))
    (hmetadata : d'.metadataConfig (rutaTag f t) = d.metadataConfig (rutaTag f t)) :
    TagSano sb d' f t tag where
  nombres := h.nombres
  bloques := h.bloques
  enlaces := by
    intro bl hbl
    rw [henlaces]
    exact h.enlaces bl hbl
  carpeta := hcarpeta.trans h.carpeta
  usados := h.usados
  guardado := h.guardado.congr hmetadata

/-- Where only one Tag is touched, only that Tag has to be looked at. -/
theorem ImagenConsistente.ajenos (h : ImagenConsistente sb s) (hs' : BloquesSanos sb s')
    (ha : Ajenos f t s s')
    (hself : ∀ tag, buscarTag s' f t = some tag → TagSano sb s'.disco f t tag) :
    ImagenConsistente sb s' where
  toBloquesSanos := hs'
  tags := by
    intro f' t' tag' htag'
    rcases eq_or_ne (rutaTag f' t') (rutaTag f t) with heq | hne
    · obtain ⟨rfl, rfl⟩ := Prod.mk.inj heq
      exact hself tag' htag'
    · rw [ha.buscar f' t' hne] at htag'
      refine (h.tags f' t' tag' htag').congr (fun nombre => ?_) (ha.carpetas _ hne)
        (ha.metadata _ hne)
      exact ha.enlaces _ (by rwa [directorio_rutaBlockLogico])

theorem BloquesSanos.of_soloEnlaces {nombres : List String} (h : BloquesSanos sb s)
    (htabla : BlockTable.tabla s' = BlockTable.tabla s)
    (hsolo : SoloEnlaces f t nombres s s')
    (hindice : ∀ p ∈ s'.hashIndexConfig, DelSuperbloque sb p.2) : BloquesSanos sb s' where
  tabla := htabla.trans h.tabla
  archivos := hsolo.archivosCompletos h.archivos
  indice := hindice

end Marco

section Guardar

/-- The entries are numbers in decimal that an int holds. -/
def EnDecimal (usados : List String) : Prop :=
  ∃ ks : List ℕ, (∀ k ∈ ks, k < 2 ^ 31) ∧ usados = ks.map Nat.repr

theorem enDecimal_nil : EnDecimal [] := ⟨[], fun _ hk => absurd hk List.not_mem_nil, rfl⟩

theorem UsadosDe.enDecimal (h : UsadosDe bls usados)
    (hbls : ∀ bl ∈ bls, DelSuperbloque sb bl.bloqueFisicoAsociado) : EnDecimal usados := by
  obtain ⟨ks, hks, -, hiff⟩ := h
  exact ⟨ks, UsadosDe.lt hbls hiff, hks⟩

theorem EnDecimal.legible (h : EnDecimal usados) : ∀ e ∈ usados, e ≠ "" ∧ ',' ∉ e.toList := by
  obtain ⟨ks, -, rfl⟩ := h
  intro e he
  obtain ⟨k, _, rfl⟩ := List.mem_map.mp he
  constructor
  · intro hvacio
    have hpos : 0 < k.repr.length := Nat.length_repr_pos
    rw [hvacio] at hpos
    exact absurd hpos (by decide)
  · rw [Nat.toList_repr]
    intro hmem
    exact absurd (Nat.isDigit_of_mem_toDigits (by decide) (by decide) hmem) (by decide)

/-- What actualizar_metadata writes is what crear_metadata reads. -/
theorem enDisco_actualizar {d : Disco} (h : (d.metadataConfig (rutaTag f t)).isSome)
    {metadata : Metadata} (hdec : EnDecimal metadata.blocksFisicosUsados) :
    EnDisco (actualizarMetadata d (rutaTag f t) metadata) f t metadata.blocksFisicosUsados := by
  obtain ⟨lineas, hlineas⟩ := Option.isSome_iff_exists.mp h
  obtain ⟨nuevas, hescrita, hd⟩ := actualizarMetadata_escrita hlineas metadata
  have hleida := hescrita.crearMetadata hdec.legible
  unfold EnDisco
  rw [hd]
  dsimp only
  rw [Function.update_self, Option.map_some, hleida]

/-- A Tag's first lines say that it has no blocks. -/
theorem enDisco_crearTag (d : Disco) (f t : String) :
    EnDisco (crearTag d t (rutaTag f t)).2 f t [] := by
  unfold EnDisco crearTag
  dsimp only
  rw [Function.update_self, Option.map_some, crearMetadata_append_inicial]

theorem metadataConfig_actualizar_ne (d : Disco) {rt rt' : RutaTag} (hne : rt' ≠ rt)
    (metadata : Metadata) :
    (actualizarMetadata d rt metadata).metadataConfig rt' = d.metadataConfig rt' := by
  unfold actualizarMetadata
  split
  · rfl
  · exact Function.update_of_ne hne ..

theorem EnDisco.isSome {d : Disco} (h : EnDisco d f t usados) :
    (d.metadataConfig (rutaTag f t)).isSome := by
  rw [← Option.isSome_map, show _ = some usados from h]
  rfl

/-- Changing a Tag's entry and writing its metadata. -/
theorem guardar_efecto {g : Tag → Tag} (hg : ∀ tag, (g tag).nameTag = tag.nameTag)
    (htag : buscarTag s f t = some tag) :
    buscarTag (guardarMetadata (modificarTag s f t g) f t) f t = some (g tag) ∧
      guardarMetadata (modificarTag s f t g) f t = cambiarDisco (modificarTag s f t g)
        (actualizarMetadata s.disco (rutaTag f t) (g tag).metadata) := by
  have hself : buscarTag (modificarTag s f t g) f t = some (g tag) := by
    rw [buscarTag_modificarTag_self s hg, htag, Option.map_some]
  have heq : guardarMetadata (modificarTag s f t g) f t = cambiarDisco (modificarTag s f t g)
      (actualizarMetadata s.disco (rutaTag f t) (g tag).metadata) := by
    unfold guardarMetadata
    rw [hself]
    rfl
  refine ⟨?_, heq⟩
  rw [heq]
  exact hself

end Guardar

section Decide

/-- The condition says whether the lists are exact after a step; if so, the image
stays consistent. -/
structure Decide (sb : Superbloque) (s' : Storage) (C : Prop) : Prop where
  basta : C → ImagenConsistente sb s'
  hace_falta : BlocksExactos s' → C

theorem Decide.congr {C C' : Prop} (h : Decide sb s' C) (hC : C ↔ C') : Decide sb s' C' where
  basta := fun h' => h.basta (hC.mpr h')
  hace_falta := fun h' => hC.mp (h.hace_falta h')

theorem Decide.of_imagen (h : ImagenConsistente sb s) {C : Prop} (hC : C) : Decide sb s C :=
  ⟨fun _ => h, fun _ => hC⟩

/-- A Tag that is changed and written. -/
theorem decide_guardar {g : Tag → Tag} (h : ImagenConsistente sb s) (hs' : BloquesSanos sb s')
    (ha : Ajenos f t s s') (hg : ∀ tag, (g tag).nameTag = tag.nameTag)
    (htag : buscarTag s' f t = some tag)
    (hmetadata : (s'.disco.metadataConfig (rutaTag f t)).isSome)
    (henlazado : TagEnlazado sb s'.disco f t (g tag))
    (hdec : EnDecimal (g tag).metadata.blocksFisicosUsados) :
    Decide sb (guardarMetadata (modificarTag s' f t g) f t)
      (UsadosDe (g tag).listaBlockLogicos (g tag).metadata.blocksFisicosUsados) := by
  obtain ⟨hself, heq⟩ := guardar_efecto hg htag
  have hdisco := enDisco_actualizar hmetadata hdec
  obtain ⟨mc, hmc⟩ := actualizarMetadata_eq s'.disco (rutaTag f t) (g tag).metadata
  have hsanos : BloquesSanos sb (guardarMetadata (modificarTag s' f t g) f t) := by
    rw [heq, hmc]
    exact ⟨hs'.tabla, hs'.archivos, hs'.indice⟩
  constructor
  · intro husados
    refine h.ajenos hsanos (ha.trans ?_) fun tag' htag' => ?_
    · rw [heq]
      refine ⟨fun f' t' hne => buscarTag_modificarTag_ne s' hg hne, ?_, ?_, ?_⟩
      · intro r _
        rw [hmc]
        rfl
      · intro rt _
        rw [hmc]
        rfl
      · exact fun rt hrt => metadataConfig_actualizar_ne s'.disco hrt _
    · obtain rfl := Option.some.inj (hself.symm.trans htag')
      rw [heq]
      refine ⟨⟨henlazado.nombres, henlazado.bloques, ?_, ?_⟩, husados, hdisco⟩
      · rw [hmc]
        exact henlazado.enlaces
      · rw [hmc]
        exact henlazado.carpeta
  · intro hexactos
    obtain ⟨ks, hint, hks⟩ := hdec
    have hlista := listaExacta_iff hsanos henlazado.bloques hint hks
    exact ⟨ks, hks, hlista.mp (hexactos f t _ hself).1⟩

/-- The two lists of blocks have the same physical blocks. -/
def MismosBloques (bls bls' : List BlockLogico) : Prop :=
  ∀ b, b ∈ bls.map BlockLogico.bloqueFisicoAsociado ↔ b ∈ bls'.map BlockLogico.bloqueFisicoAsociado

theorem usadosDe_iff_mismos (h : UsadosDe bls usados)
    (hbls : ∀ bl ∈ bls, DelSuperbloque sb bl.bloqueFisicoAsociado)
    (hbls' : ∀ bl ∈ bls', DelSuperbloque sb bl.bloqueFisicoAsociado) :
    UsadosDe bls' usados ↔ MismosBloques bls' bls := by
  obtain ⟨ks, hks, hnd, hiff⟩ := h
  have hnombre : ∀ bls : List BlockLogico, (∀ bl ∈ bls, DelSuperbloque sb bl.bloqueFisicoAsociado) →
      ∀ b ∈ bls.map BlockLogico.bloqueFisicoAsociado, ∃ k, b = nombreBloqueFisico k := by
    intro bls hbls b hb
    obtain ⟨bl, hbl, rfl⟩ := List.mem_map.mp hb
    obtain ⟨k, _, hk⟩ := hbls bl hbl
    exact ⟨k, hk⟩
  constructor
  · rintro ⟨ks', hks', _, hiff'⟩ b
    obtain rfl : ks' = ks := List.map_injective_iff.mpr repr_injective (hks'.symm.trans hks)
    constructor
    · intro hb
      obtain ⟨k, rfl⟩ := hnombre bls' hbls' b hb
      exact (hiff k).mp ((hiff' k).mpr hb)
    · intro hb
      obtain ⟨k, rfl⟩ := hnombre bls hbls b hb
      exact (hiff' k).mp ((hiff k).mpr hb)
  · exact fun hmismos => ⟨ks, hks, hnd, fun k => (hiff k).trans (hmismos _).symm⟩

theorem usadosDe_nil_iff (hbls : ∀ bl ∈ bls, DelSuperbloque sb bl.bloqueFisicoAsociado) :
    UsadosDe bls [] ↔ bls = [] := by
  have hvacio : UsadosDe [] [] := ⟨[], rfl, List.nodup_nil, fun _ => by simp⟩
  rw [usadosDe_iff_mismos hvacio (fun _ hbl => absurd hbl List.not_mem_nil) hbls]
  constructor
  · intro hmismos
    cases bls with
    | nil => rfl
    | cons bl bls => exact absurd ((hmismos _).mp (List.mem_cons_self ..)) List.not_mem_nil
  · rintro rfl
    exact fun _ => Iff.rfl

end Decide

end MasterOfFiles.ConsistentImages
