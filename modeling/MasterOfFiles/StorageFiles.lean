import MasterOfFiles.StorageState

/-!
Building Files and Tags, their metadata files, and the state main leaves behind
when the Storage is started with FRESH_START.
-/
namespace MasterOfFiles.StorageFiles

open KeyedLists ByteBuffers ConfigText BlockNames StorageState

def convertirStringAEstado (cadena : String) : Estado :=
  if cadena = "COMMITED" then .commited else .workInProgress

def convertirEstadoAString : Estado → String
  | .commited => "COMMITED"
  | .workInProgress => "WORK_IN_PROGRESS"

theorem convertirStringAEstado_convertirEstadoAString (e : Estado) :
    convertirStringAEstado (convertirEstadoAString e) = e := by
  cases e <;> decide

/-- What crear_tag appends to a metadata file. -/
def metadataInicial : Config :=
  [("TAMAÑO", "0"), ("BLOCKS", "[]"), ("ESTADO", "WORK_IN_PROGRESS")]

def crearMetadata (lineas : Config) : Metadata where
  tamanioFile := ((configGet (configCreate lineas) "TAMAÑO").map atoi).getD 0
  blocksFisicosUsados := ((configGet (configCreate lineas) "BLOCKS").map configArrayValue).getD []
  estado := ((configGet (configCreate lineas) "ESTADO").map convertirStringAEstado).getD
    .workInProgress

def textoBlocks (blocks : List String) : String := "[" ++ ",".intercalate blocks ++ "]"

/-- A missing metadata file is left missing. -/
def actualizarMetadata (d : Disco) (rt : RutaTag) (metadata : Metadata) : Disco :=
  match d.metadataConfig rt with
  | none => d
  | some lineas =>
    let metaConfig := configSetValue (configSetValue (configSetValue (configCreate lineas)
      "TAMAÑO" metadata.tamanioFile.repr)
      "BLOCKS" (textoBlocks metadata.blocksFisicosUsados))
      "ESTADO" (convertirEstadoAString metadata.estado)
    { d with metadataConfig := Function.update d.metadataConfig rt (some metaConfig) }

theorem actualizarMetadata_eq (d : Disco) (rt : RutaTag) (metadata : Metadata) :
    ∃ mc, actualizarMetadata d rt metadata = { d with metadataConfig := mc } := by
  unfold actualizarMetadata
  cases d.metadataConfig rt with
  | none => exact ⟨d.metadataConfig, rfl⟩
  | some lineas => exact ⟨_, rfl⟩

def crearFile (s : Storage) (nameFile : String) : Storage :=
  { s with listaFiles := s.listaFiles ++ [⟨nameFile, []⟩] }

def crearTag (d : Disco) (nameTag : String) (rt : RutaTag) : Tag × Disco :=
  let lineas := (d.metadataConfig rt).getD [] ++ metadataInicial
  (⟨nameTag, crearMetadata lineas, []⟩,
    { d with metadataConfig := Function.update d.metadataConfig rt (some lineas) })

def agregarTag (s : Storage) (nameFile : String) (tag : Tag) : Storage :=
  modificarTags s nameFile (· ++ [tag])

section Lectura

theorem configArrayValue_textoBlocks {l : List String}
    (h : ∀ e ∈ l, e ≠ "" ∧ ',' ∉ e.toList) : configArrayValue (textoBlocks l) = l := by
  have hinterior : ((textoBlocks l).toList.drop 1).dropLast =
      [','].intercalate (l.map String.toList) := by
    simp [textoBlocks, String.toList_intercalate]
  unfold configArrayValue
  rw [hinterior]
  cases l with
  | nil => rfl
  | cons e l =>
    have hno : [','].intercalate ((e :: l).map String.toList) ≠ [] := by
      have he : e.toList ≠ [] := mt String.toList_eq_nil_iff.mp (h e (List.mem_cons_self ..)).1
      cases l with
      | nil => simpa using he
      | cons e' l => simp
    rw [if_neg hno, List.splitOn_intercalate]
    · simp
    · intro cs hcs
      obtain ⟨e', he', rfl⟩ := List.mem_map.mp hcs
      exact (h e' he').2
    · simp

/-- The lines a metadata file has for `metadata`, the last ones counting; its size is the
int that is read of them. -/
structure Escrita (lineas : Config) (metadata : Metadata) : Prop where
  tamanio : (configGet (configCreate lineas) "TAMAÑO").map atoi = some metadata.tamanioFile
  blocks : configGet (configCreate lineas) "BLOCKS" =
    some (textoBlocks metadata.blocksFisicosUsados)
  estado : configGet (configCreate lineas) "ESTADO" =
    some (convertirEstadoAString metadata.estado)

/-- crear_metadata reads back what was written. -/
theorem Escrita.crearMetadata {lineas : Config} {metadata : Metadata} (h : Escrita lineas metadata)
    (hblocks : ∀ e ∈ metadata.blocksFisicosUsados, e ≠ "" ∧ ',' ∉ e.toList) :
    crearMetadata lineas = metadata := by
  unfold StorageFiles.crearMetadata
  rw [h.tamanio, h.blocks, h.estado]
  simp only [Option.map_some, Option.getD_some, configArrayValue_textoBlocks hblocks,
    convertirStringAEstado_convertirEstadoAString]

theorem escrita_append_inicial (lineas : Config) :
    Escrita (lineas ++ metadataInicial) ⟨0, [], .workInProgress⟩ := by
  have hultima : ∀ k, configGet (configCreate (lineas ++ metadataInicial)) k =
      (configGet metadataInicial.reverse k).or (configGet lineas.reverse k) := by
    intro k
    unfold configGet
    rw [← Option.map_or, ← first_append, ← List.reverse_append]
    exact configGet_create _ k
  refine ⟨?_, ?_, ?_⟩
  · rw [hultima]
    rfl
  · rw [hultima]
    rfl
  · rw [hultima]
    rfl

/-- The appended lines win over whatever an older metadata file said. -/
theorem crearMetadata_append_inicial (lineas : Config) :
    crearMetadata (lineas ++ metadataInicial) = ⟨0, [], .workInProgress⟩ :=
  (escrita_append_inicial lineas).crearMetadata fun _ he => absurd he List.not_mem_nil

/-- actualizar_metadata writes the lines of the metadata it is given, with its size in
decimal. -/
theorem actualizarMetadata_escrita {d : Disco} {rt : RutaTag} {lineas : Config}
    (h : d.metadataConfig rt = some lineas) (metadata : Metadata) :
    ∃ nuevas, Escrita nuevas { metadata with tamanioFile := atoi metadata.tamanioFile.repr } ∧
      actualizarMetadata d rt metadata =
        { d with metadataConfig := Function.update d.metadataConfig rt (some nuevas) } := by
  unfold actualizarMetadata
  rw [h]
  refine ⟨_, ⟨?_, ?_, ?_⟩, rfl⟩
  · rw [configGet_create_set, if_neg (by decide), configGet_create_set, if_neg (by decide),
      configGet_create_set, if_pos rfl, Option.map_some]
  · rw [configGet_create_set, if_neg (by decide), configGet_create_set, if_pos rfl]
  · rw [configGet_create_set, if_pos rfl]

end Lectura

@[simp] theorem crearTag_fst (d : Disco) (nameTag : String) (rt : RutaTag) :
    (crearTag d nameTag rt).1 = ⟨nameTag, ⟨0, [], .workInProgress⟩, []⟩ := by
  unfold crearTag
  simp only [crearMetadata_append_inicial]

section FreshStart

def contenidoInicial (sb : Superbloque) (i : ℕ) : Bytes :=
  List.replicate sb.blockSize (if i = 0 then 48 else 0)

def iniciarBloqueFisico (sb : Superbloque) (s : Storage) (i : ℕ) : Storage :=
  let disco := s.disco.escribirArchivoTruncado (nombreBloqueFisico i) (contenidoInicial sb i)
  { s with
    disco := disco
    listaBloquesFisicos := s.listaBloquesFisicos ++
      [⟨nombreBloqueFisico i, disco.physicalBlocks (nombreBloqueFisico i), 0⟩] }

def iniciarBloquesFisicos (sb : Superbloque) (s : Storage) : Storage :=
  (List.range (cantBlock sb)).foldl (iniciarBloqueFisico sb) s

def discoVacio : Disco where
  physicalBlocks := fun _ => none
  tagDirs := fun _ => false
  links := fun _ => none
  metadataConfig := fun _ => none
  blocksHashIndex := []

/-- A link that fails is only reported. -/
def linkearBlockInicial (d : Disco) (rt : RutaTag) : Disco :=
  match d.link bloqueFisicoInicial (rutaBlockLogico rt.1 rt.2 bloqueLogicoInicial) with
  | .ok disco => disco
  | .error _ => d

def tagBase (sb : Superbloque) (tag : Tag) : Tag :=
  { tag with
    listaBlockLogicos := tag.listaBlockLogicos ++ [⟨bloqueLogicoInicial, bloqueFisicoInicial⟩]
    metadata := ⟨sb.blockSize, tag.metadata.blocksFisicosUsados ++ ["0"], .commited⟩ }

/-- The bits from 1 to cant_block - 1 are cleared one by one. -/
def bitmapFreshStart (cant : ℕ) : List Bool :=
  (List.range' 1 (cant - 1)).foldl bitmapMarcarBloqueLibre
    (bitmapMarcarBloqueOcupado (crearBitmapVacio cant) 0)

def freshStart (sb : Superbloque) : Storage :=
  let s := iniciarBloquesFisicos sb ⟨[], [], crearBitmapVacio (cantBlock sb), [], discoVacio⟩
  let s := crearFile s "initial_file"
  let rt := rutaTag "initial_file" "BASE"
  let (tag, disco) := crearTag (s.disco.crearRutaTag rt) "BASE" rt
  let tag := tagBase sb tag
  let disco := actualizarMetadata (linkearBlockInicial disco rt) rt tag.metadata
  let s := agregarTag { s with disco := disco } "initial_file" tag
  { sumarAsociados s 0 1 with
    bitmap := bitmapFreshStart (cantBlock sb)
    hashIndexConfig := [] }

end FreshStart

end MasterOfFiles.StorageFiles
