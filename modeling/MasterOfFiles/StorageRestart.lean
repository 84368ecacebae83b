import MasterOfFiles.StorageOperations

/-!
Starting the Storage with FRESH_START=FALSE on the disk a process left. The
directories are listed in the order readdir gives, which may be any; the table
of blocks starts with counts of zero, and each logical block found is associated
with the block the index has for the hash of its contents. The superblock is
taken to be the same, and the bitmap file is shared memory, so it has the bits of
the process that stopped.
-/
namespace MasterOfFiles.StorageRestart

open KeyedLists ByteBuffers ConfigText BlockNames StorageState StorageFiles StorageOperations
open PartialRuns

/-- What listar_directorios and listar_archivos give for the directories of a
stopped Storage. -/
structure Listado (s : Storage) where
  files : List String
  tags : String → List String
  bloques : String → String → List String
  files_nodup : files.Nodup
  mem_files : ∀ f, f ∈ files ↔ (buscarFile s f).isSome
  tags_nodup : ∀ f, (tags f).Nodup
  mem_tags : ∀ f t, t ∈ tags f ↔ s.disco.tagDirs (rutaTag f t) = true
  bloques_nodup : ∀ f t, (bloques f t).Nodup
  mem_bloques : ∀ f t n, n ∈ bloques f t ↔ (s.disco.links (rutaBlockLogico f t n)).isSome

/-- A block file that cannot be read counts as zeros. -/
def iniciarBloquesFisicosExistentes (sb : Superbloque) (d : Disco) : List BlockFisico :=
  (List.range (cantBlock sb)).map fun i =>
    ⟨nombreBloqueFisico i,
      some ((d.physicalBlocks (nombreBloqueFisico i)).getD (List.replicate sb.blockSize 0)), 0⟩

section Levantar

variable (md5 : Bytes → String)

/-- The place in the table of the block the index has for a hash. -/
def buscarBfAsociado (s : Storage) (hash : String) : Option ℕ :=
  (configGet s.hashIndexConfig hash).bind (buscarIndexBlockFisico s)

/-- The count of the block found is increased also when none is found, through NULL. -/
def levantarBlock (nameFile nameTag : String) (s : Storage) (nombreBlock : String) :
    Except Fallo (Storage × BlockLogico) :=
  match s.disco.getContenido (rutaBlockLogico nameFile nameTag nombreBlock) with
  | none => .error .caida
  | some contenido =>
    match buscarBfAsociado s (hashContenido md5 contenido) with
    | none => .error .caida
    | some i =>
      .ok (sumarAsociados s i 1, ⟨nombreBlock,
        (s.listaBloquesFisicos[i]?.map BlockFisico.pathBlock).getD bloqueFisicoInicial⟩)

variable {s₀ : Storage} (listado : Listado s₀)

/-- crear_metadata gives NULL for a missing file, which Metadata has no value for. -/
def levantarTag (nameFile : String) (s : Storage) (nameTag : String) :
    Except Fallo (Storage × Tag) :=
  match collect (levantarBlock md5 nameFile nameTag) s (listado.bloques nameFile nameTag) with
  | .error e => .error e
  | .ok (s', bloques) =>
    .ok (s', ⟨nameTag,
      crearMetadata ((s.disco.metadataConfig (rutaTag nameFile nameTag)).getD []), bloques⟩)

def levantarFile (s : Storage) (nameFile : String) : Except Fallo (Storage × File) :=
  match collect (levantarTag md5 listado nameFile) s (listado.tags nameFile) with
  | .error e => .error e
  | .ok (s', tags) => .ok (s', ⟨nameFile, tags⟩)

def freshStartFalse (s : Storage) : Except Fallo Storage :=
  match collect (levantarFile md5 listado) s listado.files with
  | .error e => .error e
  | .ok (s', files) => .ok { s' with listaFiles := s'.listaFiles ++ files }

end Levantar

/-- A block's bit becomes whether its count is positive. -/
def sincronizarBitmap (s : Storage) : List Bool :=
  (List.range s.listaBloquesFisicos.length).foldl (fun bitmap i =>
    if 0 < (s.listaBloquesFisicos[i]?.map BlockFisico.blogicoAsociados).getD 0 then
      bitmapMarcarBloqueOcupado bitmap i
    else bitmapMarcarBloqueLibre bitmap i) s.bitmap

/-- What main has in memory when it reads the directories. -/
def arranque (sb : Superbloque) (s : Storage) : Storage where
  listaFiles := []
  listaBloquesFisicos := iniciarBloquesFisicosExistentes sb s.disco
  bitmap := s.bitmap
  hashIndexConfig := configCreate s.disco.blocksHashIndex
  disco := s.disco

def reiniciar (md5 : Bytes → String) (sb : Superbloque) (s : Storage) (listado : Listado s) :
    Except Fallo Storage :=
  match freshStartFalse md5 listado (arranque sb s) with
  | .error e => .error e
  | .ok s' => .ok { s' with bitmap := sincronizarBitmap s' }

end MasterOfFiles.StorageRestart
