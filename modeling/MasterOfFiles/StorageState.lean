import Mathlib.Logic.Function.Basic
import MasterOfFiles.BlockNames
import MasterOfFiles.ByteBuffers
import MasterOfFiles.ConfigText

/-!
The state of the Storage process: its in-memory lists, the allocation bitmap,
the hash index and the disk under the mount point. On disk, a logical block is
a hard link files/<file>/<tag>/logical_blocks/<block> to one of the physical
block files, so its contents are those of the file it is linked to. File and
Tag names stand for plain directory components, those of PlainNames, which mkdir
and a `rm -r` run by a shell take as they are, so a path under files is
identified by the names it is built from. A File in the list has its directory,
which crear_file makes and nothing removes, so only Tag directories are kept.
-/
namespace MasterOfFiles.StorageState

open KeyedLists ByteBuffers ConfigText BlockNames

/-- t_superbloque, as read from superblock.config. -/
structure Superbloque where
  fsSize : ℕ
  blockSize : ℕ
  block_pos : 0 < blockSize
  block_le : blockSize ≤ fsSize
  int_range : fsSize < 2 ^ 31

def cantBlock (sb : Superbloque) : ℕ := sb.fsSize / sb.blockSize

theorem cantBlock_pos (sb : Superbloque) : 0 < cantBlock sb :=
  Nat.div_pos sb.block_le sb.block_pos

inductive Estado
  | workInProgress
  | commited
  deriving DecidableEq

structure BlockFisico where
  pathBlock : String
  contenido : Option Bytes
  blogicoAsociados : ℤ
  deriving DecidableEq

structure Metadata where
  tamanioFile : ℤ
  blocksFisicosUsados : List String
  estado : Estado
  deriving DecidableEq

structure BlockLogico where
  nombreBlock : String
  bloqueFisicoAsociado : String
  deriving DecidableEq

structure Tag where
  nameTag : String
  metadata : Metadata
  listaBlockLogicos : List BlockLogico
  deriving DecidableEq

structure File where
  nameFile : String
  tags : List Tag
  deriving DecidableEq

abbrev RutaTag := String × String

abbrev RutaBlock := String × String × String

def rutaTag (nameFile nameTag : String) : RutaTag := (nameFile, nameTag)

def rutaBlockLogico (file tag nombreBloque : String) : RutaBlock := (file, tag, nombreBloque)

/-- The directory a logical block's hard link lives in. -/
def directorio (r : RutaBlock) : RutaTag := (r.1, r.2.1)

@[simp] theorem directorio_rutaBlockLogico (file tag nombreBloque : String) :
    directorio (rutaBlockLogico file tag nombreBloque) = rutaTag file tag := rfl

/-- A path in a Tag's own directory says nothing about another Tag. -/
theorem rutaBlockLogico_ne {f t f' t' : String} (h : rutaTag f' t' ≠ rutaTag f t)
    (n n' : String) : rutaBlockLogico f' t' n' ≠ rutaBlockLogico f t n := by
  intro heq
  exact h (congrArg directorio heq)

/-- `physicalBlocks` maps a block's name to the contents of its .dat file,
`links` a logical path to the name of the block whose file it is linked to. -/
structure Disco where
  physicalBlocks : String → Option Bytes
  tagDirs : RutaTag → Bool
  links : RutaBlock → Option String
  metadataConfig : RutaTag → Option Config
  blocksHashIndex : Config

inductive Errno
  | enoent
  | eexist
  deriving DecidableEq

namespace Disco

/-- crear_ruta on a Tag's directory and its logical_blocks. -/
def crearRutaTag (d : Disco) (rt : RutaTag) : Disco :=
  { d with tagDirs := Function.update d.tagDirs rt true }

/-- link(2) from a physical block file to a logical path. -/
def link (d : Disco) (nameBF : String) (r : RutaBlock) : Except Errno Disco :=
  if (d.physicalBlocks nameBF).isNone || !d.tagDirs (directorio r) then .error .enoent
  else if (d.links r).isSome then .error .eexist
  else .ok { d with links := Function.update d.links r (some nameBF) }

def unlink (d : Disco) (r : RutaBlock) : Disco :=
  { d with links := Function.update d.links r none }

/-- get_contenido on a logical path reads the block file the path is linked to. -/
def getContenido (d : Disco) (r : RutaBlock) : Option Bytes := (d.links r).bind d.physicalBlocks

def escribirArchivoTruncado (d : Disco) (nameBF : String) (buffer : Bytes) : Disco :=
  { d with physicalBlocks := Function.update d.physicalBlocks nameBF (some buffer) }

/-- What `rm -r` removes when the shell takes the path as it is. -/
def eliminarCarpetaConContenido (d : Disco) (rt : RutaTag) : Disco :=
  { d with
    tagDirs := Function.update d.tagDirs rt false
    links := fun r => if directorio r = rt then none else d.links r
    metadataConfig := Function.update d.metadataConfig rt none }

end Disco

structure Storage where
  listaFiles : List File
  listaBloquesFisicos : List BlockFisico
  bitmap : List Bool
  hashIndexConfig : Config
  disco : Disco

/-- How a request can end without an answer: the process dies, or the serving
thread locks a mutex it already holds. -/
inductive Fallo
  | caida
  | interbloqueo
  deriving DecidableEq

section Bitmap

/-- The bitmap has whole bytes, so it may hold bits past the last block. -/
def crearBitmapVacio (cant : ℕ) : List Bool := List.replicate ((cant + 7) / 8 * 8) false

def bitmapEncontrarBloqueLibre (bitmap : List Bool) : Option ℕ := bitmap.findIdx? (!·)

def bitmapMarcarBloqueLibre (bitmap : List Bool) (n : ℕ) : List Bool := bitmap.set n false

def bitmapMarcarBloqueOcupado (bitmap : List Bool) (n : ℕ) : List Bool := bitmap.set n true

end Bitmap

section Busquedas

def buscarFile (s : Storage) (nameFile : String) : Option File :=
  first File.nameFile nameFile s.listaFiles

def buscarTag (s : Storage) (nameFile nameTag : String) : Option Tag :=
  (buscarFile s nameFile).bind fun file => first Tag.nameTag nameTag file.tags

def buscarIndexBlockFisico (s : Storage) (nameBloqueFisico : String) : Option ℕ :=
  s.listaBloquesFisicos.findIdx? fun bf => bf.pathBlock = nameBloqueFisico

/-- Updates the tags list of the File a search finds. -/
def modificarTags (s : Storage) (nameFile : String) (h : List Tag → List Tag) : Storage :=
  { s with
    listaFiles := modifyFirst File.nameFile nameFile
      (fun file => { file with tags := h file.tags }) s.listaFiles }

/-- Updates through the pointer buscar_tag returns. -/
def modificarTag (s : Storage) (nameFile nameTag : String) (g : Tag → Tag) : Storage :=
  modificarTags s nameFile (modifyFirst Tag.nameTag nameTag g)

def sumarAsociados (s : Storage) (indexBf : ℕ) (k : ℤ) : Storage :=
  { s with
    listaBloquesFisicos := s.listaBloquesFisicos.modify indexBf
      fun bf => { bf with blogicoAsociados := bf.blogicoAsociados + k } }

end Busquedas

end MasterOfFiles.StorageState
