import MasterOfFiles.PartialRuns
import MasterOfFiles.StorageFiles

/-!
The requests a Worker sends to the Storage, as functions of its state. An
operation returns the source's result code beside the state it leaves, and the
handlers turn the code into an answer. A request that kills the process or
blocks it has no next state. Strings are values here: the pointers in blocks_usados
that TAG shares are followed beside the state, in SharedStrings, and what some error
paths do with uninitialised memory is left out.
-/
namespace MasterOfFiles.StorageOperations

open KeyedLists ByteBuffers ConfigText BlockNames StorageState StorageFiles PartialRuns

def toUint32 (x : ℤ) : ℕ := (x % 2 ^ 32).toNat

def toInt32 (n : ℕ) : ℤ := if n < 2 ^ 31 then n else n - 2 ^ 32

/-- tamanio / superbloque.BLOCK_SIZE: an unsigned division stored in an int. -/
def cantidadBloques (sb : Superbloque) (tamanio : ℤ) : ℤ :=
  toInt32 (toUint32 tamanio / sb.blockSize)

section Create

def operacionCreateFile (s : Storage) (nameFile nameTag : String) : Storage × ℤ :=
  if (buscarTag s nameFile nameTag).isSome then (s, -1)
  else
    let s := crearFile s nameFile
    let rt := rutaTag nameFile nameTag
    let (tag, disco) := crearTag (s.disco.crearRutaTag rt) nameTag rt
    (agregarTag { s with disco := disco } nameFile tag, 0)

end Create

section Truncate

def agregarUsado (blocks : List String) (valor : String) : List String :=
  if valor ∈ blocks then blocks else blocks ++ [valor]

def agregarBloqueLogico (nombreBl : String) (tag : Tag) : Tag :=
  { tag with
    listaBlockLogicos := tag.listaBlockLogicos ++ [⟨nombreBl, "block0000"⟩]
    metadata := { tag.metadata with
      blocksFisicosUsados := agregarUsado tag.metadata.blocksFisicosUsados "0" } }

@[simp] theorem nameTag_agregarBloqueLogico (nombreBl : String) (tag : Tag) :
    (agregarBloqueLogico nombreBl tag).nameTag = tag.nameTag := rfl

/-- A turn of the growth loop; `none` when no bit is free. The link goes to the
free block, the in-memory association and the count to block0000. -/
def agrandarUno (s : Storage) (nameFile nameTag : String) (nroBloque : ℤ) : Option Storage :=
  match bitmapEncontrarBloqueLibre s.bitmap with
  | none => none
  | some bfLibre =>
    let nombreBl := crearNombreBloqueLogico nroBloque
    let bitmap := bitmapMarcarBloqueOcupado s.bitmap bfLibre
    match s.disco.link (nombreBloqueLibre bfLibre) (rutaBlockLogico nameFile nameTag nombreBl) with
    | .error _ => some { s with bitmap := bitmapMarcarBloqueLibre bitmap bfLibre }
    | .ok disco =>
      some (sumarAsociados
        (modificarTag { s with bitmap := bitmap, disco := disco } nameFile nameTag
          (agregarBloqueLogico nombreBl)) 0 1)

/-- The flag tells whether the loop ended without a return. -/
def agrandar (s : Storage) (nameFile nameTag : String) (nroBloque : ℤ) : ℕ → Storage × Bool
  | 0 => (s, true)
  | k + 1 => match agrandarUno s nameFile nameTag nroBloque with
    | none => (s, false)
    | some s' => agrandar s' nameFile nameTag (nroBloque + 1) k

def quitarUltimo (tag : Tag) : Tag :=
  { tag with listaBlockLogicos := tag.listaBlockLogicos.dropLast }

@[simp] theorem nameTag_quitarUltimo (tag : Tag) : (quitarUltimo tag).nameTag = tag.nameTag := rfl

/-- A turn of the shrink loop on the last logical block, if there is one. The
branch that frees the block locks mutex_bitmap before a function that locks it. -/
def achicarUno (s : Storage) (nameFile nameTag : String) : Except Fallo Storage :=
  match (buscarTag s nameFile nameTag).bind fun tag => tag.listaBlockLogicos.getLast? with
  | none => .ok s
  | some bl =>
    let s := modificarTag s nameFile nameTag quitarUltimo
    match buscarIndexBlockFisico s bl.bloqueFisicoAsociado with
    | none => .ok s
    | some indexBf =>
      let disco := s.disco.unlink (rutaBlockLogico nameFile nameTag bl.nombreBlock)
      let s := sumarAsociados { s with disco := disco } indexBf (-1)
      if (s.listaBloquesFisicos[indexBf]?.map BlockFisico.blogicoAsociados) = some 0 ∧
          indexBf ≠ 0 then .error .interbloqueo
      else .ok s

def achicar (s : Storage) (nameFile nameTag : String) : ℕ → Except Fallo Storage
  | 0 => .ok s
  | k + 1 => match achicarUno s nameFile nameTag with
    | .error e => .error e
    | .ok s' => achicar s' nameFile nameTag k

def fijarTamanio (tamanioBytes : ℤ) (tag : Tag) : Tag :=
  { tag with metadata :=
    { tag.metadata with
      tamanioFile := tamanioBytes
      blocksFisicosUsados := if tamanioBytes = 0 then [] else tag.metadata.blocksFisicosUsados } }

@[simp] theorem nameTag_fijarTamanio (tamanioBytes : ℤ) (tag : Tag) :
    (fijarTamanio tamanioBytes tag).nameTag = tag.nameTag := rfl

/-- Writes a Tag's metadata to its file. -/
def guardarMetadata (s : Storage) (nameFile nameTag : String) : Storage :=
  match buscarTag s nameFile nameTag with
  | none => s
  | some tag =>
    { s with disco := actualizarMetadata s.disco (rutaTag nameFile nameTag) tag.metadata }

def terminarTruncate (s : Storage) (nameFile nameTag : String) (tamanioBytes : ℤ) : Storage :=
  guardarMetadata (modificarTag s nameFile nameTag (fijarTamanio tamanioBytes)) nameFile nameTag

def operacionTruncateFile (sb : Superbloque) (s : Storage) (nameFile nameTag : String)
    (tamanioBytes : ℤ) : Except Fallo (Storage × ℤ) :=
  if toUint32 tamanioBytes % sb.blockSize ≠ 0 then .ok (s, -1)
  else match buscarTag s nameFile nameTag with
  | none => .ok (s, 1)
  | some tag =>
    if tag.metadata.estado = .commited then .ok (s, -1)
    else
      let bloquesActuales := cantidadBloques sb tag.metadata.tamanioFile
      let bloquesNuevos := cantidadBloques sb tamanioBytes
      if bloquesActuales < bloquesNuevos then
        match agrandar s nameFile nameTag bloquesActuales
            (bloquesNuevos - bloquesActuales).toNat with
        | (s', false) => .ok (s', -1)
        | (s', true) => .ok (terminarTruncate s' nameFile nameTag tamanioBytes, 0)
      else
        match achicar s nameFile nameTag (bloquesActuales - bloquesNuevos).toNat with
        | .error e => .error e
        | .ok s' => .ok (terminarTruncate s' nameFile nameTag tamanioBytes, 0)

end Truncate

section TagFile

/-- A link that exists already counts as made. -/
def linkearBlABf (d : Disco) (nameFile nameTag nameBL nameBF : String) : Option Disco :=
  match d.link nameBF (rutaBlockLogico nameFile nameTag nameBL) with
  | .ok disco => some disco
  | .error .eexist => some d
  | .error .enoent => none

/-- Links the copy of a block; a block whose link fails is left out of the copy. -/
def copiarBloque (nameFile nameTag : String) (p : Storage × List BlockLogico)
    (blOrigen : BlockLogico) : Storage × List BlockLogico :=
  match linkearBlABf p.1.disco nameFile nameTag blOrigen.nombreBlock
      blOrigen.bloqueFisicoAsociado with
  | none => p
  | some disco =>
    let s := { p.1 with disco := disco }
    let s := match buscarIndexBlockFisico s blOrigen.bloqueFisicoAsociado with
      | none => s
      | some indexBf => sumarAsociados s indexBf 1
    (s, p.2 ++ [blOrigen])

def asegurarFile (s : Storage) (nameFile : String) : Storage :=
  if (buscarFile s nameFile).isSome then s else crearFile s nameFile

def copiarBloques (s : Storage) (nameFile nameTag : String) (bls : List BlockLogico) :
    Storage × List BlockLogico :=
  bls.foldl (copiarBloque nameFile nameTag) (s, [])

/-- The metadata is the source's, but for the state; the Tag is appended last. -/
def registrarCopia (s : Storage) (nameFile : String) (tagOrigen tagDestino : Tag)
    (bloques : List BlockLogico) : Storage :=
  let metadata : Metadata :=
    ⟨tagOrigen.metadata.tamanioFile,
      tagDestino.metadata.blocksFisicosUsados ++ tagOrigen.metadata.blocksFisicosUsados,
      .workInProgress⟩
  let rt := rutaTag nameFile tagDestino.nameTag
  agregarTag { s with disco := actualizarMetadata s.disco rt metadata } nameFile
    { tagDestino with metadata := metadata, listaBlockLogicos := bloques }

def operacionTagFile (s : Storage) (nameFileOrigen nameTagOrigen nameFileDestino
    nameTagDestino : String) : Storage × ℤ :=
  match buscarTag s nameFileOrigen nameTagOrigen with
  | none => (s, -1)
  | some tagOrigen =>
    let s := asegurarFile s nameFileDestino
    let rt := rutaTag nameFileDestino nameTagDestino
    let (tagDestino, disco) := crearTag (s.disco.crearRutaTag rt) nameTagDestino rt
    let (s, bloques) := copiarBloques { s with disco := disco } nameFileDestino nameTagDestino
      tagOrigen.listaBlockLogicos
    (registrarCopia s nameFileDestino tagOrigen tagDestino bloques, 0)

end TagFile

section Commit

variable (md5 : Bytes → String)

/-- crypto_md5(contenido, strlen(contenido) + 1). -/
def hashContenido (contenido : Bytes) : String := md5 (cString contenido ++ [0])

def agregarHashNuevo (s : Storage) (hash bfName : String) : Storage :=
  let index := configSetValue s.hashIndexConfig hash bfName
  { s with hashIndexConfig := index, disco := { s.disco with blocksHashIndex := index } }

/-- reasignar_bloque_logico; the new link may fail without notice. -/
def reasignarBloqueLogico (s : Storage) (rutaBl : RutaBlock) (bl : BlockLogico)
    (bfNuevo bfViejo : String) : Storage × BlockLogico :=
  let disco := s.disco.unlink rutaBl
  let disco := match disco.link bfNuevo rutaBl with
    | .ok disco' => disco'
    | .error _ => disco
  let s := { s with disco := disco }
  let s := match buscarIndexBlockFisico s bfViejo with
    | none => s
    | some idxViejo =>
      let s := sumarAsociados s idxViejo (-1)
      if (s.listaBloquesFisicos[idxViejo]?.map BlockFisico.blogicoAsociados) = some 0 ∧
          idxViejo ≠ 0 then { s with bitmap := bitmapMarcarBloqueLibre s.bitmap idxViejo }
      else s
  let s := match buscarIndexBlockFisico s bfNuevo with
    | none => s
    | some idxNuevo => sumarAsociados s idxNuevo 1
  (s, { bl with bloqueFisicoAsociado := bfNuevo })

/-- The contents of a block without a link are NULL, and strlen is called on them. -/
def procesarBloqueCommit (nameFile nameTag : String) (s : Storage) (bl : BlockLogico) :
    Except Fallo (Storage × BlockLogico) :=
  let rutaBl := rutaBlockLogico nameFile nameTag bl.nombreBlock
  match s.disco.getContenido rutaBl with
  | none => .error .caida
  | some contenido =>
    let hash := hashContenido md5 contenido
    match configGet s.hashIndexConfig hash with
    | none => .ok (agregarHashNuevo s hash bl.bloqueFisicoAsociado, bl)
    | some bfExistente =>
      if bfExistente = bl.bloqueFisicoAsociado then .ok (s, bl)
      else .ok (reasignarBloqueLogico s rutaBl bl bfExistente bl.bloqueFisicoAsociado)

def procesarBloques (nameFile nameTag : String) (s : Storage) :
    List BlockLogico → Except Fallo (Storage × List BlockLogico)
  | [] => .ok (s, [])
  | bl :: bls => match procesarBloqueCommit md5 nameFile nameTag s bl with
    | .error e => .error e
    | .ok (s', bl') => match procesarBloques nameFile nameTag s' bls with
      | .error e => .error e
      | .ok (s'', bls') => .ok (s'', bl' :: bls')

def commitear (bloques : List BlockLogico) (tag : Tag) : Tag :=
  { tag with
    listaBlockLogicos := bloques
    metadata := { tag.metadata with estado := .commited } }

@[simp] theorem nameTag_commitear (bloques : List BlockLogico) (tag : Tag) :
    (commitear bloques tag).nameTag = tag.nameTag := rfl

def operacionCommitTag (s : Storage) (nameFile nameTag : String) : Except Fallo (Storage × ℤ) :=
  match buscarTag s nameFile nameTag with
  | none => .ok (s, -1)
  | some tag =>
    if tag.metadata.estado = .commited then .ok (s, 1)
    else match procesarBloques md5 nameFile nameTag s tag.listaBlockLogicos with
    | .error e => .error e
    | .ok (s', bloques) =>
      .ok (guardarMetadata (modificarTag s' nameFile nameTag (commitear bloques))
        nameFile nameTag, 0)

end Commit

section WriteRead

variable (md5 : Bytes → String)

/-- The block-sized buffer WRITE_BLOCK builds: zeros, then the old contents up
to their first NUL, then the new bytes. -/
def bufferEscritura (sb : Superbloque) (contenidoOriginal contenido : Bytes) : Bytes :=
  overlay (overlay (List.replicate sb.blockSize 0) 0
    ((cString contenidoOriginal).take sb.blockSize)) 0 contenido

/-- The line appended to the index file does not survive config_save, which
writes the dictionary without the old hash. -/
def operacionWriteBloque (sb : Superbloque) (s : Storage) (nameFile nameTag : String)
    (bl : BlockLogico) (contenido : Bytes) : Storage × ℤ :=
  if (buscarTag s nameFile nameTag).isNone then (s, -1)
  else match s.disco.getContenido (rutaBlockLogico nameFile nameTag bl.nombreBlock) with
  | none => (s, -1)
  | some contenidoOriginal =>
    if sb.blockSize < contenido.length then (s, -1)
    else match buscarIndexBlockFisico s bl.bloqueFisicoAsociado with
    | none => (s, -1)
    | some indexBf =>
      let buffer := bufferEscritura sb contenidoOriginal contenido
      let disco := match s.listaBloquesFisicos[indexBf]? with
        | none => s.disco
        | some bf => s.disco.escribirArchivoTruncado bf.pathBlock buffer
      let index := configRemoveKey s.hashIndexConfig (hashContenido md5 contenidoOriginal)
      ({ s with
          listaBloquesFisicos := s.listaBloquesFisicos.modify indexBf
            fun bf => { bf with contenido := disco.physicalBlocks bf.pathBlock }
          hashIndexConfig := index
          disco := { disco with blocksHashIndex := index } }, 0)

def operacionReadBloque (s : Storage) (nameFile nameTag nombreBl : String) : Option Bytes :=
  s.disco.getContenido (rutaBlockLogico nameFile nameTag nombreBl)

end WriteRead

section Delete

def liberarUsado (sb : Superbloque) (s : Storage) (entrada : String) : Storage :=
  let nroBf := atoi entrada
  let nameBF := nameBloque (cantBlock sb) nroBf
  match buscarIndexBlockFisico s nameBF with
  | none => s
  | some indexBf =>
    let s := sumarAsociados s indexBf (-1)
    if (s.listaBloquesFisicos[indexBf]?.map BlockFisico.blogicoAsociados) = some 0 ∧
        indexBf ≠ 0 then
      { s with
        bitmap := bitmapMarcarBloqueLibre s.bitmap (toUint32 nroBf)
        disco := s.disco.escribirArchivoTruncado nameBF (List.replicate sb.blockSize 0) }
    else s

def quitarTag (s : Storage) (nameFile nameTag : String) : Storage :=
  modificarTags s nameFile (eraseFirst Tag.nameTag nameTag)

/-- The entries of blocks_usados are popped from the end; the logical blocks
themselves are only logged. -/
def operacionEliminarTag (sb : Superbloque) (s : Storage) (nameFile nameTag : String) : Storage :=
  match buscarTag s nameFile nameTag with
  | none => s
  | some tag =>
    let s := tag.metadata.blocksFisicosUsados.reverse.foldl (liberarUsado sb) s
    let disco := s.disco.eliminarCarpetaConContenido (rutaTag nameFile nameTag)
    quitarTag { s with disco := disco } nameFile nameTag

end Delete

section Atencion

inductive Solicitud
  | create (file tag : String)
  | truncate (file tag : String) (tamanio : ℤ)
  | tag (fileO tagO fileD tagD : String)
  | commit (file tag : String)
  | writeBlock (file tag : String) (nroPag : ℕ) (contenido : Bytes)
  | readBlock (file tag : String) (nroPag : ℤ)
  | flush (file tag : String)
  | delete (file tag : String)

inductive Respuesta
  | ok
  | error
  | bloque (contenido : Bytes)
  deriving DecidableEq

def respuestaDe (resultado : ℤ) : Respuesta := if resultado = 0 then .ok else .error

/-- The BLOCK_SIZE bytes sent from the buffer get_contenido returns. -/
def storageReadBlock (sb : Superbloque) (s : Storage) (file tag : String) (nroPag : ℤ) :
    Respuesta :=
  match buscarTag s file tag with
  | none => .error
  | some t =>
    if nroPag < 0 ∨ t.listaBlockLogicos.length ≤ nroPag then .error
    else match t.listaBlockLogicos[nroPag.toNat]? with
    | none => .error
    | some bl => match operacionReadBloque s file tag bl.nombreBlock with
      | none => .error
      | some contenido => .bloque ((contenido ++ [0]).take sb.blockSize)

def storageWriteBlock (md5 : Bytes → String) (sb : Superbloque) (s : Storage) (file tag : String)
    (nroPag : ℕ) (contenido : Bytes) : Storage × Respuesta :=
  match buscarTag s file tag with
  | none => (s, .error)
  | some t => match t.listaBlockLogicos[nroPag]? with
    | none => (s, .error)
    | some bl =>
      if sb.blockSize < contenido.length then (s, .error)
      else
        let (s', resultado) := operacionWriteBloque md5 sb s file tag bl contenido
        (s', respuestaDe resultado)

def storageCommit (md5 : Bytes → String) (s : Storage) (file tag : String) :
    Except Fallo (Storage × Respuesta) :=
  match operacionCommitTag md5 s file tag with
  | .error e => .error e
  | .ok (s', resultado) => .ok (s', if resultado = 0 ∨ resultado = 1 then .ok else .error)

def storageFlush (s : Storage) (file tag : String) : Respuesta :=
  if (buscarTag s file tag).isNone then .error else .ok

variable (md5 : Bytes → String) (sb : Superbloque)

def atenderWorker (s : Storage) : Solicitud → Except Fallo (Storage × Respuesta)
  | .create file tag =>
    let (s', resultado) := operacionCreateFile s file tag
    .ok (s', respuestaDe resultado)
  | .truncate file tag tamanio => match operacionTruncateFile sb s file tag tamanio with
    | .error e => .error e
    | .ok (s', resultado) => .ok (s', respuestaDe resultado)
  | .tag fileO tagO fileD tagD =>
    let (s', resultado) := operacionTagFile s fileO tagO fileD tagD
    .ok (s', respuestaDe resultado)
  | .commit file tag => storageCommit md5 s file tag
  | .writeBlock file tag nroPag contenido =>
    .ok (storageWriteBlock md5 sb s file tag nroPag contenido)
  | .readBlock file tag nroPag => .ok (s, storageReadBlock sb s file tag nroPag)
  | .flush file tag => .ok (s, storageFlush s file tag)
  | .delete file tag => .ok (operacionEliminarTag sb s file tag, .ok)

/-- A request's effect on the state alone. -/
def paso (s : Storage) (x : Solicitud) : Except Fallo Storage :=
  (atenderWorker md5 sb s x).map Prod.fst

/-- The states a Storage started with FRESH_START can reach. -/
def Alcanzable (s : Storage) : Prop := Reaches (paso md5 sb) (freshStart sb) s

end Atencion

end MasterOfFiles.StorageOperations
