import MasterOfFiles.LockedPrograms
import MasterOfFiles.StorageOperations

/-!
The requests of a Worker with the mutexes their operations lock. Each program here
follows the source's lock and unlock calls on every path and computes what the
operation of the same name does without them, so a request that does not return for a
mutex of its own is one whose operation does not return.
-/
namespace MasterOfFiles.LockedRequests

open KeyedLists ByteBuffers ConfigText BlockNames StorageState StorageFiles StorageOperations
open LockedPrograms

inductive Mutex
  | listasArchivos
  | bitmap
  | bloques
  deriving DecidableEq

abbrev Programa (α : Type) := Locked Mutex Fallo α

abbrev mutexLock (m : Mutex) : Programa Unit := lock Fallo.interbloqueo m

abbrev mutexUnlock (m : Mutex) : Programa Unit := unlock m

section Busquedas

/-- buscar_index_file and the list_get behind it. -/
def buscarFile (s : Storage) (nameFile : String) : Programa (Option File) := do
  mutexLock .listasArchivos
  match StorageState.buscarFile s nameFile with
  | some file => do
    mutexUnlock .listasArchivos
    return some file
  | none => do
    mutexUnlock .listasArchivos
    return none

/-- buscar_index_tag; the second lock is taken for the Tags of the File found. -/
def buscarIndexTag (s : Storage) (nameFile nameTag : String) : Programa (Option Tag) := do
  match ← buscarFile s nameFile with
  | none => return none
  | some file => do
    mutexLock .listasArchivos
    match first Tag.nameTag nameTag file.tags with
    | some tag => do
      mutexUnlock .listasArchivos
      return some tag
    | none => do
      mutexUnlock .listasArchivos
      return none

def buscarTag (s : Storage) (nameFile nameTag : String) : Programa (Option Tag) := do
  match ← buscarIndexTag s nameFile nameTag with
  | none => return none
  | some tag => do
    let _ ← buscarFile s nameFile
    return some tag

variable {held : Finset Mutex} (hl : Mutex.listasArchivos ∉ held)
include hl

theorem computes_buscarFile (s : Storage) (f : String) :
    Computes held (buscarFile s f) (.ok (StorageState.buscarFile s f)) := by
  apply computes_lock hl
  cases StorageState.buscarFile s f with
  | some file => exact unlock_insert hl (computes_pure held _)
  | none => exact unlock_insert hl (computes_pure held _)

theorem computes_buscarIndexTag (s : Storage) (f t : String) :
    Computes held (buscarIndexTag s f t) (.ok (StorageState.buscarTag s f t)) := by
  apply computes_bind_ok (computes_buscarFile hl s f)
  unfold StorageState.buscarTag
  cases StorageState.buscarFile s f with
  | none => exact computes_pure held _
  | some file =>
    apply computes_lock hl
    rw [Option.bind_some]
    cases first Tag.nameTag t file.tags with
    | some tag => exact unlock_insert hl (computes_pure held _)
    | none => exact unlock_insert hl (computes_pure held _)

theorem computes_buscarTag (s : Storage) (f t : String) :
    Computes held (buscarTag s f t) (.ok (StorageState.buscarTag s f t)) := by
  apply computes_bind_ok (computes_buscarIndexTag hl s f t)
  cases StorageState.buscarTag s f t with
  | none => exact computes_pure held _
  | some tag => exact computes_bind_ok (computes_buscarFile hl s f) (computes_pure held _)

end Busquedas

section Bitmap

def bitmapEncontrarBloqueLibre (s : Storage) : Programa (Option ℕ) := do
  mutexLock .bitmap
  match StorageState.bitmapEncontrarBloqueLibre s.bitmap with
  | some posicion => do
    mutexUnlock .bitmap
    return some posicion
  | none => do
    mutexUnlock .bitmap
    return none

def bitmapMarcarBloqueLibre (s : Storage) (n : ℕ) : Programa Storage := do
  mutexLock .bitmap
  let s := { s with bitmap := StorageState.bitmapMarcarBloqueLibre s.bitmap n }
  mutexUnlock .bitmap
  return s

def bitmapMarcarBloqueOcupado (s : Storage) (n : ℕ) : Programa Storage := do
  mutexLock .bitmap
  let s := { s with bitmap := StorageState.bitmapMarcarBloqueOcupado s.bitmap n }
  mutexUnlock .bitmap
  return s

variable {held : Finset Mutex} (hb : Mutex.bitmap ∉ held)

theorem relock_bitmapMarcarBloqueLibre (s : Storage) (n : ℕ) {held : Finset Mutex}
    (h : Mutex.bitmap ∈ held) :
    bitmapMarcarBloqueLibre s n held = .error .interbloqueo := relock_bind h

include hb

theorem computes_bitmapEncontrarBloqueLibre (s : Storage) :
    Computes held (bitmapEncontrarBloqueLibre s)
      (.ok (StorageState.bitmapEncontrarBloqueLibre s.bitmap)) := by
  apply computes_lock hb
  cases StorageState.bitmapEncontrarBloqueLibre s.bitmap with
  | some posicion => exact unlock_insert hb (computes_pure held _)
  | none => exact unlock_insert hb (computes_pure held _)

theorem computes_bitmapMarcarBloqueLibre (s : Storage) (n : ℕ) :
    Computes held (bitmapMarcarBloqueLibre s n)
      (.ok { s with bitmap := StorageState.bitmapMarcarBloqueLibre s.bitmap n }) := by
  apply computes_lock hb
  exact unlock_insert hb (computes_pure held _)

theorem computes_bitmapMarcarBloqueOcupado (s : Storage) (n : ℕ) :
    Computes held (bitmapMarcarBloqueOcupado s n)
      (.ok { s with bitmap := StorageState.bitmapMarcarBloqueOcupado s.bitmap n }) := by
  apply computes_lock hb
  exact unlock_insert hb (computes_pure held _)

end Bitmap

section Create

def crearFile (s : Storage) (nameFile : String) : Programa Storage := do
  mutexLock .listasArchivos
  let s := StorageFiles.crearFile s nameFile
  mutexUnlock .listasArchivos
  return s

def asignarTagAFile (s : Storage) (nameFile nameTag : String) : Programa Storage := do
  let rt := rutaTag nameFile nameTag
  let (tag, disco) := crearTag (s.disco.crearRutaTag rt) nameTag rt
  mutexLock .listasArchivos
  let s := agregarTag { s with disco := disco } nameFile tag
  mutexUnlock .listasArchivos
  return s

def operacionCreateFile (s : Storage) (nameFile nameTag : String) : Programa (Storage × ℤ) := do
  let existe ← match ← buscarFile s nameFile with
    | none => pure false
    | some _ => do
      let tag ← buscarIndexTag s nameFile nameTag
      pure tag.isSome
  if existe then return (s, -1)
  else
    let s ← crearFile s nameFile
    let _ ← buscarFile s nameFile
    let s ← asignarTagAFile s nameFile nameTag
    return (s, 0)

variable {held : Finset Mutex} (hl : Mutex.listasArchivos ∉ held)
include hl

theorem computes_crearFile (s : Storage) (f : String) :
    Computes held (crearFile s f) (.ok (StorageFiles.crearFile s f)) := by
  apply computes_lock hl
  exact unlock_insert hl (computes_pure held _)

theorem computes_asignarTagAFile (s : Storage) (f t : String) :
    Computes held (asignarTagAFile s f t)
      (.ok (agregarTag
        { s with disco := (crearTag (s.disco.crearRutaTag (rutaTag f t)) t (rutaTag f t)).2 } f
        (crearTag (s.disco.crearRutaTag (rutaTag f t)) t (rutaTag f t)).1)) := by
  apply computes_lock hl
  exact unlock_insert hl (computes_pure held _)

theorem computes_operacionCreateFile (s : Storage) (f t : String) :
    Computes held (operacionCreateFile s f t)
      (.ok (StorageOperations.operacionCreateFile s f t)) := by
  have hcrear : Computes held (do
      let s' ← crearFile s f
      let _ ← buscarFile s' f
      let s' ← asignarTagAFile s' f t
      return (s', (0 : ℤ))) (.ok (agregarTag { StorageFiles.crearFile s f with
        disco := (crearTag (s.disco.crearRutaTag (rutaTag f t)) t (rutaTag f t)).2 } f
        (crearTag (s.disco.crearRutaTag (rutaTag f t)) t (rutaTag f t)).1, 0)) := by
    apply computes_bind_ok (computes_crearFile hl s f)
    apply computes_bind_ok (computes_buscarFile hl _ f)
    exact computes_bind_ok (computes_asignarTagAFile hl _ f t) (computes_pure held _)
  unfold StorageOperations.operacionCreateFile
  apply computes_bind_ok (computes_buscarFile hl s f)
  cases hfile : StorageState.buscarFile s f with
  | none =>
    rw [StorageState.buscarTag, hfile]
    exact hcrear
  | some file =>
    apply computes_bind_ok (computes_buscarIndexTag hl s f t)
    cases StorageState.buscarTag s f t with
    | none => exact hcrear
    | some tag => exact computes_pure held _

end Create

section Truncate

def agrandarUno (s : Storage) (nameFile nameTag : String) (nroBloque : ℤ) :
    Programa (Option Storage) := do
  match ← bitmapEncontrarBloqueLibre s with
  | none => return none
  | some bfLibre => do
    let nombreBl := crearNombreBloqueLogico nroBloque
    let s ← bitmapMarcarBloqueOcupado s bfLibre
    match s.disco.link (nombreBloqueLibre bfLibre) (rutaBlockLogico nameFile nameTag nombreBl) with
    | .error _ => do
      let s ← bitmapMarcarBloqueLibre s bfLibre
      return some s
    | .ok disco => do
      mutexLock .listasArchivos
      let s := modificarTag { s with disco := disco } nameFile nameTag
        (agregarBloqueLogico nombreBl)
      mutexUnlock .listasArchivos
      return some (sumarAsociados s 0 1)

def agrandar (s : Storage) (nameFile nameTag : String) (nroBloque : ℤ) :
    ℕ → Programa (Storage × Bool)
  | 0 => return (s, true)
  | k + 1 => do
    match ← agrandarUno s nameFile nameTag nroBloque with
    | none => return (s, false)
    | some s' => agrandar s' nameFile nameTag (nroBloque + 1) k

/-- list_remove of the last logical block, under its mutex. -/
def quitarBloqueLogico (s : Storage) (nameFile nameTag : String) :
    Programa (Storage × Option BlockLogico) := do
  mutexLock .listasArchivos
  match (StorageState.buscarTag s nameFile nameTag).bind
      fun tag => tag.listaBlockLogicos.getLast? with
  | none => do
    mutexUnlock .listasArchivos
    return (s, none)
  | some bl => do
    let s := modificarTag s nameFile nameTag quitarUltimo
    mutexUnlock .listasArchivos
    return (s, some bl)

def achicarUno (s : Storage) (nameFile nameTag : String) : Programa Storage := do
  match ← quitarBloqueLogico s nameFile nameTag with
  | (s, none) => return s
  | (s, some bl) =>
    match buscarIndexBlockFisico s bl.bloqueFisicoAsociado with
    | none => return s
    | some indexBf => do
      let disco := s.disco.unlink (rutaBlockLogico nameFile nameTag bl.nombreBlock)
      let s := sumarAsociados { s with disco := disco } indexBf (-1)
      if (s.listaBloquesFisicos[indexBf]?.map BlockFisico.blogicoAsociados) = some 0 ∧
          indexBf ≠ 0 then do
        mutexLock .bitmap
        let s ← bitmapMarcarBloqueLibre s indexBf
        mutexUnlock .bitmap
        return s
      else return s

def achicar (s : Storage) (nameFile nameTag : String) : ℕ → Programa Storage
  | 0 => return s
  | k + 1 => do
    let s' ← achicarUno s nameFile nameTag
    achicar s' nameFile nameTag k

def operacionTruncateFile (sb : Superbloque) (s : Storage) (nameFile nameTag : String)
    (tamanioBytes : ℤ) : Programa (Storage × ℤ) := do
  if toUint32 tamanioBytes % sb.blockSize ≠ 0 then return (s, -1)
  else match ← buscarTag s nameFile nameTag with
  | none => return (s, 1)
  | some tag =>
    if tag.metadata.estado = .commited then return (s, -1)
    else
      let bloquesActuales := cantidadBloques sb tag.metadata.tamanioFile
      let bloquesNuevos := cantidadBloques sb tamanioBytes
      if bloquesActuales < bloquesNuevos then do
        match ← agrandar s nameFile nameTag bloquesActuales
            (bloquesNuevos - bloquesActuales).toNat with
        | (s', false) => return (s', -1)
        | (s', true) => return (terminarTruncate s' nameFile nameTag tamanioBytes, 0)
      else do
        let s' ← achicar s nameFile nameTag (bloquesActuales - bloquesNuevos).toNat
        return (terminarTruncate s' nameFile nameTag tamanioBytes, 0)

variable {held : Finset Mutex} (hl : Mutex.listasArchivos ∉ held) (hb : Mutex.bitmap ∉ held)
include hl

theorem computes_quitarBloqueLogico (s : Storage) (f t : String) :
    Computes held (quitarBloqueLogico s f t)
      (.ok (match (StorageState.buscarTag s f t).bind
          fun tag => tag.listaBlockLogicos.getLast? with
        | none => (s, none)
        | some bl => (modificarTag s f t quitarUltimo, some bl))) := by
  apply computes_lock hl
  cases (StorageState.buscarTag s f t).bind fun tag => tag.listaBlockLogicos.getLast? with
  | none => exact unlock_insert hl (computes_pure held _)
  | some bl => exact unlock_insert hl (computes_pure held _)

include hb

theorem computes_agrandarUno (s : Storage) (f t : String) (nro : ℤ) :
    Computes held (agrandarUno s f t nro) (.ok (StorageOperations.agrandarUno s f t nro)) := by
  unfold StorageOperations.agrandarUno
  apply computes_bind_ok (computes_bitmapEncontrarBloqueLibre hb s)
  cases StorageState.bitmapEncontrarBloqueLibre s.bitmap with
  | none => exact computes_pure held _
  | some bfLibre =>
    apply computes_bind_ok (computes_bitmapMarcarBloqueOcupado hb s bfLibre)
    dsimp only
    cases s.disco.link (nombreBloqueLibre bfLibre)
        (rutaBlockLogico f t (crearNombreBloqueLogico nro)) with
    | error e =>
      exact computes_bind_ok (computes_bitmapMarcarBloqueLibre hb _ bfLibre)
        (computes_pure held _)
    | ok disco =>
      apply computes_lock hl
      exact unlock_insert hl (computes_pure held _)

theorem computes_agrandar (s : Storage) (f t : String) (nro : ℤ) (k : ℕ) :
    Computes held (agrandar s f t nro k) (.ok (StorageOperations.agrandar s f t nro k)) := by
  induction k generalizing s nro with
  | zero => exact computes_pure held _
  | succ k ih =>
    apply computes_bind_ok (computes_agrandarUno hl hb s f t nro)
    unfold StorageOperations.agrandar
    cases StorageOperations.agrandarUno s f t nro with
    | none => exact computes_pure held _
    | some s' => exact ih s' (nro + 1)

/-- The branch that frees a block waits for the mutex it has just locked. -/
theorem computes_achicarUno (s : Storage) (f t : String) :
    Computes held (achicarUno s f t) (StorageOperations.achicarUno s f t) := by
  unfold StorageOperations.achicarUno
  apply computes_bind_ok (computes_quitarBloqueLogico hl s f t)
  cases (StorageState.buscarTag s f t).bind fun tag => tag.listaBlockLogicos.getLast? with
  | none => exact computes_pure held _
  | some bl =>
    dsimp only
    cases buscarIndexBlockFisico (modificarTag s f t quitarUltimo) bl.bloqueFisicoAsociado with
    | none => exact computes_pure held _
    | some indexBf =>
      dsimp only
      split_ifs with hcero
      · refine (lock_bind hb).trans ?_
        exact bind_of_error (relock_bitmapMarcarBloqueLibre _ _ (Finset.mem_insert_self ..))
      · exact computes_pure held _

theorem computes_achicar (s : Storage) (f t : String) (k : ℕ) :
    Computes held (achicar s f t k) (StorageOperations.achicar s f t k) := by
  induction k generalizing s with
  | zero => exact computes_pure held _
  | succ k ih =>
    have hstep : StorageOperations.achicar s f t (k + 1) =
        (StorageOperations.achicarUno s f t).bind
          fun s' => StorageOperations.achicar s' f t k := by
      rw [StorageOperations.achicar]
      cases StorageOperations.achicarUno s f t with
      | error e => rfl
      | ok s' => rfl
    rw [hstep]
    exact computes_bind (computes_achicarUno hl hb s f t) fun s' _ => ih s'

theorem computes_operacionTruncateFile (sb : Superbloque) (s : Storage) (f t : String)
    (tamanio : ℤ) : Computes held (operacionTruncateFile sb s f t tamanio)
      (StorageOperations.operacionTruncateFile sb s f t tamanio) := by
  unfold operacionTruncateFile StorageOperations.operacionTruncateFile
  split_ifs with hmult
  · exact computes_pure held _
  apply computes_bind_ok (computes_buscarTag hl s f t)
  cases StorageState.buscarTag s f t with
  | none => exact computes_pure held _
  | some tag =>
    dsimp only
    split_ifs with hestado hlt
    · exact computes_pure held _
    · apply computes_bind_ok (computes_agrandar hl hb s f t _ _)
      rcases StorageOperations.agrandar s f t _ _ with ⟨s', flag⟩
      cases flag with
      | false => exact computes_pure held _
      | true => exact computes_pure held _
    · have hbind := computes_bind (computes_achicar hl hb s f t
        (cantidadBloques sb tag.metadata.tamanioFile - cantidadBloques sb tamanio).toNat)
        (fun s' _ => computes_pure held (terminarTruncate s' f t tamanio, (0 : ℤ)))
      cases hop : StorageOperations.achicar s f t
          (cantidadBloques sb tag.metadata.tamanioFile - cantidadBloques sb tamanio).toNat with
      | error e => rwa [hop] at hbind
      | ok s' => rwa [hop] at hbind

end Truncate

section TagFile

def asegurarFile (s : Storage) (nameFile : String) : Programa Storage := do
  let _ ← buscarFile s nameFile
  match ← buscarFile s nameFile with
  | some _ => return s
  | none => do
    let s ← crearFile s nameFile
    let _ ← buscarFile s nameFile
    return s

def operacionTagFile (s : Storage) (nameFileOrigen nameTagOrigen nameFileDestino
    nameTagDestino : String) : Programa (Storage × ℤ) := do
  match ← buscarTag s nameFileOrigen nameTagOrigen with
  | none => return (s, -1)
  | some tagOrigen => do
    let s ← asegurarFile s nameFileDestino
    let rt := rutaTag nameFileDestino nameTagDestino
    let (tagDestino, disco) := crearTag (s.disco.crearRutaTag rt) nameTagDestino rt
    let (s, bloques) := copiarBloques { s with disco := disco } nameFileDestino nameTagDestino
      tagOrigen.listaBlockLogicos
    mutexLock .listasArchivos
    let s := registrarCopia s nameFileDestino tagOrigen tagDestino bloques
    mutexUnlock .listasArchivos
    return (s, 0)

variable {held : Finset Mutex} (hl : Mutex.listasArchivos ∉ held)
include hl

theorem computes_asegurarFile (s : Storage) (f : String) :
    Computes held (asegurarFile s f) (.ok (StorageOperations.asegurarFile s f)) := by
  unfold StorageOperations.asegurarFile
  apply computes_bind_ok (computes_buscarFile hl s f)
  apply computes_bind_ok (computes_buscarFile hl s f)
  cases StorageState.buscarFile s f with
  | some file => exact computes_pure held _
  | none =>
    apply computes_bind_ok (computes_crearFile hl s f)
    exact computes_bind_ok (computes_buscarFile hl _ f) (computes_pure held _)

theorem computes_operacionTagFile (s : Storage) (fileO tagO fileD tagD : String) :
    Computes held (operacionTagFile s fileO tagO fileD tagD)
      (.ok (StorageOperations.operacionTagFile s fileO tagO fileD tagD)) := by
  unfold StorageOperations.operacionTagFile
  apply computes_bind_ok (computes_buscarTag hl s fileO tagO)
  cases StorageState.buscarTag s fileO tagO with
  | none => exact computes_pure held _
  | some tagOrigen =>
    apply computes_bind_ok (computes_asegurarFile hl s fileD)
    apply computes_lock hl
    exact unlock_insert hl (computes_pure held _)

end TagFile

section Commit

variable (md5 : Bytes → String)

/-- bitmap_marcar_bloque_libre is called with no mutex held. -/
def restarAsociados (s : Storage) (bfViejo : String) : Programa Storage := do
  match buscarIndexBlockFisico s bfViejo with
  | none => return s
  | some idxViejo =>
    let s := sumarAsociados s idxViejo (-1)
    if (s.listaBloquesFisicos[idxViejo]?.map BlockFisico.blogicoAsociados) = some 0 ∧
        idxViejo ≠ 0 then bitmapMarcarBloqueLibre s idxViejo
    else return s

def reasignarBloqueLogico (s : Storage) (rutaBl : RutaBlock) (bl : BlockLogico)
    (bfNuevo bfViejo : String) : Programa (Storage × BlockLogico) := do
  let disco := s.disco.unlink rutaBl
  let disco := match disco.link bfNuevo rutaBl with
    | .ok disco' => disco'
    | .error _ => disco
  let s ← restarAsociados { s with disco := disco } bfViejo
  let s := match buscarIndexBlockFisico s bfNuevo with
    | none => s
    | some idxNuevo => sumarAsociados s idxNuevo 1
  return (s, { bl with bloqueFisicoAsociado := bfNuevo })

def procesarBloqueCommit (nameFile nameTag : String) (s : Storage) (bl : BlockLogico) :
    Programa (Storage × BlockLogico) :=
  let rutaBl := rutaBlockLogico nameFile nameTag bl.nombreBlock
  match s.disco.getContenido rutaBl with
  | none => throw .caida
  | some contenido =>
    let hash := hashContenido md5 contenido
    match configGet s.hashIndexConfig hash with
    | none => return (agregarHashNuevo s hash bl.bloqueFisicoAsociado, bl)
    | some bfExistente =>
      if bfExistente = bl.bloqueFisicoAsociado then return (s, bl)
      else reasignarBloqueLogico s rutaBl bl bfExistente bl.bloqueFisicoAsociado

def procesarBloques (nameFile nameTag : String) (s : Storage) :
    List BlockLogico → Programa (Storage × List BlockLogico)
  | [] => return (s, [])
  | bl :: bls => do
    let (s', bl') ← procesarBloqueCommit md5 nameFile nameTag s bl
    let (s'', bls') ← procesarBloques nameFile nameTag s' bls
    return (s'', bl' :: bls')

def operacionCommitTag (s : Storage) (nameFile nameTag : String) : Programa (Storage × ℤ) := do
  match ← buscarTag s nameFile nameTag with
  | none => return (s, -1)
  | some tag =>
    if tag.metadata.estado = .commited then return (s, 1)
    else do
      let (s', bloques) ← procesarBloques md5 nameFile nameTag s tag.listaBlockLogicos
      return (guardarMetadata (modificarTag s' nameFile nameTag (commitear bloques))
        nameFile nameTag, 0)

variable {held : Finset Mutex} (hb : Mutex.bitmap ∉ held)

section Bloque

include hb

theorem computes_restarAsociados (s : Storage) (bfViejo : String) :
    Computes held (restarAsociados s bfViejo)
      (.ok (match buscarIndexBlockFisico s bfViejo with
        | none => s
        | some idxViejo =>
          let s := sumarAsociados s idxViejo (-1)
          if (s.listaBloquesFisicos[idxViejo]?.map BlockFisico.blogicoAsociados) = some 0 ∧
              idxViejo ≠ 0 then
            { s with bitmap := StorageState.bitmapMarcarBloqueLibre s.bitmap idxViejo }
          else s)) := by
  unfold restarAsociados
  cases buscarIndexBlockFisico s bfViejo with
  | none => exact computes_pure held _
  | some idxViejo =>
    dsimp only
    split_ifs with hcero
    · exact computes_bitmapMarcarBloqueLibre hb _ idxViejo
    · exact computes_pure held _

theorem computes_reasignarBloqueLogico (s : Storage) (rutaBl : RutaBlock) (bl : BlockLogico)
    (bfNuevo bfViejo : String) :
    Computes held (reasignarBloqueLogico s rutaBl bl bfNuevo bfViejo)
      (.ok (StorageOperations.reasignarBloqueLogico s rutaBl bl bfNuevo bfViejo)) :=
  computes_bind_ok (computes_restarAsociados hb _ bfViejo) (computes_pure held _)

theorem computes_procesarBloqueCommit (s : Storage) (f t : String) (bl : BlockLogico) :
    Computes held (procesarBloqueCommit md5 f t s bl)
      (StorageOperations.procesarBloqueCommit md5 f t s bl) := by
  unfold procesarBloqueCommit StorageOperations.procesarBloqueCommit
  dsimp only
  cases s.disco.getContenido (rutaBlockLogico f t bl.nombreBlock) with
  | none => rfl
  | some contenido =>
    dsimp only
    cases configGet s.hashIndexConfig (hashContenido md5 contenido) with
    | none => exact computes_pure held _
    | some bfExistente =>
      dsimp only
      split_ifs with hbf
      · exact computes_pure held _
      · exact computes_reasignarBloqueLogico hb s _ bl bfExistente _

theorem computes_procesarBloques (s : Storage) (f t : String) (bls : List BlockLogico) :
    Computes held (procesarBloques md5 f t s bls)
      (StorageOperations.procesarBloques md5 f t s bls) := by
  induction bls generalizing s with
  | nil => exact computes_pure held _
  | cons bl bls ih =>
    unfold StorageOperations.procesarBloques
    have hbloque := computes_procesarBloqueCommit md5 hb s f t bl
    cases hop : StorageOperations.procesarBloqueCommit md5 f t s bl with
    | error e =>
      rw [hop] at hbloque
      exact bind_of_error hbloque
    | ok r =>
      obtain ⟨s', bl'⟩ := r
      rw [hop] at hbloque
      apply computes_bind_ok hbloque
      have hbloques := ih s'
      dsimp only
      cases hop' : StorageOperations.procesarBloques md5 f t s' bls with
      | error e =>
        rw [hop'] at hbloques
        exact bind_of_error hbloques
      | ok r' =>
        rw [hop'] at hbloques
        exact computes_bind_ok hbloques (computes_pure held _)

end Bloque

theorem computes_operacionCommitTag (hl : Mutex.listasArchivos ∉ held)
    (hb : Mutex.bitmap ∉ held) (s : Storage) (f t : String) :
    Computes held (operacionCommitTag md5 s f t)
      (StorageOperations.operacionCommitTag md5 s f t) := by
  unfold StorageOperations.operacionCommitTag
  apply computes_bind_ok (computes_buscarTag hl s f t)
  cases StorageState.buscarTag s f t with
  | none => exact computes_pure held _
  | some tag =>
    dsimp only
    split_ifs with hestado
    · exact computes_pure held _
    · have hbloques := computes_procesarBloques md5 hb s f t tag.listaBlockLogicos
      cases hop : StorageOperations.procesarBloques md5 f t s tag.listaBlockLogicos with
      | error e =>
        rw [hop] at hbloques
        exact bind_of_error hbloques
      | ok r =>
        rw [hop] at hbloques
        exact computes_bind_ok hbloques (computes_pure held _)

end Commit

section WriteRead

variable (md5 : Bytes → String) (sb : Superbloque)

def cleanup (r : Storage × ℤ) : Programa (Storage × ℤ) := do
  mutexUnlock .bloques
  return r

/-- Every return but the one for a content that is too long goes through cleanup. -/
def operacionWriteBloque (s : Storage) (nameFile nameTag : String) (bl : BlockLogico)
    (contenido : Bytes) : Programa (Storage × ℤ) := do
  mutexLock .bloques
  match ← buscarTag s nameFile nameTag with
  | none => cleanup (s, -1)
  | some _ =>
    match s.disco.getContenido (rutaBlockLogico nameFile nameTag bl.nombreBlock) with
    | none => cleanup (s, -1)
    | some contenidoOriginal =>
      if sb.blockSize < contenido.length then do
        mutexUnlock .bloques
        return (s, -1)
      else match buscarIndexBlockFisico s bl.bloqueFisicoAsociado with
      | none => cleanup (s, -1)
      | some indexBf =>
        let buffer := bufferEscritura sb contenidoOriginal contenido
        let disco := match s.listaBloquesFisicos[indexBf]? with
          | none => s.disco
          | some bf => s.disco.escribirArchivoTruncado bf.pathBlock buffer
        let index := configRemoveKey s.hashIndexConfig (hashContenido md5 contenidoOriginal)
        cleanup ({ s with
          listaBloquesFisicos := s.listaBloquesFisicos.modify indexBf
            fun bf => { bf with contenido := disco.physicalBlocks bf.pathBlock }
          hashIndexConfig := index
          disco := { disco with blocksHashIndex := index } }, 0)

/-- The file is read with mutex_bloques held, found or not. -/
def operacionReadBloque (s : Storage) (nameFile nameTag nombreBl : String) :
    Programa (Option Bytes) := do
  mutexLock .bloques
  let contenido := s.disco.getContenido (rutaBlockLogico nameFile nameTag nombreBl)
  mutexUnlock .bloques
  return contenido

variable {held : Finset Mutex} (hl : Mutex.listasArchivos ∉ held) (hq : Mutex.bloques ∉ held)

theorem computes_operacionReadBloque (hq : Mutex.bloques ∉ held) (s : Storage)
    (f t nombreBl : String) : Computes held (operacionReadBloque s f t nombreBl)
      (.ok (StorageOperations.operacionReadBloque s f t nombreBl)) := by
  apply computes_lock hq
  exact unlock_insert hq (computes_pure held _)

theorem cleanup_insert (hq : Mutex.bloques ∉ held) (r : Storage × ℤ) :
    cleanup r (insert Mutex.bloques held) = .ok (r, held) :=
  unlock_insert (f := fun _ => pure r) hq (computes_pure held r)

include hl hq

theorem computes_operacionWriteBloque (s : Storage) (f t : String) (bl : BlockLogico)
    (contenido : Bytes) : Computes held (operacionWriteBloque md5 sb s f t bl contenido)
      (.ok (StorageOperations.operacionWriteBloque md5 sb s f t bl contenido)) := by
  have hl' : Mutex.listasArchivos ∉ insert Mutex.bloques held := by
    simp [hl]
  unfold StorageOperations.operacionWriteBloque
  apply computes_lock hq
  rw [bind_of_ok (computes_buscarTag hl' s f t)]
  cases htag : StorageState.buscarTag s f t with
  | none => exact cleanup_insert hq _
  | some tag =>
    dsimp only
    rw [if_neg (by simp)]
    cases s.disco.getContenido (rutaBlockLogico f t bl.nombreBlock) with
    | none => exact cleanup_insert hq _
    | some contenidoOriginal =>
      dsimp only
      split_ifs with hlen
      · exact unlock_insert hq (computes_pure held _)
      · cases buscarIndexBlockFisico s bl.bloqueFisicoAsociado with
        | none => exact cleanup_insert hq _
        | some indexBf => exact cleanup_insert hq _

end WriteRead

section Delete

variable (sb : Superbloque)

def liberarUsado (s : Storage) (entrada : String) : Programa Storage :=
  let nroBf := atoi entrada
  let nameBF := nameBloque (cantBlock sb) nroBf
  match buscarIndexBlockFisico s nameBF with
  | none => return s
  | some indexBf =>
    let s := sumarAsociados s indexBf (-1)
    if (s.listaBloquesFisicos[indexBf]?.map BlockFisico.blogicoAsociados) = some 0 ∧
        indexBf ≠ 0 then do
      let s ← bitmapMarcarBloqueLibre s (toUint32 nroBf)
      return { s with
        disco := s.disco.escribirArchivoTruncado nameBF (List.replicate sb.blockSize 0) }
    else return s

def liberarUsados (s : Storage) : List String → Programa Storage
  | [] => return s
  | entrada :: entradas => do
    let s' ← liberarUsado sb s entrada
    liberarUsados s' entradas

def operacionEliminarTag (s : Storage) (nameFile nameTag : String) : Programa Storage := do
  let _ ← buscarFile s nameFile
  match ← buscarTag s nameFile nameTag with
  | none => return s
  | some tag => do
    let s ← liberarUsados sb s tag.metadata.blocksFisicosUsados.reverse
    let disco := s.disco.eliminarCarpetaConContenido (rutaTag nameFile nameTag)
    let _ ← buscarIndexTag s nameFile nameTag
    return quitarTag { s with disco := disco } nameFile nameTag

variable {held : Finset Mutex} (hb : Mutex.bitmap ∉ held)

theorem computes_liberarUsado (hb : Mutex.bitmap ∉ held) (s : Storage) (entrada : String) :
    Computes held (liberarUsado sb s entrada)
      (.ok (StorageOperations.liberarUsado sb s entrada)) := by
  unfold liberarUsado StorageOperations.liberarUsado
  dsimp only
  cases buscarIndexBlockFisico s (nameBloque (cantBlock sb) (atoi entrada)) with
  | none => exact computes_pure held _
  | some indexBf =>
    dsimp only
    split_ifs with hcero
    · exact computes_bind_ok (computes_bitmapMarcarBloqueLibre hb _ _) (computes_pure held _)
    · exact computes_pure held _

theorem computes_liberarUsados (hb : Mutex.bitmap ∉ held) (s : Storage)
    (entradas : List String) : Computes held (liberarUsados sb s entradas)
      (.ok (entradas.foldl (StorageOperations.liberarUsado sb) s)) := by
  induction entradas generalizing s with
  | nil => exact computes_pure held _
  | cons entrada entradas ih =>
    exact computes_bind_ok (computes_liberarUsado sb hb s entrada) (ih _)

theorem computes_operacionEliminarTag (hl : Mutex.listasArchivos ∉ held)
    (hb : Mutex.bitmap ∉ held) (s : Storage) (f t : String) :
    Computes held (operacionEliminarTag sb s f t)
      (.ok (StorageOperations.operacionEliminarTag sb s f t)) := by
  unfold StorageOperations.operacionEliminarTag
  apply computes_bind_ok (computes_buscarFile hl s f)
  apply computes_bind_ok (computes_buscarTag hl s f t)
  cases StorageState.buscarTag s f t with
  | none => exact computes_pure held _
  | some tag =>
    apply computes_bind_ok (computes_liberarUsados sb hb s _)
    exact computes_bind_ok (computes_buscarIndexTag hl _ f t) (computes_pure held _)

end Delete

section Atencion

variable (md5 : Bytes → String) (sb : Superbloque)

def storageReadBlock (s : Storage) (file tag : String) (nroPag : ℤ) : Programa Respuesta := do
  match ← buscarTag s file tag with
  | none => return .error
  | some t =>
    if nroPag < 0 ∨ t.listaBlockLogicos.length ≤ nroPag then return .error
    else match t.listaBlockLogicos[nroPag.toNat]? with
    | none => return .error
    | some bl => do
      match ← operacionReadBloque s file tag bl.nombreBlock with
      | none => return .error
      | some contenido => return .bloque ((contenido ++ [0]).take sb.blockSize)

def storageWriteBlock (s : Storage) (file tag : String) (nroPag : ℕ) (contenido : Bytes) :
    Programa (Storage × Respuesta) := do
  match ← buscarTag s file tag with
  | none => return (s, .error)
  | some t => match t.listaBlockLogicos[nroPag]? with
    | none => return (s, .error)
    | some bl =>
      if sb.blockSize < contenido.length then return (s, .error)
      else do
        let (s', resultado) ← operacionWriteBloque md5 sb s file tag bl contenido
        return (s', respuestaDe resultado)

def storageFlush (s : Storage) (file tag : String) : Programa Respuesta := do
  match ← buscarTag s file tag with
  | none => return .error
  | some _ => return .ok

def atenderWorker (s : Storage) : Solicitud → Programa (Storage × Respuesta)
  | .create file tag => do
    let (s', resultado) ← operacionCreateFile s file tag
    return (s', respuestaDe resultado)
  | .truncate file tag tamanio => do
    let (s', resultado) ← operacionTruncateFile sb s file tag tamanio
    return (s', respuestaDe resultado)
  | .tag fileO tagO fileD tagD => do
    let (s', resultado) ← operacionTagFile s fileO tagO fileD tagD
    return (s', respuestaDe resultado)
  | .commit file tag => do
    let (s', resultado) ← operacionCommitTag md5 s file tag
    return (s', if resultado = 0 ∨ resultado = 1 then .ok else .error)
  | .writeBlock file tag nroPag contenido => storageWriteBlock md5 sb s file tag nroPag contenido
  | .readBlock file tag nroPag => do
    let respuesta ← storageReadBlock sb s file tag nroPag
    return (s, respuesta)
  | .flush file tag => do
    let respuesta ← storageFlush s file tag
    return (s, respuesta)
  | .delete file tag => do
    let s' ← operacionEliminarTag sb s file tag
    return (s', .ok)

theorem computes_storageReadBlock (s : Storage) (f t : String) (nroPag : ℤ) :
    Computes ∅ (storageReadBlock sb s f t nroPag)
      (.ok (StorageOperations.storageReadBlock sb s f t nroPag)) := by
  unfold StorageOperations.storageReadBlock
  apply computes_bind_ok (computes_buscarTag (Finset.notMem_empty _) s f t)
  cases StorageState.buscarTag s f t with
  | none => exact computes_pure ∅ _
  | some tag =>
    dsimp only
    split_ifs with hrango
    · exact computes_pure ∅ _
    · cases tag.listaBlockLogicos[nroPag.toNat]? with
      | none => exact computes_pure ∅ _
      | some bl =>
        dsimp only
        apply computes_bind_ok (computes_operacionReadBloque (Finset.notMem_empty _) s f t
          bl.nombreBlock)
        cases StorageOperations.operacionReadBloque s f t bl.nombreBlock with
        | none => exact computes_pure ∅ _
        | some contenido => exact computes_pure ∅ _

theorem computes_storageWriteBlock (s : Storage) (f t : String) (nroPag : ℕ)
    (contenido : Bytes) : Computes ∅ (storageWriteBlock md5 sb s f t nroPag contenido)
      (.ok (StorageOperations.storageWriteBlock md5 sb s f t nroPag contenido)) := by
  unfold StorageOperations.storageWriteBlock
  apply computes_bind_ok (computes_buscarTag (Finset.notMem_empty _) s f t)
  cases StorageState.buscarTag s f t with
  | none => exact computes_pure ∅ _
  | some tag =>
    dsimp only
    cases tag.listaBlockLogicos[nroPag]? with
    | none => exact computes_pure ∅ _
    | some bl =>
      dsimp only
      split_ifs with hlen
      · exact computes_pure ∅ _
      · apply computes_bind_ok (computes_operacionWriteBloque md5 sb (Finset.notMem_empty _)
          (Finset.notMem_empty _) s f t bl contenido)
        exact computes_pure ∅ _

theorem computes_storageFlush (s : Storage) (f t : String) :
    Computes ∅ (storageFlush s f t) (.ok (StorageOperations.storageFlush s f t)) := by
  unfold StorageOperations.storageFlush
  apply computes_bind_ok (computes_buscarTag (Finset.notMem_empty _) s f t)
  cases StorageState.buscarTag s f t with
  | none => exact computes_pure ∅ _
  | some tag => exact computes_pure ∅ _

/-- With their mutexes, the handlers do what they do without. -/
theorem computes_atenderWorker (s : Storage) (x : Solicitud) :
    Computes ∅ (atenderWorker md5 sb s x) (StorageOperations.atenderWorker md5 sb s x) := by
  have hlibre : ∀ m : Mutex, m ∉ (∅ : Finset Mutex) := fun m => Finset.notMem_empty m
  cases x with
  | create file tag =>
    apply computes_bind_ok (computes_operacionCreateFile (hlibre _) s file tag)
    exact computes_pure ∅ _
  | truncate file tag tamanio =>
    have htruncate := computes_operacionTruncateFile (hlibre _) (hlibre _) sb s file tag tamanio
    unfold StorageOperations.atenderWorker
    dsimp only
    cases hop : StorageOperations.operacionTruncateFile sb s file tag tamanio with
    | error e =>
      rw [hop] at htruncate
      exact bind_of_error htruncate
    | ok r =>
      rw [hop] at htruncate
      exact computes_bind_ok htruncate (computes_pure ∅ _)
  | tag fileO tagO fileD tagD =>
    apply computes_bind_ok (computes_operacionTagFile (hlibre _) s fileO tagO fileD tagD)
    exact computes_pure ∅ _
  | commit file tag =>
    have hcommit := computes_operacionCommitTag md5 (hlibre _) (hlibre _) s file tag
    unfold StorageOperations.atenderWorker
    unfold storageCommit
    dsimp only
    cases hop : StorageOperations.operacionCommitTag md5 s file tag with
    | error e =>
      rw [hop] at hcommit
      exact bind_of_error hcommit
    | ok r =>
      rw [hop] at hcommit
      exact computes_bind_ok hcommit (computes_pure ∅ _)
  | writeBlock file tag nroPag contenido =>
    exact computes_storageWriteBlock md5 sb s file tag nroPag contenido
  | readBlock file tag nroPag =>
    exact computes_bind_ok (computes_storageReadBlock sb s file tag nroPag) (computes_pure ∅ _)
  | flush file tag =>
    exact computes_bind_ok (computes_storageFlush s file tag) (computes_pure ∅ _)
  | delete file tag =>
    apply computes_bind_ok (computes_operacionEliminarTag sb (hlibre _) (hlibre _) s file tag)
    exact computes_pure ∅ _

end Atencion

end MasterOfFiles.LockedRequests
