import MasterOfFiles.PlainNames
import MasterOfFiles.TagLookups
import MasterOfFiles.WatchedRuns

/-!
Whose strings the arrays blocks_usados hold. The operations keep the strings' values; what
they leave out is that TAG pushes the source's own pointers, so that two arrays hold one
string, and that a TRUNCATE to size 0 and a DELETE free the strings of an array without
asking who else holds them. The ghost beside the state gives each string its address, and
condemns a request that reads a freed string or frees one again: from there on the
values say nothing, for the process may have died or read what was allocated meanwhile.
-/
namespace MasterOfFiles.SharedStrings

open KeyedLists ByteBuffers StorageState StorageFiles StorageOperations PartialRuns
open WatchedRuns PlainNames

section Punteros

/-- The addresses in the arrays blocks_usados, one array for each Tag entry in the order
they were added; the ones freed so far, and the next one. -/
structure Punteros where
  arreglos : List (RutaTag × List ℕ)
  liberadas : List ℕ
  proxima : ℕ

/-- The array of the Tag that buscar_tag finds. -/
def celdasDe (p : Punteros) (nameFile nameTag : String) : List ℕ :=
  ((first Prod.fst (rutaTag nameFile nameTag) p.arreglos).map Prod.snd).getD []

def agregarCeldas (p : Punteros) (nameFile nameTag : String) (celdas : List ℕ) : Punteros :=
  { p with arreglos := p.arreglos ++ [(rutaTag nameFile nameTag, celdas)] }

def fijarCeldas (p : Punteros) (nameFile nameTag : String) (celdas : List ℕ) : Punteros :=
  { p with
    arreglos := modifyFirst Prod.fst (rutaTag nameFile nameTag) (fun e => (e.1, celdas))
      p.arreglos }

def quitarCeldas (p : Punteros) (nameFile nameTag : String) : Punteros :=
  { p with arreglos := eraseFirst Prod.fst (rutaTag nameFile nameTag) p.arreglos }

end Punteros

section Rastros

/-- What a request does to the strings: the ones it reads, the ones it frees, and the
arrays it leaves. -/
structure Rastro where
  leidas : List ℕ
  sueltas : List ℕ
  punteros : Punteros

def sinRastro (p : Punteros) : Rastro := ⟨[], [], p⟩

/-- actualizar_metadata reads every string, if it finds the Tag's file. -/
def guardadas (s : Storage) (nameFile nameTag : String) (celdas : List ℕ) : List ℕ :=
  if (s.disco.metadataConfig (rutaTag nameFile nameTag)).isSome then celdas else []

/-- A new Tag's array is empty. -/
def rastroCreate (p : Punteros) (s : Storage) (nameFile nameTag : String) : Rastro :=
  if (buscarTag s nameFile nameTag).isSome then sinRastro p
  else ⟨[], [], agregarCeldas p nameFile nameTag []⟩

/-- esta_en_array compares the strings with "0" up to the first that is. -/
def comparadas (blocks : List String) (celdas : List ℕ) : List ℕ :=
  celdas.take (blocks.findIdx (· = "0") + 1)

/-- For each link made, the growth loop looks for "0" in the array and pushes a new one if
it is not there. -/
def rastroCrecer (p : Punteros) (nameFile nameTag : String) (blocks : List String) : Rastro :=
  let celdas := celdasDe p nameFile nameTag
  ⟨comparadas blocks celdas, [],
    if "0" ∈ blocks then p
    else { fijarCeldas p nameFile nameTag (celdas ++ [p.proxima]) with proxima := p.proxima + 1 }⟩

/-- With size 0 string_array_destroy frees the strings, and the file gets an empty list. -/
def rastroTerminar (r : Rastro) (s : Storage) (nameFile nameTag : String) (tamanioBytes : ℤ) :
    Rastro :=
  let celdas := celdasDe r.punteros nameFile nameTag
  if tamanioBytes = 0 then
    { r with sueltas := celdas, punteros := fijarCeldas r.punteros nameFile nameTag [] }
  else { r with leidas := r.leidas ++ guardadas s nameFile nameTag celdas }

def largoDe (s : Storage) (nameFile nameTag : String) : ℕ :=
  ((buscarTag s nameFile nameTag).map fun tag => tag.listaBlockLogicos.length).getD 0

/-- A list of blocks that grew is one that got links. -/
def rastroTruncate (sb : Superbloque) (p : Punteros) (s : Storage) (nameFile nameTag : String)
    (tamanioBytes : ℤ) : Rastro :=
  match buscarTag s nameFile nameTag, operacionTruncateFile sb s nameFile nameTag tamanioBytes with
  | some tag, .ok (s', resultado) =>
    let r := if largoDe s nameFile nameTag < largoDe s' nameFile nameTag then
        rastroCrecer p nameFile nameTag tag.metadata.blocksFisicosUsados
      else sinRastro p
    if resultado = 0 then rastroTerminar r s nameFile nameTag tamanioBytes else r
  | _, _ => sinRastro p

/-- The copy's array gets the pointers of the source's, and its file, which crear_tag has
made, their strings. -/
def rastroTag (p : Punteros) (s : Storage) (nameFileOrigen nameTagOrigen nameFileDestino
    nameTagDestino : String) : Rastro :=
  if (buscarTag s nameFileOrigen nameTagOrigen).isNone then sinRastro p
  else
    let celdas := celdasDe p nameFileOrigen nameTagOrigen
    ⟨celdas, [], agregarCeldas p nameFileDestino nameTagDestino celdas⟩

def rastroCommit (p : Punteros) (s : Storage) (nameFile nameTag : String) : Rastro :=
  match buscarTag s nameFile nameTag with
  | none => sinRastro p
  | some tag =>
    if tag.metadata.estado = .commited then sinRastro p
    else ⟨guardadas s nameFile nameTag (celdasDe p nameFile nameTag), [], p⟩

/-- Every string popped is read for its number and freed. -/
def rastroDelete (p : Punteros) (s : Storage) (nameFile nameTag : String) : Rastro :=
  if (buscarTag s nameFile nameTag).isNone then sinRastro p
  else
    let celdas := celdasDe p nameFile nameTag
    ⟨celdas, celdas, quitarCeldas p nameFile nameTag⟩

def rastro (sb : Superbloque) (p : Punteros) (s : Storage) : Solicitud → Rastro
  | .create file tag => rastroCreate p s file tag
  | .truncate file tag tamanio => rastroTruncate sb p s file tag tamanio
  | .tag fileO tagO fileD tagD => rastroTag p s fileO tagO fileD tagD
  | .commit file tag => rastroCommit p s file tag
  | .delete file tag => rastroDelete p s file tag
  | _ => sinRastro p

/-- A string is read or freed after it was freed, or freed twice. -/
def tocaLiberadas (p : Punteros) (r : Rastro) : Bool :=
  (r.leidas ++ r.sueltas).any (· ∈ p.liberadas) || !decide r.sueltas.Nodup

def soltar (r : Rastro) : Punteros :=
  { r.punteros with liberadas := r.sueltas ++ r.punteros.liberadas }

def vigilancia (sb : Superbloque) : Watch Storage Solicitud Punteros where
  track := fun p s x _ => soltar (rastro sb p s x)
  harm := fun p s x _ => tocaLiberadas p (rastro sb p s x)

end Rastros

section Corridas

variable (md5 : Bytes → String) (sb : Superbloque)

abbrev Vigilado := Watched Storage Punteros

abbrev pasoVigilado : Vigilado → Solicitud → Except Fallo Vigilado :=
  watchedStep (paso md5 sb) (vigilancia sb)

/-- The request, if it ends, uses no string that has been freed. -/
abbrev SinTocarLiberadas : Vigilado → Solicitud → Prop := Harmless (paso md5 sb) (vigilancia sb)

/-- main pushes one string of its own for initial_file:BASE. -/
def inicio : Vigilado := ⟨freshStart sb, ⟨[(rutaTag "initial_file" "BASE", [0])], [], 1⟩, true⟩

/-- A state that plain requests lead to from a fresh start, none of which has used a freed
string. -/
structure AlcanzableVigilado (raiz : Bytes) (c : Vigilado) : Prop where
  known : c.known = true
  corrida : ∃ xs : List (Pedido raiz), run (pasoVigilado md5 sb) (inicio sb) xs.unattach = .ok c

variable {md5 sb}

theorem AlcanzableVigilado.alcanzable {raiz : Bytes} {c : Vigilado}
    (h : AlcanzableVigilado md5 sb raiz c) : Alcanzable md5 sb c.state := by
  obtain ⟨xs, hxs⟩ := h.corrida
  exact reaches_of_watched ⟨xs.unattach, hxs⟩ h.known

end Corridas

end MasterOfFiles.SharedStrings
