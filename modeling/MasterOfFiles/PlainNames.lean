import MasterOfFiles.StorageOperations
import MasterOfFiles.TagDirectories

/-!
Requests whose names mean themselves. The Storage's model finds a Tag's directory by the
two names and removes just that one; the source makes it by mkdir -p and removes it by
"rm -r" of its path, unquoted, run by sh out of 256 bytes. The two agree on pairs of
names that are entries of a directory and whose path fits in the command and means itself
to the shell: the command then removes the directory of the pair, and no other pair has it
or anything in it.
-/
namespace MasterOfFiles.PlainNames

open ByteBuffers PathWalks ShellWords TagDirectories PartialRuns StorageOperations
open StorageState (Superbloque Storage)
open StorageFiles (freshStart)

/-- The bytes of a name, as they stand in a path. -/
def bytesDe (nombre : String) : Bytes := nombre.toUTF8.data.toList

theorem bytesDe_inj {a b : String} : bytesDe a = bytesDe b ↔ a = b := by
  constructor
  · intro h
    apply String.toByteArray_inj.mp
    apply ByteArray.ext
    exact Array.toList_inj.mp h
  · exact fun h => congrArg bytesDe h

/-- The two names of a Tag, under the mount point `raiz`, lead to a directory of their own
that rm is given as it is. -/
structure Llano (raiz : Bytes) (f t : String) : Prop where
  file : EsNombre (bytesDe f)
  tag : EsNombre (bytesDe t)
  sinDosPuntos : 58 ∉ bytesDe f
  literal : CabeLiteral raiz ⟨bytesDe f, bytesDe t, sinDosPuntos⟩

section Directorios

variable {raiz : Bytes} {f t f' t' : String}

def Llano.fileTag (h : Llano raiz f t) : FileTag := ⟨bytesDe f, bytesDe t, h.sinDosPuntos⟩

theorem Llano.palabras_comando (h : Llano raiz f t) :
    palabrasShell (comando (rutaTag raiz h.fileTag)) = some [rm, menosR, rutaTag raiz h.fileTag] :=
  (palabras_comando_iff raiz h.fileTag).mpr h.literal

/-- What rm removes for one pair is nothing of another's. -/
theorem Llano.tagsAislados (cwd : Lugar) (h : Llano raiz f t) (h' : Llano raiz f' t')
    (hne : StorageState.rutaTag f t ≠ StorageState.rutaTag f' t') :
    TagsAislados cwd raiz h.fileTag h'.fileTag := by
  apply tagsAislados_of_esNombre cwd h.literal h'.literal h.file h.tag h'.file h'.tag
  intro heq
  apply hne
  obtain ⟨hfile, htag⟩ := FileTag.ext_iff.mp heq
  rw [bytesDe_inj.mp hfile, bytesDe_inj.mp htag]

instance : Decidable (Llano raiz f t) :=
  if h : 58 ∉ bytesDe f then
    decidable_of_iff (EsNombre (bytesDe f) ∧ EsNombre (bytesDe t) ∧
        CabeLiteral raiz ⟨bytesDe f, bytesDe t, h⟩)
      ⟨fun ⟨hf, ht, hliteral⟩ => ⟨hf, ht, h, hliteral⟩, fun hp => ⟨hp.file, hp.tag, hp.literal⟩⟩
  else isFalse fun hp => h hp.sinDosPuntos

end Directorios

section Pedidos

/-- The File:Tags a request names. -/
def nombrados : Solicitud → List (String × String)
  | .create f t => [(f, t)]
  | .truncate f t _ => [(f, t)]
  | .tag fo tgo fd td => [(fo, tgo), (fd, td)]
  | .commit f t => [(f, t)]
  | .writeBlock f t _ _ => [(f, t)]
  | .readBlock f t _ => [(f, t)]
  | .flush f t => [(f, t)]
  | .delete f t => [(f, t)]

def Llana (raiz : Bytes) (x : Solicitud) : Prop := ∀ p ∈ nombrados x, Llano raiz p.1 p.2

instance (raiz : Bytes) (x : Solicitud) : Decidable (Llana raiz x) :=
  inferInstanceAs (Decidable (∀ p ∈ nombrados x, Llano raiz p.1 p.2))

/-- A request that names plain File:Tags only. -/
abbrev Pedido (raiz : Bytes) := {x : Solicitud // Llana raiz x}

/-- The states that plain requests, one at a time, lead to from a fresh start. -/
def AlcanzableLlano (raiz : Bytes) (md5 : Bytes → String) (sb : Superbloque) (s : Storage) : Prop :=
  ∃ xs : List (Pedido raiz), run (paso md5 sb) (freshStart sb) xs.unattach = .ok s

theorem AlcanzableLlano.alcanzable {raiz : Bytes} {md5 : Bytes → String} {sb : Superbloque}
    {s : Storage} (h : AlcanzableLlano raiz md5 sb s) : Alcanzable md5 sb s := by
  obtain ⟨xs, hxs⟩ := h
  exact ⟨xs.unattach, hxs⟩

/-- "./storage". -/
def raizChica : Bytes := [46, 47, 115, 116, 111, 114, 97, 103, 101]

example : Llana raizChica (.create "initial_file" "BASE") ∧
    ¬ Llana raizChica (.create "*" "BASE") := by
  decide

end Pedidos

end MasterOfFiles.PlainNames
