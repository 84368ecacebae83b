import MasterOfFiles.StorageFiles

/-!
What actualizar_metadata writes is what crear_metadata reads. The text of the list is made
by a loop that puts a comma behind every block but the last; what it has written and what
is still to come make the whole text at every turn. The other two keys are a number and a
word, and older values of the three do not count.
-/
namespace MasterOfFiles.MetadataRoundTrip

open ConfigText StorageState StorageFiles

section Lista

/-- A turn of the loop that builds the text of the list. -/
def agregarBloque (blocks : List String) (bloques : String) (i : ℕ) : String :=
  let bloques := bloques ++ blocks.getD i ""
  if (i : ℤ) < (blocks.length : ℤ) - 1 then bloques ++ "," else bloques

def construirBloques (blocks : List String) : String :=
  (List.range blocks.length).foldl (agregarBloque blocks) "[" ++ "]"

/-- After `k` turns the text lacks just the blocks from `k` on. -/
theorem foldl_agregarBloque (blocks : List String) {k : ℕ} (hk : k ≤ blocks.length) :
    (List.range k).foldl (agregarBloque blocks) "[" ++ ",".intercalate (blocks.drop k) =
      "[" ++ ",".intercalate blocks := by
  induction k with
  | zero => rfl
  | succ k ih =>
    have hlt : k < blocks.length := by omega
    have hvuelta := ih (by omega)
    rw [List.drop_eq_getElem_cons hlt] at hvuelta
    rw [List.range_succ, List.foldl_append, List.foldl_cons, List.foldl_nil, ← hvuelta]
    unfold agregarBloque
    rw [List.getD_eq_getElem?_getD, List.getElem?_eq_getElem hlt, Option.getD_some]
    by_cases hultimo : k + 1 = blocks.length
    · rw [if_neg (by omega), List.drop_eq_nil_of_le (by omega), String.intercalate_nil,
        String.intercalate_singleton, String.append_empty]
    · have hno : blocks.drop (k + 1) ≠ [] := by
        rw [Ne, List.drop_eq_nil_iff]
        omega
      rw [if_pos (by omega), String.intercalate_cons_of_ne_nil hno]
      simp only [String.append_assoc]

theorem construirBloques_eq (blocks : List String) :
    construirBloques blocks = textoBlocks blocks := by
  have htodo := foldl_agregarBloque blocks (le_refl _)
  rw [List.drop_length, String.intercalate_nil, String.append_empty] at htodo
  unfold construirBloques textoBlocks
  rw [htodo]

end Lista

section Archivo

variable {d : Disco} {rt : RutaTag} {lineas : Config} {metadata : Metadata}

/-- actualizar_metadata, with the text of the list as it builds it. -/
def escribirMetadata (d : Disco) (rt : RutaTag) (metadata : Metadata) : Disco :=
  match d.metadataConfig rt with
  | none => d
  | some lineas =>
    let metaConfig := configSetValue (configSetValue (configSetValue (configCreate lineas)
      "TAMAÑO" metadata.tamanioFile.repr)
      "BLOCKS" (construirBloques metadata.blocksFisicosUsados))
      "ESTADO" (convertirEstadoAString metadata.estado)
    { d with metadataConfig := Function.update d.metadataConfig rt (some metaConfig) }

theorem escribirMetadata_eq (d : Disco) (rt : RutaTag) (metadata : Metadata) :
    escribirMetadata d rt metadata = actualizarMetadata d rt metadata := by
  unfold escribirMetadata actualizarMetadata
  cases d.metadataConfig rt with
  | none => rfl
  | some lineas => simp only [construirBloques_eq]

/-- The number of a physical block as text. -/
def EsNumero (b : String) : Prop := b ≠ "" ∧ ∀ c ∈ b.toList, c.isDigit

theorem EsNumero.separable {b : String} (h : EsNumero b) : b ≠ "" ∧ ',' ∉ b.toList :=
  ⟨h.1, fun hcoma => absurd (h.2 ',' hcoma) (by decide)⟩

theorem esNumero_repr (n : ℕ) : EsNumero n.repr := by
  constructor
  · intro hvacio
    have hlength : 0 < n.repr.length := Nat.length_repr_pos
    rw [hvacio] at hlength
    exact absurd hlength (by decide)
  · intro c hc
    rw [Nat.toList_repr] at hc
    exact Nat.isDigit_of_mem_toDigits (by decide) (by decide) hc

/-- The metadata of a File:Tag survive a write and a reading, whatever the file said. -/
theorem crearMetadata_escribirMetadata (hfile : d.metadataConfig rt = some lineas)
    (htamanio : EnInt metadata.tamanioFile)
    (hblocks : ∀ b ∈ metadata.blocksFisicosUsados, EsNumero b) :
    ((escribirMetadata d rt metadata).metadataConfig rt).map crearMetadata = some metadata := by
  obtain ⟨nuevas, hescrita, heq⟩ := actualizarMetadata_escrita hfile metadata
  rw [atoi_repr htamanio] at hescrita
  have hleida := hescrita.crearMetadata fun b hb => (hblocks b hb).separable
  rw [escribirMetadata_eq, heq]
  simp only [Function.update_self, Option.map_some, hleida]

/-- Two blocks and a negative size over a file that already had the three keys. -/
theorem crearMetadata_escribirMetadata_dos :
    ((escribirMetadata { discoVacio with metadataConfig := fun _ => some metadataInicial }
      (rutaTag "a" "b") ⟨-5, ["0", "12"], .commited⟩).metadataConfig (rutaTag "a" "b")).map
        crearMetadata = some ⟨-5, ["0", "12"], .commited⟩ := by
  refine crearMetadata_escribirMetadata rfl (by decide) fun b hb => ?_
  rcases List.mem_cons.mp hb with rfl | hb
  · exact esNumero_repr 0
  · rw [List.mem_singleton.mp hb]
    exact esNumero_repr 12

end Archivo

end MasterOfFiles.MetadataRoundTrip
