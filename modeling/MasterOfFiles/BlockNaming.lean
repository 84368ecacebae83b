import MasterOfFiles.BlockTable
import MasterOfFiles.StorageRestart

/-!
One name for every physical block. It is made when the table is built, fresh or from an
existing file system, when DELETE looks for the number it read in a metadata file, and
when TRUNCATE takes a block the bitmap has free. For any number of blocks the four names of
an index are the same string and lead back to the index in the table.
-/
namespace MasterOfFiles.BlockNaming

open ByteBuffers BlockNames StorageState BlockTable
open StorageFiles hiding iniciarBloqueFisico iniciarBloquesFisicos
open StorageRestart hiding iniciarBloquesFisicosExistentes

variable {cantBlock n : ℕ} {s : Storage}

section Nombres

/-- The branches of _nameBloque. -/
def nombreIndice (i : ℕ) : String :=
  if i < 10 then "block000" ++ i.repr
  else if 10 ≤ i ∧ i < 100 then "block00" ++ i.repr
  else if 100 ≤ i ∧ i < 1000 then "block0" ++ i.repr
  else "block" ++ i.repr

/-- _nameBloque, which goes through all the indices of the table. -/
def nameBloque (cantBlock : ℕ) (nroBloque : ℤ) : String :=
  (List.range cantBlock).foldl
    (fun digitos (i : ℕ) => if (i : ℤ) = nroBloque then nombreIndice i else digitos) ""

theorem nombreIndice_eq (i : ℕ) : nombreIndice i = nombreBloqueFisico i := by
  unfold nombreIndice nombreBloqueFisico digitosBloque
  split_ifs
  · rw [← String.append_assoc]
    rfl
  · rw [← String.append_assoc]
    rfl
  · rw [← String.append_assoc]
    rfl
  · rfl

/-- The scan gives the name of the number if it is in the table. -/
theorem nameBloque_eq (cantBlock : ℕ) (nroBloque : ℤ) :
    nameBloque cantBlock nroBloque = BlockNames.nameBloque cantBlock nroBloque := by
  unfold nameBloque BlockNames.nameBloque
  induction cantBlock with
  | zero => exact (if_neg (by omega)).symm
  | succ k ih =>
    rw [List.range_succ, List.foldl_append, ih, List.foldl_cons, List.foldl_nil]
    by_cases hk : (k : ℤ) = nroBloque
    · rw [if_pos hk, if_pos (by omega), nombreIndice_eq, ← hk, Int.toNat_natCast]
    · rw [if_neg hk]
      exact if_congr (by omega) rfl rfl

end Nombres

section Tablas

/-- A turn of iniciar_bloques_fisicos. -/
def iniciarBloqueFisico (sizeBlock : ℕ) (s : Storage) (i : ℕ) : Storage :=
  let nameBloque := "block" ++ digitosBloque i
  let disco := s.disco.escribirArchivoTruncado nameBloque
    (List.replicate sizeBlock (if i = 0 then 48 else 0))
  { s with
    disco := disco
    listaBloquesFisicos := s.listaBloquesFisicos ++
      [⟨nameBloque, disco.physicalBlocks nameBloque, 0⟩] }

def iniciarBloquesFisicos (countBlock sizeBlock : ℕ) (s : Storage) : Storage :=
  (List.range countBlock).foldl (iniciarBloqueFisico sizeBlock) s

/-- A turn of iniciar_bloques_fisicos_existentes. -/
def iniciarBloqueExistente (sizeBlock : ℕ) (s : Storage) (i : ℕ) : Storage :=
  let nameBloque := "block" ++ digitosBloque i
  { s with
    listaBloquesFisicos := s.listaBloquesFisicos ++
      [⟨nameBloque, some ((s.disco.physicalBlocks nameBloque).getD (List.replicate sizeBlock 0)),
        0⟩] }

def iniciarBloquesFisicosExistentes (countBlock sizeBlock : ℕ) (s : Storage) : Storage :=
  (List.range countBlock).foldl (iniciarBloqueExistente sizeBlock) s

theorem iniciarBloquesFisicos_eq (sb : Superbloque) (s : Storage) :
    StorageFiles.iniciarBloquesFisicos sb s =
      iniciarBloquesFisicos (StorageState.cantBlock sb) sb.blockSize s := rfl

theorem iniciarBloquesFisicosExistentes_eq (sb : Superbloque) (hs : s.listaBloquesFisicos = []) :
    (iniciarBloquesFisicosExistentes (StorageState.cantBlock sb) sb.blockSize
      s).listaBloquesFisicos = StorageRestart.iniciarBloquesFisicosExistentes sb s.disco := by
  have hfold : ∀ k, (List.range k).foldl (iniciarBloqueExistente sb.blockSize) s =
      { s with
        listaBloquesFisicos := (List.range k).map fun i =>
          ⟨nombreBloqueFisico i, some ((s.disco.physicalBlocks (nombreBloqueFisico i)).getD
            (List.replicate sb.blockSize 0)), 0⟩ } := by
    intro k
    induction k with
    | zero =>
      rw [List.range_zero, List.foldl_nil, List.map_nil, ← hs]
    | succ k ih =>
      rw [List.range_succ, List.foldl_append, ih, List.map_append]
      rfl
  unfold iniciarBloquesFisicosExistentes StorageRestart.iniciarBloquesFisicosExistentes
  rw [hfold]

/-- A loop that adds a block a turn to an empty table puts the names in their order. -/
theorem tabla_foldl (turno : Storage → ℕ → Storage)
    (hturno : ∀ s i, tabla (turno s i) = tabla s ++ [nombreBloqueFisico i])
    (hs : s.listaBloquesFisicos = []) (n : ℕ) :
    tabla ((List.range n).foldl turno s) = (List.range n).map nombreBloqueFisico := by
  induction n with
  | zero =>
    unfold tabla
    rw [List.range_zero, List.foldl_nil, hs]
    rfl
  | succ n ih =>
    rw [List.range_succ, List.foldl_append, List.foldl_cons, List.foldl_nil, hturno, ih,
      List.map_append]
    rfl

theorem tabla_iniciarBloquesFisicos (cantBlock sizeBlock : ℕ) (hs : s.listaBloquesFisicos = []) :
    tabla (iniciarBloquesFisicos cantBlock sizeBlock s) =
      (List.range cantBlock).map nombreBloqueFisico :=
  tabla_foldl (iniciarBloqueFisico sizeBlock) (fun _ _ => List.map_append) hs cantBlock

theorem tabla_iniciarBloquesFisicosExistentes (cantBlock sizeBlock : ℕ)
    (hs : s.listaBloquesFisicos = []) :
    tabla (iniciarBloquesFisicosExistentes cantBlock sizeBlock s) =
      (List.range cantBlock).map nombreBloqueFisico :=
  tabla_foldl (iniciarBloqueExistente sizeBlock) (fun _ _ => List.map_append) hs cantBlock

end Tablas

section Acuerdo

/-- The names that index `n` has in a table of `cantBlock` blocks, and the way back. -/
structure NombreComun (cantBlock : ℕ) (s : Storage) (n : ℕ) : Prop where
  lista : (tabla s)[n]? = some (nameBloque cantBlock n)
  truncate : nombreBloqueLibre n = nameBloque cantBlock n
  distinto : ∀ m < cantBlock, m ≠ n → nameBloque cantBlock m ≠ nameBloque cantBlock n
  indice : buscarIndexBlockFisico s (nameBloque cantBlock n) = some n

theorem nombreComun_of_tabla (h : tabla s = (List.range cantBlock).map nombreBloqueFisico)
    (hn : n < cantBlock) : NombreComun cantBlock s n := by
  have hnombre : ∀ m < cantBlock, nameBloque cantBlock m = nombreBloqueFisico m := by
    intro m hm
    rw [nameBloque_eq, nameBloque_of_lt hm]
  refine ⟨?_, ?_, fun m hm hne => ?_, ?_⟩
  · rw [h, List.getElem?_map, List.getElem?_range hn, Option.map_some, hnombre n hn]
  · rw [nombreBloqueLibre_eq, hnombre n hn]
  · rw [hnombre m hm, hnombre n hn]
    exact nombreBloqueFisico_injective.ne hne
  · rw [hnombre n hn]
    exact buscarIndex_of_rango h hn

/-- Index, name and number of every physical block agree, in a table that is built fresh
and in one that is built from an existing file system. -/
theorem nombreComun_iniciar (hs : s.listaBloquesFisicos = []) (hn : n < cantBlock)
    (sizeBlock : ℕ) :
    NombreComun cantBlock (iniciarBloquesFisicos cantBlock sizeBlock s) n ∧
      NombreComun cantBlock (iniciarBloquesFisicosExistentes cantBlock sizeBlock s) n :=
  ⟨nombreComun_of_tabla (tabla_iniciarBloquesFisicos cantBlock sizeBlock hs) hn,
    nombreComun_of_tabla (tabla_iniciarBloquesFisicosExistentes cantBlock sizeBlock hs) hn⟩

/-- Block 12345 of a table of 20000. -/
theorem nombreComun_iniciar_grande :
    NombreComun 20000 (iniciarBloquesFisicos 20000 16 ⟨[], [], [], [], discoVacio⟩) 12345 ∧
      NombreComun 20000 (iniciarBloquesFisicosExistentes 20000 16 ⟨[], [], [], [], discoVacio⟩)
        12345 :=
  nombreComun_iniciar rfl (by decide) 16

end Acuerdo

end MasterOfFiles.BlockNaming
