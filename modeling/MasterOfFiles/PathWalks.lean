import Mathlib.Tactic.MkIffOfInductiveProp
import MasterOfFiles.ByteBuffers

/-!
How a path is followed. A place in the tree of directories is the list of the names that
lead to it from the root; an empty component and '.' stay where they are and '..' goes one
name back, from the root to itself. No component is a symbolic link. One place is inside
another when its list begins with the other's.
-/
namespace MasterOfFiles.PathWalks

open ByteBuffers

abbrev Lugar := List Bytes

def siguiente (aqui : Lugar) (c : Bytes) : Lugar :=
  if c = [] ∨ c = [46] then aqui
  else if c = [46, 46] then aqui.dropLast
  else aqui ++ [c]

/-- Follows a path from a place; 47 is the slash. -/
def andar (aqui : Lugar) (p : Bytes) : Lugar := (p.splitOn 47).foldl siguiente aqui

/-- A path that begins with a slash is followed from the root. -/
def resolver (cwd : Lugar) (p : Bytes) : Lugar :=
  andar (if p.head? = some 47 then [] else cwd) p

/-- What a directory can have as the name of an entry. -/
@[mk_iff]
structure EsNombre (c : Bytes) : Prop where
  noVacio : c ≠ []
  sinBarra : 47 ∉ c
  noPunto : c ≠ [46]
  noPuntos : c ≠ [46, 46]

instance (c : Bytes) : Decidable (EsNombre c) := decidable_of_iff' _ (esNombre_iff c)

variable {aqui l l' : Lugar} {c c' p q : Bytes}

theorem andar_append_cons (aqui : Lugar) (p q : Bytes) :
    andar aqui (p ++ 47 :: q) = andar (andar aqui p) q := by
  rw [andar, List.splitOn_append_cons_self, List.foldl_append]
  rfl

theorem resolver_append_cons (cwd : Lugar) (hp : p ≠ []) (q : Bytes) :
    resolver cwd (p ++ 47 :: q) = andar (resolver cwd p) q := by
  obtain ⟨b, p, rfl⟩ := List.exists_cons_of_ne_nil hp
  rw [resolver, andar_append_cons]
  rfl

theorem andar_of_esNombre (aqui : Lugar) (h : EsNombre c) : andar aqui c = aqui ++ [c] := by
  rw [andar, List.splitOn_eq_singleton h.sinBarra, List.foldl_cons, List.foldl_nil, siguiente,
    if_neg (not_or.mpr ⟨h.noVacio, h.noPunto⟩), if_neg h.noPuntos]

theorem esNombre_of_sinPuntos (hvacio : c ≠ []) (hbarra : 47 ∉ c) (hpunto : c.head? ≠ some 46) :
    EsNombre c := by
  refine ⟨hvacio, hbarra, ?_, ?_⟩
  · rintro rfl
    exact hpunto rfl
  · rintro rfl
    exact hpunto rfl

/-- Entries of two places are different as soon as the places are. -/
theorem append_ne_of_ne (h : l ≠ l') (r : Lugar) :
    l ++ r ++ [c] ≠ l' ++ r ++ [c'] := by
  intro heq
  have htails := (List.append_inj_left' heq rfl)
  exact h (List.append_cancel_right htails)

end MasterOfFiles.PathWalks
