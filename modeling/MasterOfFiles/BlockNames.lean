import Mathlib.Data.Nat.Digits.Defs
import Mathlib.Tactic.NormNum

/-!
Names of physical and logical blocks. Physical names are computed in three
ways in the source: by digit-count branches when the block list is built, by
the format block%04d when TRUNCATE allocates, and by a scan over all indices
when DELETE releases. They agree, and different numbers get different names.
-/
namespace MasterOfFiles.BlockNames

/-- printf's "%0<ancho>d" on a number that is not negative. -/
def conCeros (ancho n : ℕ) : String :=
  String.ofList (List.replicate (ancho - n.repr.length) '0') ++ n.repr

/-- The digits iniciar_bloques_fisicos puts after "block". -/
def digitosBloque (i : ℕ) : String :=
  if i < 10 then "000" ++ i.repr
  else if 10 ≤ i ∧ i < 100 then "00" ++ i.repr
  else if 100 ≤ i ∧ i < 1000 then "0" ++ i.repr
  else i.repr

def nombreBloqueFisico (i : ℕ) : String := "block" ++ digitosBloque i

/-- string_from_format("block%04d", bf_libre). -/
def nombreBloqueLibre (bfLibre : ℕ) : String := "block" ++ conCeros 4 bfLibre

/-- _nameBloque: the scan finds no index for a number outside the table. -/
def nameBloque (cantBlock : ℕ) (nroBloque : ℤ) : String :=
  if 0 ≤ nroBloque ∧ nroBloque < cantBlock then nombreBloqueFisico nroBloque.toNat else ""

def crearNombreBloqueLogico (numero : ℤ) : String :=
  if numero < 10 then "00000" ++ numero.repr ++ ".dat"
  else if numero < 100 then "0000" ++ numero.repr ++ ".dat"
  else if numero < 1000 then "000" ++ numero.repr ++ ".dat"
  else if numero < 10000 then "00" ++ numero.repr ++ ".dat"
  else if numero < 100000 then "0" ++ numero.repr ++ ".dat"
  else numero.repr ++ ".dat"

def bloqueFisicoInicial : String := "block0000"

def bloqueLogicoInicial : String := "000000.dat"

theorem digitosBloque_eq (i : ℕ) : digitosBloque i = conCeros 4 i := by
  have hpos : 0 < i.repr.length := Nat.length_repr_pos
  have h1 := Nat.length_repr_le_iff (n := i) (k := 1) (by omega)
  have h2 := Nat.length_repr_le_iff (n := i) (k := 2) (by omega)
  have h3 := Nat.length_repr_le_iff (n := i) (k := 3) (by omega)
  norm_num at h1 h2 h3
  unfold digitosBloque conCeros
  split_ifs with hA hB hC
  · rw [show 4 - i.repr.length = 3 by omega]
    rfl
  · rw [show 4 - i.repr.length = 2 by omega]
    rfl
  · rw [show 4 - i.repr.length = 1 by omega]
    rfl
  · rw [show 4 - i.repr.length = 0 by omega]
    simp

/-- Logical block names are six digits, or more where the number needs them. -/
theorem crearNombreBloqueLogico_natCast (i : ℕ) :
    crearNombreBloqueLogico i = conCeros 6 i ++ ".dat" := by
  have hpos : 0 < i.repr.length := Nat.length_repr_pos
  have h1 := Nat.length_repr_le_iff (n := i) (k := 1) (by omega)
  have h2 := Nat.length_repr_le_iff (n := i) (k := 2) (by omega)
  have h3 := Nat.length_repr_le_iff (n := i) (k := 3) (by omega)
  have h4 := Nat.length_repr_le_iff (n := i) (k := 4) (by omega)
  have h5 := Nat.length_repr_le_iff (n := i) (k := 5) (by omega)
  norm_num at h1 h2 h3 h4 h5
  have hrepr : (i : ℤ).repr = i.repr := rfl
  unfold crearNombreBloqueLogico conCeros
  rw [hrepr]
  split_ifs with hA hB hC hD hE
  · rw [show 6 - i.repr.length = 5 by omega]
    rfl
  · rw [show 6 - i.repr.length = 4 by omega]
    rfl
  · rw [show 6 - i.repr.length = 3 by omega]
    rfl
  · rw [show 6 - i.repr.length = 2 by omega]
    rfl
  · rw [show 6 - i.repr.length = 1 by omega]
    rfl
  · rw [show 6 - i.repr.length = 0 by omega]
    simp

theorem nombreBloqueLibre_eq (i : ℕ) : nombreBloqueLibre i = nombreBloqueFisico i := by
  unfold nombreBloqueLibre nombreBloqueFisico
  rw [digitosBloque_eq]

/-- Leading zeros do not change the number read back. -/
theorem conCeros_injective (ancho : ℕ) : Function.Injective (conCeros ancho) := by
  intro m n h
  have hread : ∀ k, Nat.ofDigitChars 10 (conCeros ancho k).toList 0 = k := by
    intro k
    simp [conCeros, Nat.ofDigitChars_append]
  rw [← hread m, ← hread n, h]

theorem nombreBloqueFisico_injective : Function.Injective nombreBloqueFisico := by
  intro m n h
  unfold nombreBloqueFisico at h
  rw [digitosBloque_eq, digitosBloque_eq] at h
  apply conCeros_injective 4
  have hlist := congrArg String.toList h
  simp only [String.toList_append, List.append_cancel_left_eq] at hlist
  exact String.toList_inj.mp hlist

theorem crearNombreBloqueLogico_injective :
    Function.Injective fun i : ℕ => crearNombreBloqueLogico i := by
  intro m n h
  simp only [crearNombreBloqueLogico_natCast] at h
  apply conCeros_injective 6
  have hlist := congrArg String.toList h
  simp only [String.toList_append, List.append_cancel_right_eq] at hlist
  exact String.toList_inj.mp hlist

theorem menos_notMem_conCeros (ancho n : ℕ) : '-' ∉ (conCeros ancho n).toList := by
  unfold conCeros
  rw [String.toList_append, String.toList_ofList, Nat.toList_repr]
  intro hmem
  rcases List.mem_append.mp hmem with hcero | hdigito
  · exact absurd (List.eq_of_mem_replicate hcero) (by decide)
  · exact absurd (Nat.isDigit_of_mem_toDigits (by decide) (by decide) hdigito) (by decide)

theorem crearNombreBloqueLogico_negSucc (k : ℕ) :
    (crearNombreBloqueLogico (Int.negSucc k)).toList =
      "00000-".toList ++ (k + 1).repr.toList ++ ".dat".toList := by
  have hneg : Int.negSucc k < 10 := by omega
  unfold crearNombreBloqueLogico
  rw [if_pos hneg]
  simp [Int.repr]

/-- Numbers of either sign, as an overflowed size can make them. -/
theorem crearNombreBloqueLogico_inj {m n : ℤ}
    (h : crearNombreBloqueLogico m = crearNombreBloqueLogico n) : m = n := by
  have hsigno : ∀ i k : ℕ,
      crearNombreBloqueLogico i ≠ crearNombreBloqueLogico (Int.negSucc k) := by
    intro i k heq
    have hmem : '-' ∈ (crearNombreBloqueLogico i).toList := by
      rw [heq, crearNombreBloqueLogico_negSucc]
      simp
    rw [crearNombreBloqueLogico_natCast, String.toList_append] at hmem
    rcases List.mem_append.mp hmem with hnum | hdat
    · exact menos_notMem_conCeros 6 i hnum
    · exact absurd hdat (by decide)
  cases m with
  | ofNat i =>
    cases n with
    | ofNat j => exact congrArg Int.ofNat (crearNombreBloqueLogico_injective h)
    | negSucc k => exact absurd h (hsigno i k)
  | negSucc k =>
    cases n with
    | ofNat j => exact absurd h.symm (hsigno j k)
    | negSucc j =>
      have hlist := congrArg String.toList h
      rw [crearNombreBloqueLogico_negSucc, crearNombreBloqueLogico_negSucc,
        List.append_left_inj, List.append_right_inj] at hlist
      have hk : k + 1 = j + 1 := by
        apply conCeros_injective 0
        simp [conCeros, String.toList_inj.mp hlist]
      rw [Nat.succ_injective hk]

theorem nombreBloqueFisico_zero : nombreBloqueFisico 0 = bloqueFisicoInicial := by decide

theorem nombreBloqueFisico_eq_inicial_iff (i : ℕ) :
    nombreBloqueFisico i = bloqueFisicoInicial ↔ i = 0 := by
  rw [← nombreBloqueFisico_zero]
  exact nombreBloqueFisico_injective.eq_iff

theorem nameBloque_of_lt {cantBlock i : ℕ} (h : i < cantBlock) :
    nameBloque cantBlock i = nombreBloqueFisico i := by
  unfold nameBloque
  rw [if_pos ⟨by omega, by omega⟩, Int.toNat_natCast]

end MasterOfFiles.BlockNames
