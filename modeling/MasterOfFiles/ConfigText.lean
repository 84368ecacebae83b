import Mathlib.Data.List.Induction
import Mathlib.Data.List.TakeWhile
import Mathlib.Data.Nat.Digits.Defs
import MasterOfFiles.KeyedLists

/-!
Key/value configuration files and the text conversions they rely on. A file is
the list of its key=value lines in order; loading it keeps the last value of a
repeated key, and saving writes the loaded dictionary back. Numbers are read as
strtol reads them: blanks, an optional sign, then digits up to the first other
character. A number too large for a long is cut off at its ends, and atoi keeps the
low 32 bits of what strtol returns.
-/
namespace MasterOfFiles.ConfigText

open KeyedLists

abbrev Config := List (String × String)

def configGet (c : Config) (k : String) : Option String := (first Prod.fst k c).map Prod.snd

def configRemoveKey (c : Config) (k : String) : Config := c.filter fun p => p.1 ≠ k

def configSetValue (c : Config) (k v : String) : Config := configRemoveKey c k ++ [(k, v)]

/-- Loading reads the lines in order, a repeated key replacing the earlier value. -/
def configCreate (lineas : List (String × String)) : Config :=
  lineas.foldl (fun c p => configSetValue c p.1 p.2) []

def esEspacio (c : Char) : Bool :=
  c = ' ' || c = '\t' || c = '\n' || c = '\x0b' || c = '\x0c' || c = '\r'

def leerDigitos (l : List Char) : ℕ := Nat.ofDigitChars 10 (l.takeWhile Char.isDigit) 0

/-- The number a text begins with. -/
def leerEntero (s : String) : ℤ :=
  match s.toList.dropWhile esEspacio with
  | '-' :: ds => -(leerDigitos ds : ℤ)
  | '+' :: ds => leerDigitos ds
  | ds => leerDigitos ds

/-- strtol(s, NULL, 10). -/
def strtol (s : String) : ℤ := max (-2 ^ 63) (min (2 ^ 63 - 1) (leerEntero s))

/-- (int) strtol(s, NULL, 10). -/
def atoi (s : String) : ℤ := (strtol s).bmod (2 ^ 32)

/-- The numbers an int holds. -/
def EnInt (n : ℤ) : Prop := -2 ^ 31 ≤ n ∧ n < 2 ^ 31

instance (n : ℤ) : Decidable (EnInt n) := inferInstanceAs (Decidable (_ ∧ _))

/-- "[a,b,c]" read as an array: the text between the brackets, split at commas. -/
def configArrayValue (v : String) : List String :=
  let interior := (v.toList.drop 1).dropLast
  if interior = [] then [] else (interior.splitOn ',').map String.ofList

theorem configGet_remove_self (c : Config) (k : String) :
    configGet (configRemoveKey c k) k = none := by
  have hk : k ∉ (configRemoveKey c k).map Prod.fst := by
    intro h
    obtain ⟨p, hp, hpk⟩ := List.mem_map.mp h
    simp [configRemoveKey, hpk] at hp
  unfold configGet
  rw [first_eq_none_iff.mpr hk]
  rfl

theorem configGet_remove_ne (c : Config) {k k' : String} (h : k' ≠ k) :
    configGet (configRemoveKey c k) k' = configGet c k' := by
  unfold configGet configRemoveKey
  congr 1
  induction c with
  | nil => rfl
  | cons p ps ih =>
    by_cases hp : p.1 = k
    · simpa [first, hp, Ne.symm h] using ih
    · by_cases hp' : p.1 = k'
      · simp [first, hp', h]
      · simpa [first, hp, hp'] using ih

theorem configGet_set_self (c : Config) (k v : String) :
    configGet (configSetValue c k v) k = some v := by
  have hnone := configGet_remove_self c k
  unfold configGet at hnone ⊢
  unfold configSetValue
  rw [first_append, Option.map_eq_none_iff.mp hnone]
  simp [first]

theorem configGet_set_ne (c : Config) {k k' : String} (v : String) (h : k' ≠ k) :
    configGet (configSetValue c k v) k' = configGet c k' := by
  have hremove := configGet_remove_ne c h
  unfold configGet at hremove ⊢
  unfold configSetValue
  rw [first_append]
  simpa [first, Ne.symm h] using hremove

theorem mem_configSetValue {c : Config} {k v : String} {p : String × String}
    (h : p ∈ configSetValue c k v) : p ∈ c ∨ p = (k, v) := by
  unfold configSetValue configRemoveKey at h
  rcases List.mem_append.mp h with hold | hnew
  · exact Or.inl (List.mem_of_mem_filter hold)
  · exact Or.inr (List.mem_singleton.mp hnew)

theorem mem_of_configGet {c : Config} {k v : String} (h : configGet c k = some v) :
    (k, v) ∈ c := by
  unfold configGet at h
  obtain ⟨p, hp, hv⟩ := Option.map_eq_some_iff.mp h
  have hk : p.1 = k := key_of_first hp
  have hmem := mem_of_first hp
  subst hk hv
  exact hmem

theorem configCreate_append (l l' : List (String × String)) :
    configCreate (l ++ l') = l'.foldl (fun c p => configSetValue c p.1 p.2) (configCreate l) := by
  unfold configCreate
  exact List.foldl_append ..

theorem configGet_create (l : List (String × String)) (k : String) :
    configGet (configCreate l) k = configGet l.reverse k := by
  induction l using List.reverseRecOn with
  | nil => rfl
  | append_singleton l p ih =>
    rw [configCreate_append, List.reverse_append]
    change configGet (configSetValue (configCreate l) p.1 p.2) k = configGet (p :: l.reverse) k
    by_cases hk : p.1 = k
    · subst hk
      rw [configGet_set_self]
      simp [configGet, first]
    · rw [configGet_set_ne _ _ (Ne.symm hk), ih]
      simp [configGet, first, hk]

/-- A value that was set is read back, and the other keys as before. -/
theorem configGet_create_set (c : Config) (k v k' : String) :
    configGet (configCreate (configSetValue c k v)) k' =
      if k' = k then some v else configGet (configCreate c) k' := by
  unfold configSetValue
  rw [configGet_create, configGet_create, List.reverse_append]
  split_ifs with hk
  · subst hk
    simp [configGet, first]
  · have hreverse : (configRemoveKey c k).reverse = configRemoveKey c.reverse k :=
      List.filter_reverse.symm
    rw [hreverse, ← configGet_remove_ne c.reverse hk]
    simp [configGet, first, Ne.symm hk]

theorem leerDigitos_toDigits (n : ℕ) : leerDigitos (Nat.toDigits 10 n) = n := by
  have htodos : (Nat.toDigits 10 n).takeWhile Char.isDigit = Nat.toDigits 10 n :=
    List.takeWhile_eq_self_iff.mpr fun c hc =>
      Nat.isDigit_of_mem_toDigits (by decide) (by decide) hc
  unfold leerDigitos
  rw [htodos, Nat.ofDigitChars_ten_toDigits]

/-- atoi reads a number just when an int holds it. -/
theorem atoi_eq_leerEntero_iff (s : String) : atoi s = leerEntero s ↔ EnInt (leerEntero s) := by
  unfold atoi strtol EnInt
  constructor
  · intro h
    have hle := Int.le_bmod (x := max (-2 ^ 63) (min (2 ^ 63 - 1) (leerEntero s)))
      (m := 2 ^ 32) (by decide)
    have hlt := Int.bmod_lt (x := max (-2 ^ 63) (min (2 ^ 63 - 1) (leerEntero s)))
      (m := 2 ^ 32) (by decide)
    omega
  · intro ⟨hle, hlt⟩
    rw [min_eq_right (by omega), max_eq_right (by omega)]
    exact Int.bmod_eq_of_le (by omega) (by omega)

/-- What is printed is read back. -/
theorem leerEntero_repr (n : ℤ) : leerEntero n.repr = n := by
  cases n with
  | negSucc n =>
    have htexto : (Int.negSucc n).repr.toList = '-' :: Nat.toDigits 10 (n + 1) := by
      simp [Int.repr, Nat.repr]
    unfold leerEntero
    rw [htexto, List.dropWhile_cons_of_neg (by decide)]
    simp only [leerDigitos_toDigits]
    rfl
  | ofNat n =>
    have htexto : (Int.ofNat n).repr.toList = Nat.toDigits 10 n := by
      simp [Int.repr, Nat.repr]
    obtain ⟨d, ds, hds⟩ := List.exists_cons_of_ne_nil (Nat.toDigits_ne_nil (b := 10) (n := n))
    have hd : d.isDigit := Nat.isDigit_of_mem_toDigits (b := 10) (n := n) (by decide) (by decide)
      (by rw [hds]; exact List.mem_cons_self ..)
    have hdigito : ∀ c : Char, ¬ c.isDigit → d ≠ c := by
      rintro c hc rfl
      exact hc hd
    have hespacio : ¬ esEspacio d = true := by
      simp only [esEspacio, Bool.or_eq_true, decide_eq_true_eq, not_or]
      exact ⟨⟨⟨⟨⟨hdigito _ (by decide), hdigito _ (by decide)⟩, hdigito _ (by decide)⟩,
        hdigito _ (by decide)⟩, hdigito _ (by decide)⟩, hdigito _ (by decide)⟩
    have hleer := leerDigitos_toDigits n
    unfold leerEntero
    rw [htexto]
    rw [hds] at hleer ⊢
    rw [List.dropWhile_cons_of_neg hespacio]
    split
    · next heq => exact absurd (List.cons.inj heq).1 (hdigito _ (by decide))
    · next heq => exact absurd (List.cons.inj heq).1 (hdigito _ (by decide))
    · exact congrArg Int.ofNat hleer

/-- What is printed of an int with %d is read back by atoi. -/
theorem atoi_repr {n : ℤ} (h : EnInt n) : atoi n.repr = n := by
  have hentero := leerEntero_repr n
  calc
    atoi n.repr = leerEntero n.repr := (atoi_eq_leerEntero_iff n.repr).mpr (by rwa [hentero])
    _ = n := hentero

end MasterOfFiles.ConfigText
