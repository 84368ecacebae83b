import Mathlib.Data.List.DropRight
import MasterOfFiles.ByteBuffers

/-!
The text of a Query: the lines getline cuts a file into, what is left of a line
without the blanks around it, and the four fields sscanf takes out of that. A line
is numbered from one, the way the program counter counts it, and one of which
nothing is left is no instruction.
-/
namespace MasterOfFiles.QueryText

open ByteBuffers

section Lineas

/-- The lines of a file, each with its newline; the last one may lack it. -/
def lineas : Bytes → List Bytes
  | [] => []
  | b :: bs =>
    if b = 10 then [b] :: lineas bs
    else match lineas bs with
    | [] => [[b]]
    | l :: ls => (b :: l) :: ls

theorem flatten_lineas (bs : Bytes) : (lineas bs).flatten = bs := by
  induction bs with
  | nil => rfl
  | cons b bs ih =>
    unfold lineas
    split_ifs with hb
    · rw [List.flatten_cons, ih]
      rfl
    · cases hls : lineas bs with
      | nil =>
        rw [hls] at ih
        rw [← ih]
        rfl
      | cons l ls =>
        rw [hls] at ih
        rw [← ih]
        rfl

end Lineas

section Instrucciones

/-- isspace in the C locale. -/
def esEspacioC (b : UInt8) : Bool := b = 32 || (9 ≤ b && b ≤ 13)

/-- Trailing newlines, returns and blanks go, and leading blanks. -/
def limpiarLinea (texto : Bytes) : Bytes :=
  (texto.rdropWhile fun b => b = 10 || b = 13 || b = 32 || b = 9).dropWhile
    fun b => b = 32 || b = 9

structure Instruccion where
  comando : Bytes
  arg1 : Bytes
  arg2 : Bytes
  arg3 : Bytes
  deriving DecidableEq

/-- A %ns conversion: at most `n` bytes, and what is left behind them. -/
def leerPalabra (n : ℕ) (texto : Bytes) : Option (Bytes × Bytes) :=
  let texto := texto.dropWhile esEspacioC
  let palabra := (texto.takeWhile fun b => !esEspacioC b).take n
  if palabra = [] then none else some (palabra, texto.drop palabra.length)

/-- The last conversion, of anything up to a newline, behind the blanks the format skips. -/
def leerResto (texto : Bytes) : Bytes :=
  ((texto.dropWhile esEspacioC).takeWhile (· ≠ 10)).take 255

/-- A conversion that fails leaves its field and those behind it empty. -/
def parsearInstruccion (linea : Bytes) : Instruccion :=
  match leerPalabra 31 linea with
  | none => ⟨[], [], [], []⟩
  | some (comando, r₁) => match leerPalabra 127 r₁ with
    | none => ⟨comando, [], [], []⟩
    | some (arg1, r₂) => match leerPalabra 127 r₂ with
      | none => ⟨comando, arg1, [], []⟩
      | some (arg2, r₃) => ⟨comando, arg1, arg2, leerResto r₃⟩

/-- What ciclo_instruccion looks at; strdup copies a line up to its first NUL. -/
def textoInstruccion (linea : Bytes) : Bytes := limpiarLinea (cString linea)

/-- The instructions among the lines, with their numbers from `pc` on. -/
def instrucciones (pc : ℕ) : List Bytes → List (ℕ × Bytes)
  | [] => []
  | l :: ls =>
    if textoInstruccion l = [] then instrucciones (pc + 1) ls
    else (pc, textoInstruccion l) :: instrucciones (pc + 1) ls

theorem instrucciones_cons (pc : ℕ) (l : Bytes) (ls : List Bytes) :
    instrucciones pc (l :: ls) =
      if textoInstruccion l = [] then instrucciones (pc + 1) ls
      else (pc, textoInstruccion l) :: instrucciones (pc + 1) ls := rfl

theorem le_of_mem_instrucciones {pc : ℕ} {ls : List Bytes} {x : ℕ × Bytes}
    (h : x ∈ instrucciones pc ls) : pc ≤ x.1 := by
  induction ls generalizing pc with
  | nil => exact absurd h List.not_mem_nil
  | cons l ls ih =>
    rw [instrucciones_cons] at h
    split_ifs at h with hl
    · exact (Nat.le_succ pc).trans (ih h)
    · rcases List.mem_cons.mp h with rfl | h
      · exact le_rfl
      · exact (Nat.le_succ pc).trans (ih h)

/-- The instructions of a file that are numbered from `pc` on. -/
def pendientes (contenido : Bytes) (pc : ℕ) : List (ℕ × Bytes) :=
  (instrucciones 1 (lineas contenido)).filter fun x => pc ≤ x.1

/-- Skipping lines is skipping the instructions with smaller numbers. -/
theorem filter_instrucciones (pc n : ℕ) (ls : List Bytes) :
    (instrucciones pc ls).filter (fun x => pc + n ≤ x.1) =
      instrucciones (pc + n) (ls.drop n) := by
  induction n generalizing pc ls with
  | zero =>
    rw [List.drop_zero]
    apply List.filter_eq_self.mpr
    exact fun x hx => decide_eq_true (le_of_mem_instrucciones hx)
  | succ n ih =>
    cases ls with
    | nil => rfl
    | cons l ls =>
      have htail := ih (pc + 1) ls
      rw [Nat.add_assoc, Nat.add_comm 1 n] at htail
      rw [List.drop_succ_cons, ← htail, instrucciones_cons]
      split_ifs with hl
      · rfl
      · apply List.filter_cons_of_neg
        simp

theorem pendientes_eq (contenido : Bytes) (pc : ℕ) :
    pendientes contenido pc =
      instrucciones (max pc 1) ((lineas contenido).drop (max pc 1 - 1)) := by
  have hmax : 1 + (max pc 1 - 1) = max pc 1 := Nat.add_sub_cancel' (le_max_right pc 1)
  have hskip := filter_instrucciones 1 (max pc 1 - 1) (lineas contenido)
  rw [hmax] at hskip
  rw [← hskip]
  apply List.filter_congr
  intro x hx
  have hx1 := le_of_mem_instrucciones hx
  simp only [Nat.max_le, hx1, and_true]

end Instrucciones

end MasterOfFiles.QueryText
