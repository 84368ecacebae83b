import MasterOfFiles.NameResolution
import MasterOfFiles.QueryText
import MasterOfFiles.ReadReports

/-!
What becomes of the parts of an instruction. sscanf gives the four fields at most 31, 127,
127 and 255 bytes: what is left of a part that is too long begins the next field, and the
rest of the last is lost. Nothing is rejected for its length, so an instruction is only
respected if its parts fit, or if what the fields get does not pass the checks of its
own handler.
-/
namespace MasterOfFiles.InstructionFields

open ByteBuffers ConfigText QueryText
open ReadReports (letras)
open StorageMessages (texto)
open WorkerMemory (Ram Reloj Servidor)
open WorkerInstructions hiding Instruccion separarFileTag
open NameResolution (separarFileTag separarFileTag_texto separarFileTag_eq_none texto_injective
  toList_texto toNat_ofNat_byte)

variable {c a₁ a₂ r w rest : Bytes} {n blockSize : ℕ}

section Linea

/-- The four parts separated by single spaces, and a newline. -/
def linea (c a₁ a₂ r : Bytes) : Bytes := c ++ 32 :: (a₁ ++ 32 :: (a₂ ++ 32 :: (r ++ [10])))

/-- What stands behind the second argument in the clean line. -/
def cola (r : Bytes) : Bytes := if r = [] then [] else 32 :: r

/-- The line without the newline, nor the space in front of an empty remainder. -/
def limpia (c a₁ a₂ r : Bytes) : Bytes := c ++ 32 :: (a₁ ++ 32 :: (a₂ ++ cola r))

end Linea

section Conversiones

/-- What the second conversion of 127 bytes gets. -/
def segundo (a₁ a₂ : Bytes) : Bytes :=
  if a₁.length ≤ 127 then a₂.take 127 else (a₁.drop 127).take 127

end Conversiones

section Cabe

/-- Every part fits in its field, and the blanks that the last conversion skips are none
of the remainder's. -/
structure Cabe (c a₁ a₂ r : Bytes) : Prop where
  comando : c.length ≤ 31
  arg1 : a₁.length ≤ 127
  arg2 : a₂.length ≤ 127
  resto : r.length ≤ 255
  blancos : r.dropWhile esEspacioC = r

end Cabe

section Validaciones

/-- What an instruction goes on to do once its checks are passed. -/
inductive Ejecucion
  | create (fileTag : Bytes)
  | truncate (fileTag : Bytes) (tamanio : ℤ)
  | write (file tag : Bytes) (base : ℕ) (contenido : Bytes)
  | read (file tag : Bytes) (base tamanio : ℕ)
  | tag (origen destino : Bytes)
  | commit (file tag : Bytes)
  | flush (file tag : Bytes)
  | delete (file tag : Bytes)
  | fin
  deriving DecidableEq

/-- arg1[1] is NUL. -/
def validarCreate (inst : Instruccion) : Option Ejecucion :=
  if inst.arg1.length ≤ 1 then none else some (.create inst.arg1)

def validarTruncate (blockSize : ℕ) (inst : Instruccion) : Option Ejecucion :=
  if inst.arg1 = [] ∨ inst.arg2 = [] then none
  else
    let tamanio := atoi (texto inst.arg2)
    if Int.tmod tamanio blockSize ≠ 0 then none else some (.truncate inst.arg1 tamanio)

def validarWrite (inst : Instruccion) : Option Ejecucion :=
  match separarFileTag inst.arg1, parseSizeTSafe (texto inst.arg2) with
  | some (file, tag), some base =>
    if inst.arg3 = [] then none else some (.write file tag base inst.arg3)
  | _, _ => none

def validarRead (inst : Instruccion) : Option Ejecucion :=
  match separarFileTag inst.arg1, parseSizeTSafe (texto inst.arg2),
    parseSizeTSafe (texto inst.arg3) with
  | some (file, tag), some base, some tamanio => some (.read file tag base tamanio)
  | _, _, _ => none

def validarTag (inst : Instruccion) : Option Ejecucion :=
  if (separarFileTag inst.arg1).isNone ∨ (separarFileTag inst.arg2).isNone then none
  else some (.tag inst.arg1 inst.arg2)

/-- COMMIT, FLUSH and DELETE check their argument alike. -/
def validarFileTag (sigue : Bytes → Bytes → Ejecucion) (inst : Instruccion) : Option Ejecucion :=
  (separarFileTag inst.arg1).map fun p => sigue p.1 p.2

/-- ejecutar_instruccion up to where an instruction is rejected. -/
def validar (blockSize : ℕ) (inst : Instruccion) : Option Ejecucion :=
  if inst.comando = letras "CREATE" then validarCreate inst
  else if inst.comando = letras "TRUNCATE" then validarTruncate blockSize inst
  else if inst.comando = letras "WRITE" then validarWrite inst
  else if inst.comando = letras "READ" then validarRead inst
  else if inst.comando = letras "TAG" then validarTag inst
  else if inst.comando = letras "COMMIT" then validarFileTag .commit inst
  else if inst.comando = letras "FLUSH" then validarFileTag .flush inst
  else if inst.comando = letras "DELETE" then validarFileTag .delete inst
  else if inst.comando = letras "END" then some .fin
  else none

theorem isNone_separarFileTag (s : Bytes) : separarFileTag s = none ↔ 58 ∉ s := by
  constructor
  · intro h hs
    obtain ⟨file, tag, hfile, rfl⟩ := NameResolution.exists_unir_of_mem hs
    rw [NameResolution.separarFileTag_unir hfile] at h
    simp at h
  · intro hs
    exact (NameResolution.separarFileTag_eq_none hs).1

theorem validarWrite_eq_none_iff {inst : Instruccion} : validarWrite inst = none ↔
    58 ∉ inst.arg1 ∨ parseSizeTSafe (texto inst.arg2) = none ∨ inst.arg3 = [] := by
  rw [← isNone_separarFileTag]
  unfold validarWrite
  cases separarFileTag inst.arg1 with
  | none => simp
  | some p =>
    cases parseSizeTSafe (texto inst.arg2) with
    | none => simp
    | some base => simp

theorem validarRead_eq_none_iff {inst : Instruccion} : validarRead inst = none ↔
    58 ∉ inst.arg1 ∨ parseSizeTSafe (texto inst.arg2) = none ∨
      parseSizeTSafe (texto inst.arg3) = none := by
  rw [← isNone_separarFileTag]
  unfold validarRead
  cases separarFileTag inst.arg1 with
  | none => simp
  | some p =>
    cases parseSizeTSafe (texto inst.arg2) with
    | none => simp
    | some base => cases parseSizeTSafe (texto inst.arg3) <;> simp

theorem validarTag_eq_none_iff {inst : Instruccion} :
    validarTag inst = none ↔ 58 ∉ inst.arg1 ∨ 58 ∉ inst.arg2 := by
  rw [← isNone_separarFileTag, ← isNone_separarFileTag]
  unfold validarTag
  split_ifs with hno
  · simpa using hno
  · simpa using hno

theorem validarFileTag_eq_none_iff {sigue : Bytes → Bytes → Ejecucion} {inst : Instruccion} :
    validarFileTag sigue inst = none ↔ 58 ∉ inst.arg1 := by
  unfold validarFileTag
  rw [Option.map_eq_none_iff, isNone_separarFileTag]

theorem validarCreate_eq_none_iff {inst : Instruccion} :
    validarCreate inst = none ↔ inst.arg1.length ≤ 1 := by
  unfold validarCreate
  split_ifs with h
  · exact iff_of_true rfl h
  · exact iff_of_false (by simp) h

end Validaciones

section Rechazo

variable {σ : Type*} {ram : Ram} {reloj : Reloj} {srv : Servidor σ} {e : Proceso σ}
  {inst : Instruccion}

/-- The fields as the Worker keeps them. -/
def enTexto (inst : Instruccion) : WorkerInstructions.Instruccion :=
  ⟨texto inst.comando, texto inst.arg1, texto inst.arg2, texto inst.arg3⟩

theorem texto_eq_letras_iff {b : Bytes} {s : String} (hs : texto (letras s) = s) :
    texto b = s ↔ b = letras s := by
  conv_lhs => rw [← hs]
  exact texto_injective.eq_iff

theorem separarFileTag_texto_eq_none {b : Bytes} (h : 58 ∉ b) :
    WorkerInstructions.separarFileTag (texto b) = none := by
  rw [separarFileTag_texto, (separarFileTag_eq_none h).1, Option.map_none]

theorem utf8ByteSize_texto_le {b : Bytes} (hb : b.length ≤ 1) (h : ∀ x ∈ b, x < 128) :
    (texto b).utf8ByteSize ≤ 1 := by
  cases b with
  | nil => decide
  | cons x xs =>
    obtain rfl : xs = [] := List.eq_nil_of_length_eq_zero (by simpa using hb)
    have hsize : (Char.ofNat x.toNat).utf8Size = 1 := by
      rw [Char.utf8Size_eq_one_iff, UInt32.le_iff_toNat_le]
      have hlt := UInt8.lt_iff_toNat_lt.mp (h x (List.mem_singleton_self x))
      show (Char.ofNat x.toNat).toNat ≤ 127
      rw [toNat_ofNat_byte]
      exact Nat.le_of_lt_succ hlt
    have hsolo : texto [x] = String.singleton (Char.ofNat x.toNat) := by
      apply String.toList_inj.mp
      rw [toList_texto, String.toList_singleton]
      rfl
    rw [hsolo, String.utf8ByteSize_singleton, hsize]

theorem ejecutarWrite_rechaza (h : validarWrite inst = none) :
    ejecutarWrite ram reloj srv e (enTexto inst) = (e, false) := by
  refine ejecutarWrite_malFormado ?_
  refine (validarWrite_eq_none_iff.mp h).imp separarFileTag_texto_eq_none (Or.imp_right ?_)
  intro hvacio
  exact (congrArg texto hvacio).trans rfl

theorem ejecutarRead_rechaza (h : validarRead inst = none) :
    ejecutarRead ram reloj srv e (enTexto inst) = (e, false) := by
  refine ejecutarRead_malFormado ?_
  exact (validarRead_eq_none_iff.mp h).imp_left separarFileTag_texto_eq_none

theorem ejecutarTruncate_rechaza (h : validarTruncate ram.pageSize inst = none) :
    ejecutarTruncate ram srv e (enTexto inst) = (e, false) := by
  have hvacio : ∀ b, texto b = "" ↔ b = [] := fun b => texto_eq_letras_iff (s := "") rfl
  unfold ejecutarTruncate enTexto
  unfold validarTruncate at h
  simp only [hvacio] at h ⊢
  split_ifs at h ⊢ <;> rfl

theorem ejecutarTag_rechaza (h : validarTag inst = none) :
    ejecutarTag srv e (enTexto inst) = (e, false) := by
  have hno : (WorkerInstructions.separarFileTag (texto inst.arg1)).isNone ∨
      (WorkerInstructions.separarFileTag (texto inst.arg2)).isNone := by
    refine (validarTag_eq_none_iff.mp h).imp (fun h => ?_) fun h => ?_
    · rw [separarFileTag_texto_eq_none h]
      rfl
    · rw [separarFileTag_texto_eq_none h]
      rfl
  exact if_pos hno

/-- An instruction that is rejected changes neither the memory nor Storage. The argument
of a CREATE is ASCII here, whose characters have a byte each. -/
theorem ejecutarInstruccion_rechaza (h : validar ram.pageSize inst = none)
    (hascii : inst.comando = letras "CREATE" → ∀ x ∈ inst.arg1, x < 128) :
    ejecutarInstruccion ram reloj srv e (enTexto inst) = e := by
  have hcomando : ∀ {s}, texto (letras s) = s → ((enTexto inst).comando = s ↔
      inst.comando = letras s) := fun hs => texto_eq_letras_iff hs
  unfold ejecutarInstruccion
  unfold validar at h
  simp only [hcomando (s := "CREATE") (by decide), hcomando (s := "TRUNCATE") (by decide),
    hcomando (s := "WRITE") (by decide), hcomando (s := "READ") (by decide),
    hcomando (s := "TAG") (by decide), hcomando (s := "COMMIT") (by decide),
    hcomando (s := "FLUSH") (by decide), hcomando (s := "DELETE") (by decide)]
  by_cases hcreate : inst.comando = letras "CREATE"
  · rw [if_pos hcreate] at h ⊢
    have hcorto : (enTexto inst).arg1.utf8ByteSize ≤ 1 :=
      utf8ByteSize_texto_le (validarCreate_eq_none_iff.mp h) (hascii hcreate)
    unfold ejecutarCreate
    rw [if_pos hcorto]
  rw [if_neg hcreate] at h ⊢
  by_cases htruncate : inst.comando = letras "TRUNCATE"
  · rw [if_pos htruncate] at h ⊢
    rw [ejecutarTruncate_rechaza h]
  rw [if_neg htruncate] at h ⊢
  by_cases hwrite : inst.comando = letras "WRITE"
  · rw [if_pos hwrite] at h ⊢
    rw [ejecutarWrite_rechaza h]
  rw [if_neg hwrite] at h ⊢
  by_cases hread : inst.comando = letras "READ"
  · rw [if_pos hread] at h ⊢
    rw [ejecutarRead_rechaza h]
  rw [if_neg hread] at h ⊢
  by_cases htag : inst.comando = letras "TAG"
  · rw [if_pos htag] at h ⊢
    rw [ejecutarTag_rechaza h]
  rw [if_neg htag] at h ⊢
  by_cases hcommit : inst.comando = letras "COMMIT"
  · rw [if_pos hcommit] at h ⊢
    have hno := separarFileTag_texto_eq_none (validarFileTag_eq_none_iff.mp h)
    unfold ejecutarCommit enTexto
    simp only [hno]
  rw [if_neg hcommit] at h ⊢
  by_cases hflush : inst.comando = letras "FLUSH"
  · rw [if_pos hflush] at h ⊢
    have hno := separarFileTag_texto_eq_none (validarFileTag_eq_none_iff.mp h)
    unfold ejecutarFlush enTexto
    simp only [hno]
  rw [if_neg hflush] at h ⊢
  by_cases hdelete : inst.comando = letras "DELETE"
  · rw [if_pos hdelete] at h ⊢
    have hno := separarFileTag_texto_eq_none (validarFileTag_eq_none_iff.mp h)
    unfold ejecutarDelete enTexto
    simp only [hno]
  rw [if_neg hdelete]

end Rechazo

section Numeros

end Numeros

section Respeto

end Respeto

section Cortes

end Cortes

end MasterOfFiles.InstructionFields
