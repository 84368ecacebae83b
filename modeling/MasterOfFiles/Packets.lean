import Mathlib.Algebra.Ring.Nat
import MasterOfFiles.ByteStreams

/-!
The packets all programs exchange. A packet is an opcode, the size of its
buffer and the buffer, whose fields carry their own lengths. Receiving blocks
until the bytes asked for are there, so a stream is the list of the bytes still
to come, and what the sources do with bytes that never come is left undefined.
-/
namespace MasterOfFiles.Packets

open ByteBuffers ByteStreams

/-- The four bytes of an int or a uint32_t. -/
abbrev Entero := BitVec (8 * 4)

def bytesEntero (x : Entero) : Bytes := wordBytes 4 x

def enteroDe (b : Bytes) : Entero := wordOf 4 b

@[simp] theorem length_bytesEntero (x : Entero) : (bytesEntero x).length = 4 :=
  length_wordBytes 4 x

@[simp] theorem enteroDe_bytesEntero (x : Entero) : enteroDe (bytesEntero x) = x :=
  wordOf_wordBytes 4 x

@[simp] theorem take_bytesEntero (x : Entero) : (bytesEntero x).take 4 = bytesEntero x :=
  List.take_of_length_le (Nat.le_of_eq (length_bytesEntero x))

section Protocolo

def opMensaje : Entero := 0
def opEnviarPath : Entero := 1
def opDesalojarQuery : Entero := 301
def opQueryDesalojada : Entero := 302
def opReanudarQuery : Entero := 303
def opQueryDesconectada : Entero := 304
def opFinQuery : Entero := 500
def opRespReadOk : Entero := 1020
def opRespReadErr : Entero := 1021

end Protocolo

section Envio

structure Buffer where
  size : Entero
  stream : Bytes

structure Paquete where
  codigoOperacion : Entero
  buffer : Buffer

/-- The opcode is PAQUETE until the sender sets another. -/
def crearPaquete : Paquete := ⟨1, ⟨0, []⟩⟩

/-- `valor` is the bytes pointed to, as many as `tamanio` says. -/
def agregarAPaquete (paquete : Paquete) (valor : Bytes) : Paquete :=
  let tamanio : Entero := BitVec.ofNat _ valor.length
  { paquete with
    buffer := ⟨paquete.buffer.size + (tamanio + 4),
      paquete.buffer.stream ++ bytesEntero tamanio ++ valor⟩ }

def serializarPaquete (paquete : Paquete) : Bytes :=
  bytesEntero paquete.codigoOperacion ++ bytesEntero paquete.buffer.size ++
    paquete.buffer.stream.take paquete.buffer.size.toNat

/-- What every sender does: a new packet, its opcode, its fields one by one. -/
def armarPaquete (codigoOperacion : Entero) (campos : List Bytes) : Paquete :=
  campos.foldl agregarAPaquete { crearPaquete with codigoOperacion := codigoOperacion }

/-- The bytes enviar_paquete puts on the socket. -/
def enviarPaquete (codigoOperacion : Entero) (campos : List Bytes) : Bytes :=
  serializarPaquete (armarPaquete codigoOperacion campos)

end Envio

section Recepcion

def recibirOperacion : Reader Entero
  | [] => some (-1, [])
  | b => if 4 ≤ b.length then some (enteroDe (b.take 4), b.drop 4) else none

/-- A recv of an int whose result is not checked: no value when bytes are missing. -/
def recibirEntero (b : Bytes) : Option Entero × Bytes :=
  (if 4 ≤ b.length then some (enteroDe (b.take 4)) else none, b.drop 4)

/-- recibir_buffer; a size below zero asks malloc for more than there is. -/
def recibirBuffer : Reader Bytes := fun b =>
  match recibirEntero b with
  | (none, _) => none
  | (some size, b') =>
    if 0 ≤ size.toInt ∧ size.toInt ≤ b'.length then some (b'.take size.toNat, b'.drop size.toNat)
    else none

/-- The loop of recibir_paquete from an offset on; a field that is not all in the
buffer has no value. -/
def leerCampos (buffer : Bytes) : ℕ → ℕ → Option (List Bytes)
  | 0, _ => none
  | n + 1, desplazamiento =>
    if desplazamiento < buffer.length then
      match recibirEntero (buffer.drop desplazamiento) with
      | (none, _) => none
      | (some tamanio, _) =>
        if 0 ≤ tamanio.toInt ∧ desplazamiento + 4 + tamanio.toInt ≤ buffer.length then
          (leerCampos buffer n (desplazamiento + 4 + tamanio.toNat)).map
            (slice buffer (desplazamiento + 4) tamanio.toNat :: ·)
        else none
    else some []

def recibirPaquete : Reader (List Bytes) :=
  readThen recibirBuffer fun buffer b =>
    (leerCampos buffer (buffer.length + 1) 0).map fun campos => (campos, b)

/-- An opcode and the packet behind it. -/
def recibirMensaje : Reader (Entero × List Bytes) :=
  readThen recibirOperacion fun op => readThen recibirPaquete fun campos b => some ((op, campos), b)

end Recepcion

section IdaYVuelta

def bytesCampo (campo : Bytes) : Bytes :=
  bytesEntero (BitVec.ofNat _ campo.length) ++ campo

/-- The bytes the fields take in a buffer. -/
def largoCampos (campos : List Bytes) : ℕ := (campos.map fun campo => campo.length + 4).sum

theorem length_flatMap_bytesCampo (campos : List Bytes) :
    (campos.flatMap bytesCampo).length = largoCampos campos := by
  have hcampo : ∀ campo, (bytesCampo campo).length = campo.length + 4 := by
    intro campo
    rw [bytesCampo, List.length_append, length_bytesEntero, Nat.add_comm]
  rw [List.length_flatMap, largoCampos]
  simp only [hcampo]

theorem toNat_ofNat_of_lt {n : ℕ} (h : n < 2 ^ 31) : (BitVec.ofNat (8 * 4) n).toNat = n := by
  rw [BitVec.toNat_ofNat, Nat.mod_eq_of_lt (by omega)]

theorem toInt_ofNat_of_lt {n : ℕ} (h : n < 2 ^ 31) : (BitVec.ofNat (8 * 4) n).toInt = n := by
  have hnat := toNat_ofNat_of_lt h
  rw [BitVec.toInt_eq_toNat_of_lt (by omega), hnat]

theorem foldl_agregarAPaquete (campos : List Bytes) (op : Entero) (n : ℕ) (stream : Bytes) :
    campos.foldl agregarAPaquete ⟨op, ⟨BitVec.ofNat _ n, stream⟩⟩ =
      ⟨op, ⟨BitVec.ofNat _ (n + largoCampos campos), stream ++ campos.flatMap bytesCampo⟩⟩ := by
  induction campos generalizing n stream with
  | nil => simp [largoCampos]
  | cons campo campos ih =>
    have hsize : BitVec.ofNat (8 * 4) n + (BitVec.ofNat (8 * 4) campo.length + 4) =
        BitVec.ofNat (8 * 4) (n + (campo.length + 4)) := by
      rw [BitVec.ofNat_add, BitVec.ofNat_add]
      rfl
    have hpaquete : agregarAPaquete ⟨op, ⟨BitVec.ofNat _ n, stream⟩⟩ campo =
        ⟨op, ⟨BitVec.ofNat _ (n + (campo.length + 4)), stream ++ bytesCampo campo⟩⟩ := by
      unfold agregarAPaquete bytesCampo
      simp only [hsize, List.append_assoc]
    have hlargo : largoCampos (campo :: campos) = campo.length + 4 + largoCampos campos := by
      simp [largoCampos]
    rw [List.foldl_cons, hpaquete, ih, hlargo, Nat.add_assoc, List.flatMap_cons,
      List.append_assoc]

/-- What follows the opcode. -/
def cuerpoPaquete (campos : List Bytes) : Bytes :=
  bytesEntero (BitVec.ofNat _ (largoCampos campos)) ++ campos.flatMap bytesCampo

/-- A packet whose size is an int is sent whole. -/
theorem enviarPaquete_eq (op : Entero) {campos : List Bytes} (h : largoCampos campos < 2 ^ 31) :
    enviarPaquete op campos = bytesEntero op ++ cuerpoPaquete campos := by
  have harmar := foldl_agregarAPaquete campos op 0 []
  rw [Nat.zero_add, List.nil_append] at harmar
  have hpaquete : armarPaquete op campos =
      ⟨op, ⟨BitVec.ofNat _ (largoCampos campos), campos.flatMap bytesCampo⟩⟩ := harmar
  unfold enviarPaquete serializarPaquete cuerpoPaquete
  rw [hpaquete]
  simp only [toNat_ofNat_of_lt h]
  rw [← length_flatMap_bytesCampo, List.take_length, List.append_assoc]

theorem recibirEntero_append (x : Entero) (rest : Bytes) :
    recibirEntero (bytesEntero x ++ rest) = (some x, rest) := by
  have hlen := length_bytesEntero x
  unfold recibirEntero
  rw [if_pos (by simp), List.take_left' hlen, List.drop_left' hlen, enteroDe_bytesEntero]

theorem recibirOperacion_append (x : Entero) (rest : Bytes) :
    recibirOperacion (bytesEntero x ++ rest) = some (x, rest) := by
  have hlen := length_bytesEntero x
  obtain ⟨b, bs, hbs⟩ : ∃ b bs, bytesEntero x ++ rest = b :: bs := by
    refine List.exists_cons_of_length_pos ?_
    rw [List.length_append, hlen]
    omega
  have hpos : 4 ≤ (b :: bs).length := by
    rw [← hbs]
    simp
  rw [hbs, recibirOperacion, if_pos hpos, ← hbs, List.take_left' hlen, List.drop_left' hlen,
    enteroDe_bytesEntero]
  exact fun h => List.cons_ne_nil _ _ h

theorem recibirOperacion_enviarPaquete (op : Entero) {campos : List Bytes}
    (h : largoCampos campos < 2 ^ 31) (rest : Bytes) :
    recibirOperacion (enviarPaquete op campos ++ rest) =
      some (op, cuerpoPaquete campos ++ rest) := by
  rw [enviarPaquete_eq op h, List.append_assoc, recibirOperacion_append]

/-- The receiving loop, at the start of a field: every field left is found. -/
theorem leerCampos_append (campos : List Bytes) (antes : Bytes) {n : ℕ}
    (hn : campos.length < n) (h : largoCampos campos < 2 ^ 31) :
    leerCampos (antes ++ campos.flatMap bytesCampo) n antes.length = some campos := by
  induction campos generalizing antes n with
  | nil =>
    obtain ⟨n, rfl⟩ := Nat.exists_eq_add_one_of_ne_zero (show n ≠ 0 by omega)
    simp [leerCampos]
  | cons campo campos ih =>
    obtain ⟨n, rfl⟩ := Nat.exists_eq_add_one_of_ne_zero (show n ≠ 0 by omega)
    have hlargo : largoCampos (campo :: campos) = campo.length + 4 + largoCampos campos := by
      simp [largoCampos]
    have hcampo : campo.length < 2 ^ 31 := by omega
    have hbuffer : antes ++ (campo :: campos).flatMap bytesCampo =
        antes ++ (bytesEntero (BitVec.ofNat _ campo.length) ++
          (campo ++ campos.flatMap bytesCampo)) := by
      rw [List.flatMap_cons, bytesCampo, List.append_assoc]
    have hantes : (antes ++ bytesCampo campo).length = antes.length + 4 + campo.length := by
      simp [bytesCampo, Nat.add_assoc]
    have htail := ih (antes ++ bytesCampo campo) (n := n) (by simpa using hn) (by omega)
    have hlen : (antes ++ (campo :: campos).flatMap bytesCampo).length =
        antes.length + 4 + campo.length + largoCampos campos := by
      rw [List.length_append, length_flatMap_bytesCampo]
      omega
    have hslice : slice (antes ++ (campo :: campos).flatMap bytesCampo) (antes.length + 4)
        campo.length = campo := by
      unfold slice
      rw [hbuffer, ← List.append_assoc, List.drop_left' (by simp), List.take_left]
    unfold leerCampos
    rw [if_pos (by omega), hbuffer, List.drop_left, recibirEntero_append, ← hbuffer]
    simp only [toNat_ofNat_of_lt hcampo, toInt_ofNat_of_lt hcampo]
    rw [if_pos (by omega), hslice, ← hantes]
    rw [List.append_assoc, ← List.flatMap_cons] at htail
    rw [htail, Option.map_some]

theorem reads_recibirPaquete {campos : List Bytes} (h : largoCampos campos < 2 ^ 31) :
    Reads recibirPaquete (cuerpoPaquete campos) campos := by
  intro rest
  have hlargo := length_flatMap_bytesCampo campos
  have hbuffer : recibirBuffer (cuerpoPaquete campos ++ rest) =
      some (campos.flatMap bytesCampo, rest) := by
    unfold recibirBuffer cuerpoPaquete
    rw [List.append_assoc, recibirEntero_append]
    simp only [toNat_ofNat_of_lt h, toInt_ofNat_of_lt h]
    rw [if_pos (by rw [List.length_append, hlargo]; omega), List.take_left' hlargo,
      List.drop_left' hlargo]
  have hcampos := leerCampos_append campos [] (n := (campos.flatMap bytesCampo).length + 1)
    (by
      have hle : campos.length ≤ largoCampos campos := by
        have hsum := List.length_le_sum_of_one_le
          (campos.map fun campo => campo.length + 4) (by simp)
        simpa [largoCampos] using hsum
      omega) h
  unfold recibirPaquete readThen
  rw [hbuffer, Option.bind_some]
  rw [List.nil_append, List.length_nil] at hcampos
  simp only [hcampos, Option.map_some]

/-- A packet sent is received, opcode and fields. -/
theorem reads_recibirMensaje (op : Entero) {campos : List Bytes}
    (h : largoCampos campos < 2 ^ 31) :
    Reads recibirMensaje (enviarPaquete op campos) (op, campos) := by
  rw [enviarPaquete_eq op h]
  refine Reads.readThen (recibirOperacion_append op) ?_
  intro rest
  unfold readThen
  rw [reads_recibirPaquete h, Option.bind_some]

section Consumo

theorem length_recibirOperacion {b b' : Bytes} {op : Entero}
    (h : recibirOperacion b = some (op, b')) :
    b = [] ∧ op = -1 ∨ b'.length + 4 = b.length := by
  cases b with
  | nil =>
    obtain ⟨rfl, -⟩ := Prod.mk.inj (Option.some.inj h)
    exact Or.inl ⟨rfl, rfl⟩
  | cons x xs =>
    simp only [recibirOperacion] at h
    split_ifs at h with hlen
    obtain ⟨-, rfl⟩ := Prod.mk.inj (Option.some.inj h)
    refine Or.inr ?_
    rw [List.length_drop]
    omega

theorem length_recibirEntero_le {b b' : Bytes} {x : Option Entero}
    (h : recibirEntero b = (x, b')) : b'.length ≤ b.length := by
  obtain ⟨-, rfl⟩ := Prod.mk.inj h
  rw [List.length_drop]
  omega

theorem length_recibirPaquete_le {b b' : Bytes} {campos : List Bytes}
    (h : recibirPaquete b = some (campos, b')) : b'.length ≤ b.length := by
  obtain ⟨⟨buffer, resto⟩, hbuffer, hcampos⟩ := Option.bind_eq_some_iff.mp h
  obtain ⟨_, _, heq⟩ := Option.map_eq_some_iff.mp hcampos
  obtain ⟨-, rfl⟩ := Prod.mk.inj heq
  unfold recibirBuffer at hbuffer
  split at hbuffer
  · simp at hbuffer
  · next size b₁ hsize =>
    have hentero := length_recibirEntero_le hsize
    split_ifs at hbuffer
    obtain ⟨-, rfl⟩ := Prod.mk.inj (Option.some.inj hbuffer)
    rw [List.length_drop]
    omega

end Consumo

/-- Packets written one behind the other are received as they were sent, and
reading them leaves the stream where the last one ends. -/
theorem readMany_recibirMensaje (paquetes : List (Entero × List Bytes))
    (h : ∀ p ∈ paquetes, (p.2.map fun campo => campo.length + 4).sum < 2 ^ 31 - 8)
    (rest : Bytes) :
    readMany recibirMensaje paquetes.length
        (paquetes.flatMap (fun p => enviarPaquete p.1 p.2) ++ rest) = some (paquetes, rest) := by
  refine Reads.readMany (w := fun p : Entero × List Bytes => enviarPaquete p.1 p.2) ?_ rest
  intro p hp
  have hp' : largoCampos p.2 < 2 ^ 31 - 8 := h p hp
  exact reads_recibirMensaje p.1 (by omega)

/-- Two packets, one of them with a negative opcode and an empty field. -/
theorem readMany_recibirMensaje_dos :
    readMany recibirMensaje 2 (enviarPaquete (-5) [[7, 0], []] ++ enviarPaquete 1 []) =
      some ([(-5, [[7, 0], []]), (1, [])], []) := by
  have h := readMany_recibirMensaje [(-5, [[7, 0], []]), (1, [])] (by decide) []
  simpa using h

end IdaYVuelta

end MasterOfFiles.Packets
