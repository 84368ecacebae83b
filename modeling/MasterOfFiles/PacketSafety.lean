import MasterOfFiles.Packets

/-!
recibir_paquete on any bytes. The loop takes the lengths it reads as they come and asks
of none whether the field is in the buffer. The memory around the buffer is arbitrary, so
that every read is seen where it falls. The loop stays inside the bytes received, and
ends, exactly when they are what agregar_a_paquete writes and all of them came.
-/
namespace MasterOfFiles.PacketSafety

open ByteBuffers ByteStreams Packets

variable {size : Entero} {recibidos : Bytes} {resto : ℤ → UInt8} {campos : List Bytes} {n : ℕ}

section Memoria

/-- The memory, with the buffer at address 0. -/
def memoriaCon (recibidos : Bytes) (resto : ℤ → UInt8) (dir : ℤ) : UInt8 :=
  if 0 ≤ dir then recibidos.getD dir.toNat (resto dir) else resto dir

def leer (mem : ℤ → UInt8) (dir : ℤ) (n : ℕ) : Bytes :=
  (List.range n).map fun i : ℕ => mem (dir + i)

/-- A read falls inside the bytes received. -/
def Dentro (recibidos : Bytes) (dir : ℤ) (n : ℕ) : Prop :=
  0 ≤ dir ∧ dir + n ≤ recibidos.length

instance (recibidos : Bytes) (dir : ℤ) (n : ℕ) : Decidable (Dentro recibidos dir n) :=
  inferInstanceAs (Decidable (_ ∧ _))

theorem leer_memoriaCon {off : ℕ} (h : off + n ≤ recibidos.length) :
    leer (memoriaCon recibidos resto) off n = slice recibidos off n := by
  apply List.ext_getElem?
  intro i
  rw [getElem?_slice]
  unfold leer
  rw [List.getElem?_map]
  split_ifs with hi
  · have hlt : off + i < recibidos.length := by omega
    have hdir : ((off : ℤ) + i).toNat = off + i := by omega
    rw [List.getElem?_range hi, Option.map_some]
    unfold memoriaCon
    rw [if_pos (by omega), hdir, List.getD_eq_getElem?_getD, List.getElem?_eq_getElem hlt,
      Option.getD_some]
  · rw [List.getElem?_eq_none (by rw [List.length_range]; omega), Option.map_none]

end Memoria

section Bucle

variable (size : Entero) (mem : ℤ → UInt8)

structure Recepcion where
  desplazamiento : Entero
  valores : List Bytes

/-- The prefix the loop reads. -/
def tamanioEn (r : Recepcion) : Entero := enteroDe (leer mem r.desplazamiento.toInt 4)

/-- How many bytes malloc and memcpy, which take a size_t, understand. -/
def tamanioCopia (tamanio : Entero) : ℕ := (tamanio.signExtend 64).toNat

/-- One round. -/
def recibirCampo (r : Recepcion) : Recepcion :=
  let tamanio := tamanioEn mem r
  let desplazamiento := r.desplazamiento + 4
  let valor := leer mem desplazamiento.toInt (tamanioCopia tamanio)
  ⟨desplazamiento + tamanio, r.valores ++ [valor]⟩

/-- The state in front of round `n`, if the loop gets there. -/
def vueltas : ℕ → Option Recepcion
  | 0 => some ⟨0, []⟩
  | n + 1 => (vueltas n).bind fun r =>
    if r.desplazamiento.toInt < size.toInt then some (recibirCampo mem r) else none

/-- The state is one the loop goes on from. -/
def EnVuelta (r : Recepcion) : Prop :=
  (∃ n, vueltas size mem n = some r) ∧ r.desplazamiento.toInt < size.toInt

def Devuelve (valores : List Bytes) : Prop :=
  ∃ n r, vueltas size mem n = some r ∧ size.toInt ≤ r.desplazamiento.toInt ∧ r.valores = valores

/-- The bytes of the buffer that agregar_a_paquete makes of some fields. -/
def codificar (campos : List Bytes) : Bytes :=
  (campos.foldl agregarAPaquete crearPaquete).buffer.stream

end Bucle

/-- What a receiver asks of recibir_paquete, with `size` bytes announced. -/
structure RecepcionSegura (size : Entero) (recibidos : Bytes) (resto : ℤ → UInt8) : Prop where
  termina : ∃ valores, Devuelve size (memoriaCon recibidos resto) valores
  prefijo : ∀ r, EnVuelta size (memoriaCon recibidos resto) r →
    Dentro recibidos r.desplazamiento.toInt 4
  campo : ∀ r, EnVuelta size (memoriaCon recibidos resto) r →
    Dentro recibidos (r.desplazamiento + 4).toInt
      (tamanioCopia (tamanioEn (memoriaCon recibidos resto) r))
  positivo : ∀ r, EnVuelta size (memoriaCon recibidos resto) r →
    0 ≤ (tamanioEn (memoriaCon recibidos resto) r).toInt
  recodifica : ∀ valores, Devuelve size (memoriaCon recibidos resto) valores →
    codificar valores = recibidos
  soloCodificados : (∀ campos, codificar campos ≠ recibidos) →
    ∀ valores, ¬ Devuelve size (memoriaCon recibidos resto) valores

section Enteros

theorem toInt_add_of_lt {x y : Entero} (hx : 0 ≤ x.toInt) (hy : 0 ≤ y.toInt)
    (h : x.toInt + y.toInt < 2 ^ 31) : (x + y).toInt = x.toInt + y.toInt := by
  rw [BitVec.toInt_add, Int.bmod_eq_of_le (by omega) (by omega)]

theorem toInt_cuatro : (4 : Entero).toInt = 4 := by decide

theorem tamanioCopia_eq {x : Entero} (hx : 0 ≤ x.toInt) : (tamanioCopia x : ℤ) = x.toInt := by
  have hsigno : (x.signExtend 64).toInt = x.toInt := BitVec.toInt_signExtend_of_le (by omega)
  have hlt : 2 * (x.signExtend 64).toNat < 2 ^ 64 := by
    by_contra hno
    rw [BitVec.toInt_eq_toNat_cond, if_neg hno] at hsigno
    have := (x.signExtend 64).isLt
    omega
  unfold tamanioCopia
  rw [← hsigno, BitVec.toInt_eq_toNat_cond, if_pos hlt]

theorem toNat_of_toInt_nonneg {x : Entero} (hx : 0 ≤ x.toInt) : (x.toNat : ℤ) = x.toInt := by
  have hlt := x.isLt
  rw [BitVec.toInt_eq_toNat_cond] at hx ⊢
  split_ifs at hx ⊢ <;> omega

end Enteros

section Codificacion

theorem codificar_eq (campos : List Bytes) : codificar campos = campos.flatMap bytesCampo :=
  congrArg (fun p : Paquete => p.buffer.stream) (foldl_agregarAPaquete campos 1 0 [])

theorem length_codificar (campos : List Bytes) :
    (codificar campos).length = largoCampos campos := by
  rw [codificar_eq, length_flatMap_bytesCampo]

theorem codificar_append (xs ys : List Bytes) :
    codificar (xs ++ ys) = codificar xs ++ codificar ys := by
  rw [codificar_eq, codificar_eq, codificar_eq, List.flatMap_append]

theorem length_codificar_campo (antes despues : List Bytes) (campo : Bytes) :
    (codificar (antes ++ campo :: despues)).length =
      (codificar antes).length + 4 + campo.length + (codificar despues).length := by
  rw [codificar_append, List.length_append, length_codificar (campo :: despues),
    length_codificar despues, largoCampos, List.map_cons, List.sum_cons, ← largoCampos]
  omega

end Codificacion

section Ida

/-- A round at the start of a field takes the field. -/
theorem recibirCampo_codificar (resto : ℤ → UInt8) (antes despues : List Bytes) (campo : Bytes)
    (h : (codificar (antes ++ campo :: despues)).length < 2 ^ 31) {r : Recepcion}
    (hr : r = ⟨BitVec.ofNat _ (codificar antes).length, antes⟩) :
    r.desplazamiento.toInt = (codificar antes).length ∧
      (r.desplazamiento + 4).toInt = (codificar antes).length + 4 ∧
      tamanioEn (memoriaCon (codificar (antes ++ campo :: despues)) resto) r =
        BitVec.ofNat _ campo.length ∧
      recibirCampo (memoriaCon (codificar (antes ++ campo :: despues)) resto) r =
        ⟨BitVec.ofNat _ (codificar (antes ++ [campo])).length, antes ++ [campo]⟩ := by
  have hbuffer : codificar (antes ++ campo :: despues) =
      codificar antes ++ (bytesEntero (BitVec.ofNat _ campo.length) ++
        (campo ++ codificar despues)) := by
    rw [codificar_append, codificar_eq (campo :: despues), List.flatMap_cons, bytesCampo,
      List.append_assoc, ← codificar_eq]
  have hlength := length_codificar_campo antes despues campo
  have hsig := length_codificar_campo antes [] campo
  rw [show (codificar []).length = 0 from rfl, Nat.add_zero] at hsig
  have hdesplaz : r.desplazamiento.toInt = (codificar antes).length := by
    rw [hr]
    exact toInt_ofNat_of_lt (by omega)
  have hcuatro : (r.desplazamiento + 4).toInt = (codificar antes).length + 4 := by
    have hrango : r.desplazamiento.toInt + (4 : Entero).toInt < 2 ^ 31 := by
      rw [toInt_cuatro]
      omega
    rw [toInt_add_of_lt (by omega) (by decide) hrango, toInt_cuatro, hdesplaz]
  have htamanio : tamanioEn (memoriaCon (codificar (antes ++ campo :: despues)) resto) r =
      BitVec.ofNat _ campo.length := by
    unfold tamanioEn
    rw [hdesplaz, leer_memoriaCon (by omega)]
    unfold slice
    rw [hbuffer, List.drop_left, List.take_left' (length_bytesEntero _), enteroDe_bytesEntero]
  refine ⟨hdesplaz, hcuatro, htamanio, ?_⟩
  have hcopia : tamanioCopia (BitVec.ofNat _ campo.length) = campo.length := by
    have hcampo := toInt_ofNat_of_lt (n := campo.length) (by omega)
    have heq := tamanioCopia_eq (x := BitVec.ofNat _ campo.length) (by omega)
    omega
  have hvalor : leer (memoriaCon (codificar (antes ++ campo :: despues)) resto)
      (r.desplazamiento + 4).toInt campo.length = campo := by
    have hdir : (r.desplazamiento + 4).toInt = (((codificar antes).length + 4 : ℕ) : ℤ) := by
      rw [hcuatro]
      rfl
    rw [hdir, leer_memoriaCon (by omega)]
    unfold slice
    rw [hbuffer, ← List.append_assoc, List.drop_left' (by simp), List.take_left]
  unfold recibirCampo
  simp only [htamanio, hcopia, hvalor]
  rw [hr, hsig, BitVec.ofNat_add, BitVec.ofNat_add]
  rfl

/-- In front of round `n` the loop has the first `n` fields. -/
theorem vueltas_codificar (hsize : (codificar campos).length = size.toInt) (resto : ℤ → UInt8)
    (hn : n ≤ campos.length) :
    vueltas size (memoriaCon (codificar campos) resto) n =
      some ⟨BitVec.ofNat _ (codificar (campos.take n)).length, campos.take n⟩ := by
  have hrango := BitVec.toInt_lt (x := size)
  induction n with
  | zero => rfl
  | succ n ih =>
    have hpartes : campos = campos.take n ++ campos[n] :: campos.drop (n + 1) := by
      rw [← List.drop_eq_getElem_cons, List.take_append_drop]
    have hlargo : (codificar campos).length = (codificar (campos.take n)).length +
        (codificar (campos[n] :: campos.drop (n + 1))).length := by
      conv_lhs => rw [hpartes, codificar_append, List.length_append]
    have hpos : 0 < (codificar (campos[n] :: campos.drop (n + 1))).length := by
      rw [length_codificar, largoCampos, List.map_cons, List.sum_cons]
      omega
    obtain ⟨hdesplaz, _, _, hcampo⟩ := recibirCampo_codificar resto (campos.take n)
      (campos.drop (n + 1)) campos[n] (by rw [← hpartes]; omega) rfl
    rw [← hpartes, ← List.take_succ_eq_append_getElem hn] at hcampo
    unfold vueltas
    rw [ih (by omega), Option.bind_some, if_pos (by omega), hcampo]

/-- The loop makes as many rounds as there are fields. -/
theorem le_length_of_vueltas (hsize : (codificar campos).length = size.toInt) {r : Recepcion}
    (hr : vueltas size (memoriaCon (codificar campos) resto) n = some r) :
    n ≤ campos.length := by
  have hfin : ∀ m, vueltas size (memoriaCon (codificar campos) resto)
      (campos.length + 1 + m) = none := by
    have hrango := BitVec.toInt_lt (x := size)
    intro m
    induction m with
    | zero =>
      have hultima := vueltas_codificar hsize resto (le_refl _)
      rw [List.take_length] at hultima
      rw [Nat.add_zero, vueltas, hultima, Option.bind_some, if_neg]
      simp only
      rw [toInt_ofNat_of_lt (by omega)]
      omega
    | succ m ih =>
      show (vueltas size _ (campos.length + 1 + m)).bind _ = none
      rw [ih, Option.bind_none]
  by_contra hno
  obtain ⟨m, rfl⟩ := Nat.exists_eq_add_of_le (show campos.length + 1 ≤ n by omega)
  rw [hfin] at hr
  simp at hr

theorem devuelve_codificar_iff (hsize : (codificar campos).length = size.toInt)
    {valores : List Bytes} :
    Devuelve size (memoriaCon (codificar campos) resto) valores ↔ valores = campos := by
  have hrango := BitVec.toInt_lt (x := size)
  have hultima := vueltas_codificar hsize resto (le_refl _)
  rw [List.take_length] at hultima
  constructor
  · intro hdevuelve
    obtain ⟨n, r, hr, hfin, rfl⟩ := hdevuelve
    have hn := le_length_of_vueltas hsize hr
    have hlargo : (codificar campos).length =
        (codificar (campos.take n)).length + (codificar (campos.drop n)).length := by
      conv_lhs => rw [← List.take_append_drop n campos, codificar_append, List.length_append]
    have hcero : (codificar (campos.drop n)).length = 0 := by
      rw [vueltas_codificar hsize resto hn] at hr
      obtain rfl := Option.some.inj hr
      rw [toInt_ofNat_of_lt (by omega)] at hfin
      omega
    have hvacia : campos.drop n = [] := by
      rw [length_codificar] at hcero
      cases hdrop : campos.drop n with
      | nil => rfl
      | cons campo campos =>
        rw [hdrop, largoCampos, List.map_cons, List.sum_cons] at hcero
        omega
    have heq : n = campos.length := le_antisymm hn (List.drop_eq_nil_iff.mp hvacia)
    rw [heq, hultima] at hr
    rw [← Option.some.inj hr]
  · intro heq
    rw [heq]
    refine ⟨_, _, hultima, ?_, rfl⟩
    rw [toInt_ofNat_of_lt (by omega)]
    omega

theorem recepcionSegura_codificar (hsize : (codificar campos).length = size.toInt)
    (resto : ℤ → UInt8) : RecepcionSegura size (codificar campos) resto := by
  have hrango := BitVec.toInt_lt (x := size)
  have hvuelta : ∀ r, EnVuelta size (memoriaCon (codificar campos) resto) r →
      ∃ antes campo despues, campos = antes ++ campo :: despues ∧
        r = ⟨BitVec.ofNat _ (codificar antes).length, antes⟩ := by
    intro r hr
    obtain ⟨⟨n, hn⟩, hsigue⟩ := hr
    have hle := le_length_of_vueltas hsize hn
    have hstate := Option.some.inj (hn.symm.trans (vueltas_codificar hsize resto hle))
    rcases Nat.lt_or_ge n campos.length with hlt | hge
    · refine ⟨campos.take n, campos[n], campos.drop (n + 1), ?_, hstate⟩
      rw [← List.drop_eq_getElem_cons, List.take_append_drop]
    · rw [hstate, List.take_of_length_le hge, toInt_ofNat_of_lt (by omega)] at hsigue
      omega
  refine ⟨⟨campos, (devuelve_codificar_iff hsize).mpr rfl⟩, ?_, ?_, ?_, ?_, ?_⟩
  · intro r hr
    obtain ⟨antes, campo, despues, rfl, heq⟩ := hvuelta r hr
    have hlength := length_codificar_campo antes despues campo
    obtain ⟨hdesplaz, _, _, _⟩ := recibirCampo_codificar resto antes despues campo
      (by omega) heq
    unfold Dentro
    omega
  · intro r hr
    obtain ⟨antes, campo, despues, rfl, heq⟩ := hvuelta r hr
    have hlength := length_codificar_campo antes despues campo
    obtain ⟨_, hcuatro, htamanio, _⟩ := recibirCampo_codificar resto antes despues campo
      (by omega) heq
    have hcampo := toInt_ofNat_of_lt (n := campo.length) (by omega)
    have hcopia := tamanioCopia_eq (x := BitVec.ofNat _ campo.length) (by omega)
    rw [htamanio]
    unfold Dentro
    omega
  · intro r hr
    obtain ⟨antes, campo, despues, rfl, heq⟩ := hvuelta r hr
    have hlength := length_codificar_campo antes despues campo
    obtain ⟨_, _, htamanio, _⟩ := recibirCampo_codificar resto antes despues campo
      (by omega) heq
    rw [htamanio, toInt_ofNat_of_lt (by omega)]
    omega
  · intro valores hvalores
    rw [(devuelve_codificar_iff hsize).mp hvalores]
  · intro hninguna
    exact absurd rfl (hninguna campos)

end Ida

section Vuelta

/-- While the reads are inside, so is the offset. -/
theorem RecepcionSegura.desplazamiento_le (h : RecepcionSegura size recibidos resto)
    (hrecibidos : recibidos.length ≤ size.toInt) {r : Recepcion}
    (hr : vueltas size (memoriaCon recibidos resto) n = some r) :
    0 ≤ r.desplazamiento.toInt ∧ r.desplazamiento.toInt ≤ recibidos.length := by
  have hrango := BitVec.toInt_lt (x := size)
  induction n generalizing r with
  | zero =>
    obtain rfl := Option.some.inj hr
    exact ⟨by decide, Int.natCast_nonneg _⟩
  | succ n ih =>
    obtain ⟨r₀, hr₀, hpaso⟩ := Option.bind_eq_some_iff.mp hr
    split_ifs at hpaso with hsigue
    obtain rfl := Option.some.inj hpaso
    have hvuelta : EnVuelta size (memoriaCon recibidos resto) r₀ := ⟨⟨n, hr₀⟩, hsigue⟩
    have hpositivo := h.positivo r₀ hvuelta
    have hcopia := tamanioCopia_eq hpositivo
    obtain ⟨_, hprefijo⟩ := h.prefijo r₀ hvuelta
    obtain ⟨hcuatro, hcampo⟩ := h.campo r₀ hvuelta
    show 0 ≤ (r₀.desplazamiento + 4 + tamanioEn (memoriaCon recibidos resto) r₀).toInt ∧
      (r₀.desplazamiento + 4 + tamanioEn (memoriaCon recibidos resto) r₀).toInt ≤ recibidos.length
    rw [toInt_add_of_lt hcuatro hpositivo (by omega)]
    omega

/-- recibir_paquete does what a receiver asks of it exactly on the bytes of
agregar_a_paquete, all of them received. -/
theorem recepcionSegura_iff (hrecibidos : recibidos.length ≤ size.toInt) (resto : ℤ → UInt8) :
    RecepcionSegura size recibidos resto ↔
      recibidos.length = size.toInt ∧ ∃ campos, codificar campos = recibidos := by
  constructor
  · intro h
    obtain ⟨valores, hvalores⟩ := h.termina
    refine ⟨?_, valores, h.recodifica valores hvalores⟩
    obtain ⟨n, r, hr, hfin, _⟩ := hvalores
    have hle := (h.desplazamiento_le hrecibidos hr).2
    omega
  · intro h
    obtain ⟨hsize, campos, rfl⟩ := h
    exact recepcionSegura_codificar hsize resto

/-- A buffer with the fields "a" and "". -/
theorem recepcionSegura_iff_dos : RecepcionSegura 9 [1, 0, 0, 0, 97, 0, 0, 0, 0] (fun _ => 7) ↔
    (([1, 0, 0, 0, 97, 0, 0, 0, 0] : Bytes).length : ℤ) = (9 : Entero).toInt ∧
      ∃ campos, codificar campos = [1, 0, 0, 0, 97, 0, 0, 0, 0] :=
  recepcionSegura_iff (by decide) fun _ => 7

/-- A field of five bytes is announced and none comes. -/
theorem not_recepcionSegura : ¬ ∀ (size : Entero) (recibidos : Bytes) (resto : ℤ → UInt8),
    recibidos.length = size.toInt → RecepcionSegura size recibidos resto := by
  intro h
  have hcampo := (h 4 [5, 0, 0, 0] (fun _ => 0) (by decide)).campo ⟨0, []⟩
    ⟨⟨0, rfl⟩, by decide⟩
  revert hcampo
  decide

theorem codificar_of_leerCampos {d : ℕ} (hd : d ≤ recibidos.length)
    (h : leerCampos recibidos n d = some campos) : codificar campos = recibidos.drop d := by
  induction n generalizing d campos with
  | zero => simp [leerCampos] at h
  | succ n ih =>
    unfold leerCampos at h
    split_ifs at h with hsigue
    · unfold recibirEntero at h
      split_ifs at h with hprefijo
      simp only at h
      rw [List.length_drop] at hprefijo
      split_ifs at h with hcampo
      obtain ⟨campos', hcampos', rfl⟩ := Option.map_eq_some_iff.mp h
      have htamanio := toNat_of_toInt_nonneg hcampo.1
      have hfin : d + 4 + (enteroDe ((recibidos.drop d).take 4)).toNat ≤ recibidos.length := by
        omega
      have hprefijo' : bytesEntero (enteroDe ((recibidos.drop d).take 4)) =
          (recibidos.drop d).take 4 :=
        wordBytes_wordOf (by rw [List.length_take, List.length_drop]; omega)
      rw [codificar_eq, List.flatMap_cons, ← codificar_eq, ih hfin hcampos', bytesCampo,
        length_slice _ _ _ hfin, BitVec.ofNat_toNat, BitVec.setWidth_eq, hprefijo']
      rw [List.append_assoc, slice_append_drop, ← List.drop_drop, List.take_append_drop]
    · obtain rfl := Option.some.inj h
      rw [List.drop_eq_nil_of_le (by omega)]
      rfl

/-- The loop as a reader gives fields for the same bytes and no others. -/
theorem leerCampos_eq_some_iff (hrecibidos : recibidos.length < 2 ^ 31) :
    leerCampos recibidos (recibidos.length + 1) 0 = some campos ↔
      codificar campos = recibidos := by
  constructor
  · intro h
    exact codificar_of_leerCampos (Nat.zero_le _) h
  · intro h
    have hlargo := length_codificar campos
    have hle : campos.length ≤ largoCampos campos := by
      have hsum := List.length_le_sum_of_one_le
        (campos.map fun campo => campo.length + 4) (by simp)
      simpa [largoCampos] using hsum
    have hbytes := leerCampos_append campos [] (n := recibidos.length + 1)
      (by rw [← h]; omega) (by rw [← hlargo, h]; exact hrecibidos)
    rw [List.nil_append, ← codificar_eq, h] at hbytes
    exact hbytes

end Vuelta

end MasterOfFiles.PacketSafety
