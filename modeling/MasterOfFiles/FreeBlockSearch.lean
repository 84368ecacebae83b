import MasterOfFiles.ReachableStates

/-!
The search for a free block in the mapped bytes of bitmap.bin. The file has whole
bytes and the search goes over all their bits, lowest first in each byte, so where
the number of blocks is no multiple of 8 it goes on behind the last block.
-/
namespace MasterOfFiles.FreeBlockSearch

open ByteBuffers StorageState

variable {sb : Superbloque}

/-- bitarray_test_bit of a LSB_FIRST bitarray. -/
def bitarrayTestBit (direccion : Bytes) (n : ℕ) : Bool :=
  (direccion[n / 8]?.getD 0).toBitVec.getLsbD (n % 8)

/-- bitarray_set_bit. -/
def bitarraySetBit (direccion : Bytes) (n : ℕ) : Bytes :=
  direccion.modify (n / 8) fun byte => ⟨byte.toBitVec ||| BitVec.twoPow 8 (n % 8)⟩

/-- bitarray_clean_bit. -/
def bitarrayCleanBit (direccion : Bytes) (n : ℕ) : Bytes :=
  direccion.modify (n / 8) fun byte => ⟨byte.toBitVec &&& ~~~BitVec.twoPow 8 (n % 8)⟩

/-- t_bitmap: the bytes mapped for the blocks of the superblock. -/
structure Bitmap (sb : Superbloque) where
  direccion : Bytes
  tamanio : direccion.length = (cantBlock sb + 7) / 8

namespace Bitmap

def crearBitmapVacio (sb : Superbloque) : Bitmap sb :=
  ⟨List.replicate ((cantBlock sb + 7) / 8) 0, List.length_replicate⟩

/-- ftruncate cuts a longer file and fills a shorter one with zeros. -/
def abrirBitmap (sb : Superbloque) (archivo : Bytes) : Bitmap sb :=
  ⟨(archivo ++ List.replicate ((cantBlock sb + 7) / 8) 0).take ((cantBlock sb + 7) / 8), by
    rw [List.length_take, List.length_append, List.length_replicate]
    omega⟩

def bitmapMarcarBloqueOcupado (bitmap : Bitmap sb) (n : ℕ) : Bitmap sb :=
  ⟨bitarraySetBit bitmap.direccion n, by
    rw [bitarraySetBit, List.length_modify, bitmap.tamanio]⟩

def bitmapMarcarBloqueLibre (bitmap : Bitmap sb) (n : ℕ) : Bitmap sb :=
  ⟨bitarrayCleanBit bitmap.direccion n, by
    rw [bitarrayCleanBit, List.length_modify, bitmap.tamanio]⟩

def bitmapEncontrarBloqueLibre (bitmap : Bitmap sb) : Option ℕ :=
  (List.range (bitmap.direccion.length * 8)).find? fun posicion =>
    !bitarrayTestBit bitmap.direccion posicion

/-- The bits in the order of the search. -/
def bits (bitmap : Bitmap sb) : List Bool :=
  (List.range (bitmap.direccion.length * 8)).map (bitarrayTestBit bitmap.direccion)

/-- A bit of the file that is 0. -/
def Libre (bitmap : Bitmap sb) (n : ℕ) : Prop :=
  n < bitmap.direccion.length * 8 ∧ bitarrayTestBit bitmap.direccion n = false

end Bitmap

section Bits

theorem length_bits (bitmap : Bitmap sb) : bitmap.bits.length = (cantBlock sb + 7) / 8 * 8 := by
  unfold Bitmap.bits
  rw [List.length_map, List.length_range, bitmap.tamanio]

theorem getElem?_bits (bitmap : Bitmap sb) (n : ℕ) :
    bitmap.bits[n]? =
      if n < bitmap.direccion.length * 8 then some (bitarrayTestBit bitmap.direccion n)
      else none := by
  unfold Bitmap.bits
  rw [List.getElem?_map]
  split_ifs with hn
  · rw [List.getElem?_range hn, Option.map_some]
  · rw [List.getElem?_eq_none (by rw [List.length_range]; omega), Option.map_none]

/-- Only the byte of the bit is changed, and in it only the bit. -/
theorem testBit_modify (direccion : Bytes) {n m : ℕ} (g : UInt8 → UInt8) (valor : Bool)
    (hn : n < direccion.length * 8)
    (hg : ∀ byte k, k < 8 → (g byte).toBitVec.getLsbD k =
      if k = n % 8 then valor else byte.toBitVec.getLsbD k) :
    bitarrayTestBit (direccion.modify (n / 8) g) m =
      if m = n then valor else bitarrayTestBit direccion m := by
  unfold bitarrayTestBit
  rw [List.getElem?_modify]
  by_cases hbyte : n / 8 = m / 8
  · have hlt : m / 8 < direccion.length := by omega
    have hbit : m % 8 = n % 8 ↔ m = n := by omega
    rw [List.getElem?_eq_getElem hlt, Option.map_eq_map, Option.map_some, Option.getD_some,
      Option.getD_some, if_pos hbyte, hg _ _ (Nat.mod_lt _ (by decide))]
    simp only [hbit]
  · have hne : m ≠ n := by
      rintro rfl
      exact hbyte rfl
    rw [if_neg hne]
    simp [hbyte]

theorem testBit_setBit (direccion : Bytes) {n m : ℕ} (hn : n < direccion.length * 8) :
    bitarrayTestBit (bitarraySetBit direccion n) m =
      if m = n then true else bitarrayTestBit direccion m := by
  refine testBit_modify direccion _ true hn fun byte k hk => ?_
  rw [BitVec.getLsbD_or, BitVec.getLsbD_twoPow]
  by_cases hkn : k = n % 8
  · simp [hkn, Nat.mod_lt]
  · simp [hkn, Ne.symm hkn]

theorem testBit_cleanBit (direccion : Bytes) {n m : ℕ} (hn : n < direccion.length * 8) :
    bitarrayTestBit (bitarrayCleanBit direccion n) m =
      if m = n then false else bitarrayTestBit direccion m := by
  refine testBit_modify direccion _ false hn fun byte k hk => ?_
  rw [BitVec.getLsbD_and, BitVec.getLsbD_not, BitVec.getLsbD_twoPow]
  by_cases hkn : k = n % 8
  · simp [hkn, Nat.mod_lt]
  · simp [hkn, Ne.symm hkn, hk]

/-- Marking a block is setting its place in the list of bits. -/
theorem bits_marcarBloqueOcupado (bitmap : Bitmap sb) {n : ℕ}
    (hn : n < bitmap.direccion.length * 8) :
    (bitmap.bitmapMarcarBloqueOcupado n).bits =
      StorageState.bitmapMarcarBloqueOcupado bitmap.bits n := by
  unfold StorageState.bitmapMarcarBloqueOcupado
  have hlength := (bitmap.bitmapMarcarBloqueOcupado n).tamanio.trans bitmap.tamanio.symm
  refine List.ext_getElem? fun m => ?_
  rw [List.getElem?_set, getElem?_bits, getElem?_bits, hlength, length_bits, ← bitmap.tamanio]
  change (if m < _ then some (bitarrayTestBit (bitarraySetBit bitmap.direccion n) m) else none) = _
  rw [testBit_setBit _ hn]
  by_cases hmn : m = n
  · simp [hmn, hn]
  · simp [hmn, Ne.symm hmn]

theorem bits_marcarBloqueLibre (bitmap : Bitmap sb) {n : ℕ}
    (hn : n < bitmap.direccion.length * 8) :
    (bitmap.bitmapMarcarBloqueLibre n).bits =
      StorageState.bitmapMarcarBloqueLibre bitmap.bits n := by
  unfold StorageState.bitmapMarcarBloqueLibre
  have hlength := (bitmap.bitmapMarcarBloqueLibre n).tamanio.trans bitmap.tamanio.symm
  refine List.ext_getElem? fun m => ?_
  rw [List.getElem?_set, getElem?_bits, getElem?_bits, hlength, length_bits, ← bitmap.tamanio]
  change (if m < _ then some (bitarrayTestBit (bitarrayCleanBit bitmap.direccion n) m)
    else none) = _
  rw [testBit_cleanBit _ hn]
  by_cases hmn : m = n
  · simp [hmn, hn]
  · simp [hmn, Ne.symm hmn]

theorem bits_crearBitmapVacio (sb : Superbloque) :
    (Bitmap.crearBitmapVacio sb).bits = StorageState.crearBitmapVacio (cantBlock sb) := by
  refine List.ext_getElem? fun n => ?_
  unfold StorageState.crearBitmapVacio
  rw [getElem?_bits, (Bitmap.crearBitmapVacio sb).tamanio, List.getElem?_replicate]
  refine if_congr Iff.rfl (congrArg some ?_) rfl
  unfold bitarrayTestBit Bitmap.crearBitmapVacio
  rw [List.getElem?_replicate]
  split_ifs
  · simp
  · simp

/-- The search of the bytes is the search of the list of their bits. -/
theorem bitmapEncontrarBloqueLibre_bits (bitmap : Bitmap sb) :
    bitmap.bitmapEncontrarBloqueLibre =
      StorageState.bitmapEncontrarBloqueLibre bitmap.bits := by
  unfold StorageState.bitmapEncontrarBloqueLibre Bitmap.bitmapEncontrarBloqueLibre Bitmap.bits
  rw [List.findIdx?_map]
  refine Option.ext fun n => ?_
  rw [List.find?_range_eq_some, List.findIdx?_eq_some_iff_getElem]
  simp only [List.mem_range, List.length_range, List.getElem_range, Function.comp_apply]
  constructor
  · rintro ⟨hlibre, hn, hantes⟩
    exact ⟨hn, hlibre, fun m hm => by simpa using hantes m hm⟩
  · rintro ⟨hn, hlibre, hantes⟩
    exact ⟨hlibre, hn, fun m hm => by simpa using hantes m hm⟩

end Bits

section Busqueda

theorem encontrar_eq_some_iff (bitmap : Bitmap sb) (n : ℕ) :
    bitmap.bitmapEncontrarBloqueLibre = some n ↔
      bitmap.Libre n ∧ ∀ m < n, ¬ bitmap.Libre m := by
  unfold Bitmap.bitmapEncontrarBloqueLibre Bitmap.Libre
  rw [List.find?_range_eq_some]
  simp only [List.mem_range, Bool.not_eq_true', not_and, Bool.not_eq_false]
  constructor
  · rintro ⟨hlibre, hn, hantes⟩
    exact ⟨⟨hn, hlibre⟩, fun m hm _ => by simpa using hantes m hm⟩
  · rintro ⟨⟨hn, hlibre⟩, hantes⟩
    exact ⟨hlibre, hn, fun m hm => by simpa using hantes m hm (hm.trans hn)⟩

theorem encontrar_eq_none_iff (bitmap : Bitmap sb) :
    bitmap.bitmapEncontrarBloqueLibre = none ↔ ∀ n, ¬ bitmap.Libre n := by
  unfold Bitmap.bitmapEncontrarBloqueLibre Bitmap.Libre
  rw [List.find?_range_eq_none]
  simp

/-- The result is the first block whose bit is 0, and there is none when no block has one. -/
structure BusquedaExacta (bitmap : Bitmap sb) (resultado : Option ℕ) : Prop where
  primero : ∀ n, resultado = some n ↔
    n < cantBlock sb ∧ bitmap.Libre n ∧ ∀ m < n, ¬ bitmap.Libre m
  ninguno : resultado = none ↔ ∀ n < cantBlock sb, ¬ bitmap.Libre n

/-- The search is exact unless all the blocks are taken and a bit behind them is 0. -/
theorem busquedaExacta_iff (bitmap : Bitmap sb) :
    BusquedaExacta bitmap bitmap.bitmapEncontrarBloqueLibre ↔
      (∃ n < cantBlock sb, bitmap.Libre n) ∨ ∀ n, cantBlock sb ≤ n → ¬ bitmap.Libre n := by
  constructor
  · intro h
    by_cases hlibre : ∃ n < cantBlock sb, bitmap.Libre n
    · exact Or.inl hlibre
    · have hnone := h.ninguno.mpr fun n hn hl => hlibre ⟨n, hn, hl⟩
      exact Or.inr fun n _ => (encontrar_eq_none_iff bitmap).mp hnone n
  · intro h
    have hdentro : ∀ m, bitmap.Libre m → (∀ k < m, ¬ bitmap.Libre k) → m < cantBlock sb := by
      intro m hm hantes
      rcases h with ⟨n, hn, hlibre⟩ | hrelleno
      · have hle : m ≤ n := not_lt.mp fun hlt => hantes n hlt hlibre
        omega
      · exact not_le.mp fun hle => hrelleno m hle hm
    have hninguno : (∀ n < cantBlock sb, ¬ bitmap.Libre n) → ∀ n, ¬ bitmap.Libre n := by
      intro hocupados n hlibre
      rcases h with ⟨m, hm, hlibre'⟩ | hrelleno
      · exact hocupados m hm hlibre'
      · exact hocupados n (not_le.mp fun hle => hrelleno n hle hlibre) hlibre
    refine ⟨fun m => ?_, ?_⟩
    · rw [encontrar_eq_some_iff]
      exact ⟨fun hm => ⟨hdentro m hm.1 hm.2, hm⟩, And.right⟩
    · rw [encontrar_eq_none_iff]
      exact ⟨fun hnone n _ => hnone n, hninguno⟩

/-- With a multiple of 8 blocks there are no bits behind the last. -/
theorem busquedaExacta_of_dvd (hsb : 8 ∣ cantBlock sb) (bitmap : Bitmap sb) :
    BusquedaExacta bitmap bitmap.bitmapEncontrarBloqueLibre := by
  refine (busquedaExacta_iff bitmap).mpr (Or.inr fun n hn hlibre => ?_)
  have hlt := hlibre.1
  rw [bitmap.tamanio] at hlt
  omega

end Busqueda

section Llenos

/-- Four blocks, all taken one after the other. -/
def bitmapLleno : Bitmap ReachableStates.superbloqueChico :=
  (List.range 4).foldl Bitmap.bitmapMarcarBloqueOcupado (Bitmap.crearBitmapVacio _)

theorem encontrar_bitmapLleno : bitmapLleno.bitmapEncontrarBloqueLibre = some 4 := by decide

/-- Block 4 of four is found free. -/
theorem not_busquedaExacta : ¬ ∀ sb (bitmap : Bitmap sb),
    BusquedaExacta bitmap bitmap.bitmapEncontrarBloqueLibre := by
  intro h
  have hcuatro := ((h _ bitmapLleno).primero 4).mp encontrar_bitmapLleno
  exact absurd hcuatro.1 (by decide)

end Llenos

end MasterOfFiles.FreeBlockSearch
