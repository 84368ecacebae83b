import Mathlib.Data.List.TakeWhile

/-!
Byte buffers with C's copy and string-length conventions. A buffer is the list
of its bytes; `overlay` is memcpy into an existing buffer, `slice` reads a
range, and `cString` is the part of a buffer that strlen counts. Equalities of
buffers are proved position by position through `getElem?`.
-/
namespace MasterOfFiles.ByteBuffers

abbrev Bytes := List UInt8

/-- The bytes before the first NUL. -/
def cString (b : Bytes) : Bytes := b.takeWhile (· ≠ 0)

def strlen (b : Bytes) : ℕ := (cString b).length

/-- memcpy(dst + off, src, |src|). -/
def overlay (dst : Bytes) (off : ℕ) (src : Bytes) : Bytes :=
  dst.take off ++ src ++ dst.drop (off + src.length)

def slice (b : Bytes) (off n : ℕ) : Bytes := (b.drop off).take n

theorem strlen_le (b : Bytes) : strlen b ≤ b.length :=
  (List.takeWhile_prefix _).length_le

theorem getElem?_cString (b : Bytes) (i : ℕ) :
    (cString b)[i]? = if i < strlen b then b[i]? else none := by
  obtain ⟨rest, hrest⟩ : cString b <+: b := List.takeWhile_prefix _
  by_cases hi : i < strlen b
  · rw [if_pos hi]
    calc
      (cString b)[i]? = (cString b ++ rest)[i]? := (List.getElem?_append_left hi).symm
      _ = b[i]? := by rw [hrest]
  · rw [if_neg hi]
    exact List.getElem?_eq_none (Nat.le_of_not_lt hi)

/-- A string without NULs ends at the NUL put behind it. -/
theorem cString_append_nul {b : Bytes} (h : 0 ∉ b) (rest : Bytes) :
    cString (b ++ 0 :: rest) = b := by
  unfold cString
  rw [List.takeWhile_append_of_pos]
  · simp
  · intro x hx
    have hne : x ≠ 0 := fun hzero => h (hzero ▸ hx)
    simpa using hne

theorem cString_eq_self {b : Bytes} (h : 0 ∉ b) : cString b = b := by
  refine List.takeWhile_eq_self_iff.mpr fun x hx => ?_
  have hne : x ≠ 0 := fun hzero => h (hzero ▸ hx)
  simpa using hne

theorem zero_notMem_cString (b : Bytes) : 0 ∉ cString b := by
  intro hmem
  simpa using List.mem_takeWhile_imp hmem

theorem length_overlay (dst : Bytes) (off : ℕ) (src : Bytes)
    (h : off + src.length ≤ dst.length) : (overlay dst off src).length = dst.length := by
  simp only [overlay, List.length_append, List.length_take, List.length_drop]
  omega

theorem getElem?_overlay (dst : Bytes) (off : ℕ) (src : Bytes)
    (h : off + src.length ≤ dst.length) (i : ℕ) :
    (overlay dst off src)[i]? =
      if off ≤ i ∧ i < off + src.length then src[i - off]? else dst[i]? := by
  have htake : (dst.take off).length = off := by
    simp only [List.length_take]
    omega
  unfold overlay
  rw [List.append_assoc]
  by_cases hlow : i < off
  · rw [List.getElem?_append_left (by omega), if_neg (by omega)]
    simp [hlow]
  · rw [List.getElem?_append_right (by omega), htake]
    by_cases hhigh : i < off + src.length
    · rw [List.getElem?_append_left (by omega), if_pos ⟨by omega, hhigh⟩]
    · rw [List.getElem?_append_right (by omega), if_neg (by omega), List.getElem?_drop]
      congr 1
      omega

theorem getElem?_slice (b : Bytes) (off n i : ℕ) :
    (slice b off n)[i]? = if i < n then b[off + i]? else none := by
  unfold slice
  rw [List.getElem?_take, List.getElem?_drop]

theorem length_slice (b : Bytes) (off n : ℕ) (h : off + n ≤ b.length) :
    (slice b off n).length = n := by
  simp only [slice, List.length_take, List.length_drop]
  omega

theorem take_eq_of_getElem? {b src : Bytes} (h : ∀ i < src.length, b[i]? = src[i]?) :
    b.take src.length = src := by
  apply List.ext_getElem?
  intro i
  rw [List.getElem?_take]
  by_cases hi : i < src.length
  · rw [if_pos hi, h i hi]
  · rw [if_neg hi, List.getElem?_eq_none (by omega)]

/-- Buffers of one length agree from a position on when their bytes there do. -/
theorem drop_eq_drop_iff {b b' : Bytes} (hlength : b.length = b'.length) (off : ℕ) :
    b.drop off = b'.drop off ↔ ∀ i < b.length, off ≤ i → b[i]? = b'[i]? := by
  constructor
  · intro h i _ hoff
    have hi := congrArg (fun l => l[i - off]?) h
    simpa only [List.getElem?_drop, show off + (i - off) = i by omega] using hi
  · intro h
    apply List.ext_getElem?
    intro i
    rw [List.getElem?_drop, List.getElem?_drop]
    by_cases hi : off + i < b.length
    · exact h _ hi (by omega)
    · rw [List.getElem?_eq_none (by omega), List.getElem?_eq_none (by omega)]

/-- Copying into a range is seen through any slice that contains the range. -/
theorem slice_overlay_inside (b : Bytes) (off n p : ℕ) (src : Bytes)
    (hb : off + n ≤ b.length) (hp : p + src.length ≤ n) :
    slice (overlay b (off + p) src) off n = overlay (slice b off n) p src := by
  have hlen := length_slice b off n hb
  apply List.ext_getElem?
  intro i
  rw [getElem?_slice, getElem?_overlay _ _ _ (by omega), getElem?_overlay _ _ _ (by omega),
    getElem?_slice]
  by_cases hi : i < n
  · rw [if_pos hi, if_pos hi]
    by_cases hin : p ≤ i ∧ i < p + src.length
    · rw [if_pos hin, if_pos (by omega)]
      congr 1
      omega
    · rw [if_neg hin, if_neg (by omega)]
  · rw [if_neg hi, if_neg hi, if_neg (by omega)]

/-- Slices that do not meet the written range keep their bytes. -/
theorem slice_overlay_outside (b : Bytes) (off n p : ℕ) (src : Bytes)
    (hb : p + src.length ≤ b.length) (hdis : off + n ≤ p ∨ p + src.length ≤ off) :
    slice (overlay b p src) off n = slice b off n := by
  apply List.ext_getElem?
  intro i
  rw [getElem?_slice, getElem?_slice, getElem?_overlay _ _ _ hb]
  by_cases hi : i < n
  · rw [if_pos hi, if_pos hi, if_neg (by omega)]
  · rw [if_neg hi, if_neg hi]

section Ranges

theorem slice_slice (b : Bytes) {off n p m : ℕ} (h : p + m ≤ n) :
    slice (slice b off n) p m = slice b (off + p) m := by
  apply List.ext_getElem?
  intro i
  rw [getElem?_slice, getElem?_slice, getElem?_slice]
  by_cases hi : i < m
  · rw [if_pos hi, if_pos hi, if_pos (by omega)]
    congr 1
    omega
  · rw [if_neg hi, if_neg hi]

theorem slice_add (b : Bytes) (off n m : ℕ) :
    slice b off (n + m) = slice b off n ++ slice b (off + n) m := by
  unfold slice
  rw [List.take_add, List.drop_drop]

theorem slice_append_drop (b : Bytes) (off n : ℕ) :
    slice b off n ++ b.drop (off + n) = b.drop off := by
  unfold slice
  rw [← List.drop_drop, List.take_append_drop]

theorem slice_self (b : Bytes) : slice b 0 b.length = b := by
  unfold slice
  rw [List.drop_zero, List.take_length]

/-- Two copies side by side are one copy. -/
theorem overlay_append (b : Bytes) (off : ℕ) (x y : Bytes)
    (h : off + x.length + y.length ≤ b.length) :
    overlay (overlay b off x) (off + x.length) y = overlay b off (x ++ y) := by
  have hx := length_overlay b off x (by omega)
  have hxy : (x ++ y).length = x.length + y.length := List.length_append
  apply List.ext_getElem?
  intro i
  rw [getElem?_overlay _ _ _ (by omega), getElem?_overlay _ _ _ (by omega),
    getElem?_overlay _ _ _ (by omega)]
  by_cases hlow : off ≤ i ∧ i < off + x.length
  · rw [if_neg (by omega), if_pos hlow, if_pos (by omega), List.getElem?_append_left (by omega)]
  · by_cases hhigh : off + x.length ≤ i ∧ i < off + x.length + y.length
    · rw [if_pos hhigh, if_pos (by omega), List.getElem?_append_right (by omega)]
      congr 1
      omega
    · rw [if_neg hhigh, if_neg hlow, if_neg (by omega)]

theorem overlay_nil (b : Bytes) (off : ℕ) : overlay b off [] = b := by
  unfold overlay
  rw [List.append_nil, List.length_nil, Nat.add_zero, List.take_append_drop]

/-- A copy that covers the buffer replaces it. -/
theorem overlay_whole {b src : Bytes} (h : src.length = b.length) : overlay b 0 src = src := by
  unfold overlay
  rw [List.take_zero, List.nil_append, Nat.zero_add, h, List.drop_length, List.append_nil]

/-- A slice that covers exactly the copied range reads the copy. -/
theorem slice_overlay_self (b : Bytes) (off : ℕ) {src : Bytes} {n : ℕ} (hn : src.length = n)
    (h : off + n ≤ b.length) : slice (overlay b off src) off n = src := by
  have hlen := length_slice b off n h
  have hin := slice_overlay_inside b off n 0 src h (by omega)
  rw [Nat.add_zero] at hin
  rw [hin, overlay_whole (by omega)]

/-- Pages of one size put one behind the other are read back page by page. -/
theorem slice_flatMap_range {g : ℕ → Bytes} {n size : ℕ} (hg : ∀ p < n, (g p).length = size) :
    ((List.range n).flatMap g).length = n * size ∧
      ∀ p < n, slice ((List.range n).flatMap g) (p * size) size = g p := by
  induction n with
  | zero => exact ⟨by simp, fun p hp => absurd hp (Nat.not_lt_zero p)⟩
  | succ n ih =>
    obtain ⟨hlen, hslice⟩ := ih fun p hp => hg p (by omega)
    have hlast := hg n (Nat.lt_succ_self n)
    rw [List.range_succ, List.flatMap_append, List.flatMap_singleton]
    constructor
    · rw [List.length_append, hlen, hlast, Nat.succ_mul]
    · intro p hp
      unfold slice at hslice ⊢
      rcases Nat.lt_succ_iff_lt_or_eq.mp hp with hlt | rfl
      · have hle : p * size + size ≤ n * size := by
          rw [← Nat.succ_mul]
          exact Nat.mul_le_mul_right _ hlt
        rw [List.drop_append_of_le_length (by omega),
          List.take_append_of_le_length (by rw [List.length_drop]; omega)]
        exact hslice p hlt
      · rw [List.drop_append_of_le_length (by omega), List.drop_eq_nil_of_le (by omega),
          List.nil_append, List.take_of_length_le (by omega)]

end Ranges

end MasterOfFiles.ByteBuffers
