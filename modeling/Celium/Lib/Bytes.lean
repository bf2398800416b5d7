import Mathlib.Data.List.Basic
import Mathlib.Data.Nat.Bitwise
/-!
# Bytes — slices, windows and numbers in a run of bytes

A `slice` of a list is what a read of a range gives.  A `window` of a function is the same for contents given byte by
byte, which is how a virtual disk or a memory is specified.
-/
namespace Bytes

variable {α : Type}

/-! ## Slices -/

/-- `bs[off..off + len]`, shorter where `bs` ends before. -/
def slice (bs : List α) (off len : Nat) : List α := (bs.drop off).take len

theorem length_slice (bs : List α) (off len : Nat) : (slice bs off len).length = min len (bs.length - off) := by
  rw [slice, List.length_take, List.length_drop]

theorem length_slice_of_le {bs : List α} {off len : Nat} (h : off + len ≤ bs.length) : (slice bs off len).length = len := by
  rw [length_slice]
  omega

theorem slice_append (bs : List α) (off a b : Nat) : slice bs off (a + b) = slice bs off a ++ slice bs (off + a) b := by
  rw [slice, slice, slice, List.take_add, List.drop_drop]

theorem slice_slice {bs : List α} {off len i n : Nat} (h : i + n ≤ len) :
    slice (slice bs off len) i n = slice bs (off + i) n := by
  rw [slice, slice, slice, List.drop_take, List.drop_drop, List.take_take, Nat.min_eq_left (by omega)]

/-! ## Windows -/

/-- The `len` values of `f` from `off` on. -/
def window (f : Nat → α) (off len : Nat) : List α := (List.range len).map (fun i => f (off + i))

@[simp] theorem length_window (f : Nat → α) (off len : Nat) : (window f off len).length = len := by
  rw [window, List.length_map, List.length_range]

@[simp] theorem window_zero (f : Nat → α) (off : Nat) : window f off 0 = [] := rfl

theorem window_append (f : Nat → α) (off a b : Nat) : window f off (a + b) = window f off a ++ window f (off + a) b := by
  rw [window, List.range_add, List.map_append, List.map_map]
  congr 1
  refine List.map_congr_left fun i _ => ?_
  exact congrArg f (Nat.add_assoc off a i).symm

theorem window_congr {f g : Nat → α} {off off' len : Nat} (h : ∀ i < len, f (off + i) = g (off' + i)) :
    window f off len = window g off' len :=
  List.map_congr_left fun i hi => h i (List.mem_range.1 hi)

theorem window_const {f : Nat → α} {a : α} {off len : Nat} (h : ∀ i < len, f (off + i) = a) :
    window f off len = List.replicate len a := by
  rw [List.eq_replicate_iff]
  refine ⟨length_window f off len, ?_⟩
  intro b hb
  obtain ⟨i, hi, rfl⟩ := List.mem_map.1 hb
  exact h i (List.mem_range.1 hi)

theorem slice_eq_window [Inhabited α] {bs : List α} {off len : Nat} (h : off + len ≤ bs.length) :
    slice bs off len = window (fun i => bs.getD i default) off len := by
  refine List.ext_getElem ?_ fun i hi hi' => ?_
  · rw [length_slice_of_le h, length_window]
  · rw [length_window] at hi'
    have hlt : off + i < bs.length := by omega
    simp only [slice, window, List.getElem_take, List.getElem_drop, List.getElem_map, List.getElem_range,
      List.getD_eq_getElem _ _ hlt]

theorem slice_append_left {bs cs : List α} {off len : Nat} (h : off + len ≤ bs.length) :
    slice (bs ++ cs) off len = slice bs off len := by
  rw [slice, slice, List.drop_append_of_le_length (by omega), List.take_append_of_le_length (by rw [List.length_drop]; omega)]

theorem slice_window (f : Nat → α) {off len n : Nat} (h : off + len ≤ n) :
    slice (window f 0 n) off len = window f off len := by
  refine List.ext_getElem ?_ fun i hi hi' => ?_
  · rw [length_slice_of_le (by rwa [length_window]), length_window]
  · simp only [slice, window, List.getElem_take, List.getElem_drop, List.getElem_map, List.getElem_range, Nat.zero_add]

/-- `f` with the bytes `bs` at `o`. -/
def place (o : Nat) (bs : List UInt8) (f : Nat → UInt8) (i : Nat) : UInt8 :=
  if o ≤ i ∧ i < o + bs.length then bs.getD (i - o) 0 else f i

theorem window_place {o : Nat} {bs : List UInt8} {f : Nat → UInt8} {k n : Nat} (h : k + n ≤ bs.length) :
    window (place o bs f) (o + k) n = slice bs k n := by
  rw [slice_eq_window h]
  refine window_congr fun i hi => ?_
  rw [place, if_pos (by omega), Nat.add_assoc, Nat.add_sub_cancel_left]
  rfl

theorem window_place_self {o : Nat} {bs : List UInt8} {f : Nat → UInt8} {n : Nat} (h : bs.length = n) :
    window (place o bs f) o n = bs := by
  have hslice : window (place o bs f) (o + 0) n = slice bs 0 n := window_place (by omega)
  rwa [slice, List.drop_zero, List.take_of_length_le (by omega)] at hslice

theorem window_place_of_disjoint {o : Nat} {bs : List UInt8} {f : Nat → UInt8} {off n : Nat}
    (h : off + n ≤ o ∨ o + bs.length ≤ off) : window (place o bs f) off n = window f off n := by
  refine window_congr fun i hi => ?_
  rw [place, if_neg (by omega)]

/-! ## Numbers -/

/-- `from_le_bytes`. -/
def leNat : List UInt8 → Nat
  | [] => 0
  | b :: bs => b.toNat + 256 * leNat bs

/-- `from_be_bytes`. -/
def beNat (bs : List UInt8) : Nat := leNat bs.reverse

theorem leNat_lt (bs : List UInt8) : leNat bs < 256 ^ bs.length := by
  induction bs with
  | nil => exact Nat.one_pos
  | cons b bs ih =>
    have hb := b.toNat_lt
    rw [leNat, List.length_cons, Nat.pow_succ]
    omega

theorem beNat_lt (bs : List UInt8) : beNat bs < 256 ^ bs.length := by
  have := leNat_lt bs.reverse
  rwa [List.length_reverse] at this

/-- `chunks_exact(w)`: a shorter rest is left out. -/
def chunksExact (w : Nat) (bs : List α) : List (List α) :=
  (List.range (bs.length / w)).map (fun i => slice bs (w * i) w)

theorem length_chunksExact (w : Nat) (bs : List α) : (chunksExact w bs).length = bs.length / w := by
  rw [chunksExact, List.length_map, List.length_range]

theorem getElem?_chunksExact {w : Nat} {bs : List α} {i : Nat} (h : i < bs.length / w) :
    (chunksExact w bs)[i]? = some (slice bs (w * i) w) := by
  rw [chunksExact, List.getElem?_map, List.getElem?_range h, Option.map_some]

/-! ## Bits -/

theorem and_low (n k : Nat) : n &&& (2 ^ k - 1) = n % 2 ^ k := Nat.and_two_pow_sub_one_eq_mod n k

/-- A mask of the bits from `j` up to `k`. -/
theorem and_mid (n : Nat) {j k : Nat} (h : j ≤ k) : n &&& (2 ^ k - 2 ^ j) = 2 ^ j * (n % 2 ^ k / 2 ^ j) := by
  have hmask : 2 ^ k - 2 ^ j = 2 ^ j * (2 ^ (k - j) - 1) := by
    rw [Nat.mul_sub, ← Nat.pow_add, Nat.add_sub_cancel' h, Nat.mul_one]
  rw [hmask]
  refine Nat.eq_of_testBit_eq fun i => ?_
  rw [Nat.testBit_and, Nat.testBit_two_pow_mul, Nat.testBit_two_pow_mul, Nat.testBit_two_pow_sub_one,
    Nat.testBit_div_two_pow, Nat.testBit_mod_two_pow]
  by_cases hi : j ≤ i
  · have hlt : i - j < k - j ↔ i < k := by omega
    simp [hi, hlt, Bool.and_comm]
  · simp [hi]

theorem and_bit_eq_zero {n k : Nat} : n &&& (2 ^ k) = 0 ↔ n.testBit k = false := by
  rw [Nat.and_two_pow]
  cases n.testBit k <;> simp

end Bytes
