import Celium.Lib.Text
/-!
# Hex — bytes written as lower-case hexadecimal, and read back

A byte is two digits, high half first.  The reader knows the sixteen lower-case digits only, so that a byte string has
one spelling: what is read back is what was written (`decode_encode`), and what the reader accepts is what the writer
writes for its value (`encode_of_decode`).
-/
namespace Hex

/-- The digit of a half byte. -/
def digit (n : UInt8) : UInt8 := if n < 10 then '0'.toUInt8 + n else 'a'.toUInt8 + (n - 10)

def encode (bs : List UInt8) : List UInt8 := bs.flatMap (fun b : UInt8 => [digit (b >>> 4), digit (b &&& 0x0F)])

/-- The value of a digit. -/
def nibble (b : UInt8) : Option UInt8 :=
  if '0'.toUInt8 ≤ b ∧ b ≤ '9'.toUInt8 then some (b - '0'.toUInt8)
  else if 'a'.toUInt8 ≤ b ∧ b ≤ 'f'.toUInt8 then some (10 + (b - 'a'.toUInt8))
  else none

def decode : List UInt8 → Option (List UInt8)
  | []              => some []
  | [_]             => none
  | hi :: lo :: src =>
    match nibble hi, nibble lo with
    | some h, some l => (decode src).map ((h <<< 4 ||| l) :: ·)
    | _, _ => none

/-- A fact about every byte is one about 256 numbers. -/
theorem forall_byte {p : UInt8 → Prop} (h : ∀ n < 256, p (UInt8.ofNat n)) (b : UInt8) : p b := by
  have := h b.toNat b.toNat_lt
  rwa [UInt8.ofNat_toNat] at this

set_option maxRecDepth 10000 in
theorem nibble_digit : ∀ n : UInt8, n < 16 → nibble (digit n) = some n :=
  forall_byte (by decide)

set_option maxRecDepth 10000 in
theorem digit_of_nibble (b n : UInt8) (h : nibble b = some n) : n < 16 ∧ digit n = b := by
  have hall : ∀ b : UInt8, (nibble b).all (fun n => n < 16 && digit n == b) = true :=
    forall_byte (by decide)
  simpa [h] using hall b

set_option maxRecDepth 10000 in
theorem halves : ∀ b : UInt8, b >>> 4 < 16 ∧ b &&& 0x0F < 16 ∧ (b >>> 4) <<< 4 ||| (b &&& 0x0F) = b :=
  forall_byte (by decide)

theorem joined (h l : UInt8) (hh : h < 16) (hl : l < 16) :
    (h <<< 4 ||| l) >>> 4 = h ∧ (h <<< 4 ||| l) &&& 0x0F = l := by
  have hall : ∀ m < 16, ∀ n < 16, (UInt8.ofNat m <<< 4 ||| UInt8.ofNat n) >>> 4 = UInt8.ofNat m ∧
      (UInt8.ofNat m <<< 4 ||| UInt8.ofNat n) &&& 0x0F = UInt8.ofNat n := by decide
  have := hall h.toNat (UInt8.lt_iff_toNat_lt.1 hh) l.toNat (UInt8.lt_iff_toNat_lt.1 hl)
  rwa [UInt8.ofNat_toNat, UInt8.ofNat_toNat] at this

@[simp] theorem encode_length (bs : List UInt8) : (encode bs).length = 2 * bs.length := by
  induction bs with
  | nil => rfl
  | cons b bs ih =>
    have : (encode (b :: bs)).length = 2 + (encode bs).length := by
      rw [encode, List.flatMap_cons, List.length_append]
      rfl
    rw [this, ih, List.length_cons]
    omega

/-- **What is written is read back.** -/
theorem decode_encode (bs : List UInt8) : decode (encode bs) = some bs := by
  induction bs with
  | nil => rfl
  | cons b bs ih =>
    obtain ⟨hhi, hlo, hb⟩ := halves b
    change decode (digit (b >>> 4) :: digit (b &&& 0x0F) :: encode bs) = some (b :: bs)
    rw [decode, nibble_digit _ hhi, nibble_digit _ hlo, ih]
    simp only [Option.map_some, hb]

/-- **What is accepted is the one spelling of its value.** -/
theorem encode_of_decode : ∀ {src bs : List UInt8}, decode src = some bs → encode bs = src
  | [], bs, h => by
    rw [← Option.some.inj h]
    rfl
  | [_], _, h => by cases h
  | hi :: lo :: src, bs, h => by
    rw [decode] at h
    split at h
    · rename_i x y hx hy
      obtain ⟨hx16, hxd⟩ := digit_of_nibble _ _ hx
      obtain ⟨hy16, hyd⟩ := digit_of_nibble _ _ hy
      obtain ⟨rest, hrest, rfl⟩ := Option.map_eq_some_iff.1 h
      obtain ⟨hhi, hlo⟩ := joined x y hx16 hy16
      change digit _ :: digit _ :: encode rest = _
      rw [hhi, hlo, hxd, hyd, encode_of_decode hrest]
    · cases h

theorem decode_length {src bs : List UInt8} (h : decode src = some bs) : src.length = 2 * bs.length := by
  rw [← encode_of_decode h, encode_length]

set_option maxRecDepth 10000 in
/-- A digit is an ASCII character that a JSON string holds as it is. -/
theorem digit_ascii : ∀ n : UInt8, n < 16 → 48 ≤ digit n ∧ digit n < 128 ∧ digit n ≠ '\\'.toUInt8 :=
  forall_byte (by decide)

end Hex
