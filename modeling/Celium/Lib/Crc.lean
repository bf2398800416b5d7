import Mathlib.Data.Fintype.EquivFin
import Mathlib.Data.List.GetD
/-!
# Crc — remainders of a byte string by a reflected polynomial

The remainder is a word of `w` bits that moves down one place at a time; a bit that leaves puts the polynomial `p` in.
One place is linear in exclusive or (`shift_xor`) and, where the top bit of `p` is set, one to one (`shift_injective`).
Bytes that fit in the word can be taken in at once (`feed_eq_shifts`), so two texts that differ inside one word leave
different remainders (`feed_ne_of_burst`).
-/
namespace Crc

variable {w : Nat} (p : BitVec w)

/-! ## Places -/

/-- One place down. -/
def shift (s : BitVec w) : BitVec w := if s.getLsbD 0 then (s >>> 1) ^^^ p else s >>> 1

def shifts : Nat → BitVec w → BitVec w
  | 0, s     => s
  | n + 1, s => shifts n (shift p s)

variable {p}

theorem shifts_add (m n : Nat) (s : BitVec w) : shifts p (m + n) s = shifts p n (shifts p m s) := by
  induction m generalizing s with
  | zero => rw [Nat.zero_add]; rfl
  | succ m ih =>
    rw [Nat.succ_add]
    exact ih _

theorem shift_xor (a b : BitVec w) : shift p (a ^^^ b) = shift p a ^^^ shift p b := by
  unfold shift
  rw [BitVec.getLsbD_xor, BitVec.ushiftRight_xor_distrib]
  cases a.getLsbD 0 <;> cases b.getLsbD 0 <;> simp
  · ac_rfl
  · ac_rfl
  · rw [show a >>> 1 ^^^ p ^^^ (b >>> 1 ^^^ p) = a >>> 1 ^^^ b >>> 1 ^^^ (p ^^^ p) by ac_rfl, BitVec.xor_self,
      BitVec.xor_zero]

theorem shifts_xor (n : Nat) (a b : BitVec w) : shifts p n (a ^^^ b) = shifts p n a ^^^ shifts p n b := by
  induction n generalizing a b with
  | zero => rfl
  | succ n ih => rw [shifts, shift_xor, ih]; rfl

/-- Clear low bits only move down. -/
theorem shifts_of_clear {n : Nat} {s : BitVec w} (h : ∀ i < n, s.getLsbD i = false) : shifts p n s = s >>> n := by
  induction n generalizing s with
  | zero => simp [shifts]
  | succ n ih =>
    have hstep : shift p s = s >>> 1 := by simp [shift, h 0 (Nat.succ_pos n)]
    rw [shifts, hstep, ih fun i hi => ?_, ← BitVec.shiftRight_add, Nat.add_comm]
    rw [BitVec.getLsbD_ushiftRight]
    exact h (1 + i) (by omega)

/-- **One place is one to one where the top bit of the polynomial is set.**  What comes from a bit that left has the top
bit, what does not has it clear, so the only remainder that goes to zero is zero. -/
theorem shift_injective (hp : p.msb = true) : Function.Injective (shift p) := by
  have hzero : ∀ s, shift p s = 0#w → s = 0#w := by
    intro s hs
    have htop : (s >>> 1).msb = false := by
      rw [BitVec.msb_ushiftRight]
      simp
    unfold shift at hs
    split at hs
    · rw [BitVec.xor_eq_zero_iff.1 hs, hp] at htop
      cases htop
    · rename_i hlow
      refine BitVec.eq_of_getLsbD_eq fun i _ => ?_
      rw [BitVec.getLsbD_zero]
      cases i with
      | zero => simpa using hlow
      | succ i =>
        have := congrArg (fun x : BitVec w => x.getLsbD i) hs
        rwa [BitVec.getLsbD_ushiftRight, Nat.add_comm, BitVec.getLsbD_zero] at this
  intro a b hab
  have hdiff : shift p (a ^^^ b) = 0#w := by rw [shift_xor, hab, BitVec.xor_self]
  exact BitVec.xor_eq_zero_iff.1 (hzero _ hdiff)

theorem shifts_injective (hp : p.msb = true) (n : Nat) : Function.Injective (shifts p n) := by
  induction n with
  | zero => exact Function.injective_id
  | succ n ih => exact ih.comp (shift_injective hp)

/-! ## Bytes -/

/-- A byte as a word. -/
def ofByte (b : UInt8) : BitVec w := b.toBitVec.setWidth w

variable (p)

/-- The remainder after one more byte. -/
def byte (s : BitVec w) (b : UInt8) : BitVec w := shifts p 8 (s ^^^ ofByte b)

/-- The remainder after more bytes. -/
def feed (s : BitVec w) (bs : List UInt8) : BitVec w := bs.foldl (byte p) s

variable {p}

@[simp] theorem feed_nil (s : BitVec w) : feed p s [] = s := rfl

@[simp] theorem feed_cons (s : BitVec w) (b : UInt8) (bs : List UInt8) : feed p s (b :: bs) = feed p (byte p s b) bs := rfl

/-- A text can be fed in pieces. -/
theorem feed_append (s : BitVec w) (as bs : List UInt8) : feed p s (as ++ bs) = feed p (feed p s as) bs :=
  List.foldl_append

theorem byte_injective (hp : p.msb = true) (b : UInt8) : Function.Injective (byte p · b) := by
  intro s t h
  exact (BitVec.xor_left_inj (ofByte b)).1 (shifts_injective hp 8 h)

/-- **A byte takes the remainders to the remainders one to one.** -/
theorem byte_bijective (hp : p.msb = true) (b : UInt8) : Function.Bijective (byte p · b) := by
  have : Finite (BitVec w) := Finite.of_injective BitVec.toFin fun _ _ => BitVec.toFin_inj.1
  exact Finite.injective_iff_bijective.1 (byte_injective hp b)

theorem feed_injective (hp : p.msb = true) (bs : List UInt8) : Function.Injective (feed p · bs) := by
  induction bs with
  | nil => exact Function.injective_id
  | cons b bs ih => exact ih.comp (byte_injective hp b)

/-! ## Bursts -/

/-- The bytes as one word, the first in its low bits; those that do not fit are lost. -/
def word : List UInt8 → BitVec w
  | []      => 0#w
  | b :: bs => ofByte b ^^^ (word bs <<< 8)

theorem getLsbD_word (bs : List UInt8) {i : Nat} (hi : i < w) :
    (word bs : BitVec w).getLsbD i = (bs.getD (i / 8) 0).toBitVec.getLsbD (i % 8) := by
  induction bs generalizing i with
  | nil => simp [word]
  | cons b bs ih =>
    rw [word, BitVec.getLsbD_xor, BitVec.getLsbD_shiftLeft, ofByte, BitVec.getLsbD_setWidth]
    by_cases h8 : i < 8
    · simp [hi, h8, Nat.div_eq_of_lt h8, Nat.mod_eq_of_lt h8]
    · have hdiv : i / 8 = (i - 8) / 8 + 1 := by omega
      have hmod : i % 8 = (i - 8) % 8 := by omega
      have hhigh : b.toBitVec.getLsbD i = false := BitVec.getLsbD_of_ge _ _ (by omega)
      rw [ih (by omega : i - 8 < w), hdiv, hmod, hhigh]
      simp [hi, h8]

theorem word_inj {as bs : List UInt8} (hlen : as.length = bs.length) (hfit : 8 * as.length ≤ w)
    (h : (word as : BitVec w) = word bs) : as = bs := by
  refine List.ext_getElem hlen fun k hk hk' => ?_
  refine UInt8.toBitVec_inj.1 (BitVec.eq_of_getLsbD_eq fun j hj => ?_)
  have hlt : 8 * k + j < w := by omega
  have hdiv : (8 * k + j) / 8 = k := by omega
  have hmod : (8 * k + j) % 8 = j := by omega
  have := congrArg (fun x : BitVec w => x.getLsbD (8 * k + j)) h
  simp only [getLsbD_word _ hlt, hdiv, hmod] at this
  rwa [List.getD_eq_getElem _ _ hk, List.getD_eq_getElem _ _ hk'] at this

/-- **Bytes that fit in the word are taken in at once.**  Those still to come sit above the low eight bits, and eight
places down is where they are met. -/
theorem feed_eq_shifts (s : BitVec w) (bs : List UInt8) (hfit : 8 * bs.length ≤ w) :
    feed p s bs = shifts p (8 * bs.length) (s ^^^ word bs) := by
  induction bs generalizing s with
  | nil => simp [word, shifts]
  | cons b bs ih =>
    rw [List.length_cons] at hfit
    have hclear : ∀ i < 8, ((word bs : BitVec w) <<< 8).getLsbD i = false := by
      intro i hi
      rw [BitVec.getLsbD_shiftLeft]
      simp [hi]
    have hdown : shifts p 8 ((word bs : BitVec w) <<< 8) = word bs := by
      rw [shifts_of_clear hclear]
      refine BitVec.eq_of_getLsbD_eq fun i hi => ?_
      rw [BitVec.getLsbD_ushiftRight, BitVec.getLsbD_shiftLeft]
      by_cases hin : 8 + i < w
      · simp [hin]
      · have hover : bs.length ≤ i / 8 := by omega
        rw [getLsbD_word _ hi, List.getD_eq_default _ _ hover]
        simp [hin]
    rw [feed_cons, ih _ (by omega), List.length_cons, Nat.mul_succ, Nat.add_comm, shifts_add, word, byte]
    conv_lhs => rw [← hdown, ← shifts_xor]
    rw [BitVec.xor_assoc]

/-- **Two texts that differ, and only inside one word of it, leave different remainders.** -/
theorem feed_ne_of_burst (hp : p.msb = true) (s : BitVec w) (as us vs bs : List UInt8) (hlen : us.length = vs.length)
    (hfit : 8 * us.length ≤ w) (hne : us ≠ vs) : feed p s (as ++ us ++ bs) ≠ feed p s (as ++ vs ++ bs) := by
  intro h
  rw [feed_append, feed_append, feed_append, feed_append] at h
  have hburst := feed_injective hp bs h
  rw [feed_eq_shifts _ us hfit, feed_eq_shifts _ vs (hlen ▸ hfit), ← hlen] at hburst
  exact hne (word_inj hlen hfit ((BitVec.xor_right_inj _).1 (shifts_injective hp _ hburst)))

end Crc
