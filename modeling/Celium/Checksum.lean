import Celium.Lib.Crc
import Celium.Loopback
import Celium.VhdxRead
/-!
# Checksum — the three CRC-32C of the tree

`celimage::util`, `celhyper::crc` and `celmesh::hyper_host` each have their own loop over the bits of a byte.  They are one
function, the remainder of `Lib/Crc` by the Castagnoli polynomial, whose top bit is set.
-/
namespace Celium

/-- The polynomial of CRC-32C, reflected. -/
def castagnoli : BitVec 32 := 0x82F63B78#32

theorem castagnoli_msb : castagnoli.msb = true := by decide

/-! ## One function -/

theorem getLsbD_zero_iff (s : UInt32) : s.toBitVec.getLsbD 0 = true ↔ s &&& 1 ≠ 0 := by
  have hlow : (s &&& 1).toNat = s.toNat % 2 := by
    rw [UInt32.toNat_and]
    exact Nat.and_one_is_mod s.toNat
  have hbit : s.toBitVec.getLsbD 0 = decide (s.toNat % 2 = 1) := by
    rw [← BitVec.testBit_toNat, Nat.testBit_zero]
    rfl
  rw [hbit, decide_eq_true_iff, Ne, ← UInt32.toNat_inj, hlow]
  change _ ↔ ¬ s.toNat % 2 = 0
  omega

theorem crcShift_toBitVec (s : UInt32) : (crcShift s).toBitVec = Crc.shift castagnoli s.toBitVec := by
  unfold crcShift Crc.shift
  by_cases h : s &&& 1 ≠ 0
  · rw [if_pos h, if_pos ((getLsbD_zero_iff s).2 h), UInt32.toBitVec_xor, UInt32.toBitVec_shiftRight]
    rfl
  · rw [if_neg h, if_neg (fun hbit => h ((getLsbD_zero_iff s).1 hbit)), UInt32.toBitVec_shiftRight]
    rfl

theorem crcShifts_toBitVec (n : Nat) (s : UInt32) : (crcShifts n s).toBitVec = Crc.shifts castagnoli n s.toBitVec := by
  induction n generalizing s with
  | zero => rfl
  | succ n ih => rw [crcShifts, ih, crcShift_toBitVec]; rfl

theorem crc32cContinue_cons (s : UInt32) (b : UInt8) (bs : List UInt8) :
    crc32cContinue s (b :: bs) = crc32cContinue (crcShifts 8 (s ^^^ b.toUInt32)) bs := rfl

theorem crc32cContinue_toBitVec (s : UInt32) (bs : List UInt8) :
    (crc32cContinue s bs).toBitVec = Crc.feed castagnoli s.toBitVec bs := by
  induction bs generalizing s with
  | nil => rfl
  | cons b bs ih =>
    rw [crc32cContinue_cons, ih, crcShifts_toBitVec, UInt32.toBitVec_xor]
    rfl

/-- The host's image crate and the kernel run the same loop. -/
theorem Util.crc32cContinue_eq (s : UInt32) (bs : List UInt8) : Util.crc32cContinue s bs = Celium.crc32cContinue s bs := by
  have hbyte : ∀ (s : UInt32) (b : UInt8), Util.crcByte s b = crcShifts 8 (s ^^^ b.toUInt32) := fun _ _ => rfl
  unfold Util.crc32cContinue Celium.crc32cContinue
  rw [funext fun s => funext (hbyte s)]

theorem Util.crc32c_eq (bs : List UInt8) : Util.crc32c bs = Celium.crc32c bs := by
  rw [Util.crc32c, Util.crc32cContinue_eq]
  rfl

theorem crc32cBytes_eq (bs : List UInt8) : crc32cBytes bs = crc32c bs := rfl

theorem crc32cContinue_append (s : UInt32) (as bs : List UInt8) :
    crc32cContinue s (as ++ bs) = crc32cContinue (crc32cContinue s as) bs := List.foldl_append

/-! ## What a change of the bytes does -/

/-- Two texts of one length that differ, and only within four bytes in a row. -/
structure Burst (as bs : List UInt8) : Prop where
  length : as.length = bs.length
  differ : as ≠ bs
  within : ∃ i, ∀ j, j < i ∨ i + 4 ≤ j → as[j]? = bs[j]?

/-- The text with one byte changed. -/
theorem Burst.set {as : List UInt8} {i : Nat} (hi : i < as.length) {b : UInt8} (hb : b ≠ as[i]) : Burst (as.set i b) as := by
  refine ⟨List.length_set, fun h => hb ?_, i, fun j hj => ?_⟩
  · have := congrArg (fun l : List UInt8 => l[i]?) h
    rw [List.getElem?_set_self hi, List.getElem?_eq_getElem hi] at this
    exact Option.some.inj this
  · rw [List.getElem?_set_ne (by omega)]

theorem crc32cContinue_byte_bijective (b : UInt8) : Function.Bijective (fun s => crc32cContinue s [b]) := by
  have hstep : (fun s => crc32cContinue s [b]) = fun s => UInt32.ofBitVec (Crc.byte castagnoli s.toBitVec b) := by
    funext s
    rw [← UInt32.toBitVec_inj, crc32cContinue_toBitVec]
    rfl
  rw [hstep]
  refine (Function.bijective_iff_has_inverse.2 ⟨UInt32.toBitVec, fun _ => rfl, fun _ => rfl⟩ :
    Function.Bijective UInt32.ofBitVec).comp ((Crc.byte_bijective castagnoli_msb b).comp ?_)
  exact Function.bijective_iff_has_inverse.2 ⟨UInt32.ofBitVec, fun _ => rfl, fun _ => rfl⟩

/-- The texts of a burst, cut before it and after it. -/
theorem Burst.split {as bs : List UInt8} (h : Burst as bs) :
    ∃ pre us vs post, as = pre ++ us ++ post ∧ bs = pre ++ vs ++ post ∧ us.length = vs.length ∧ us.length ≤ 4 := by
  obtain ⟨i, hi⟩ := h.within
  have hpre : as.take i = bs.take i := by
    refine List.ext_getElem? fun j => ?_
    rw [List.getElem?_take, List.getElem?_take]
    by_cases hj : j < i
    · rw [if_pos hj, if_pos hj, hi j (.inl hj)]
    · rw [if_neg hj, if_neg hj]
  have hpost : as.drop (i + 4) = bs.drop (i + 4) := by
    refine List.ext_getElem? fun j => ?_
    rw [List.getElem?_drop, List.getElem?_drop, hi _ (.inr (Nat.le_add_right _ j))]
  have hcut : ∀ l : List UInt8, l = l.take i ++ (l.drop i).take 4 ++ l.drop (i + 4) := by
    intro l
    rw [List.append_assoc, ← List.drop_drop, List.take_append_drop, List.take_append_drop]
  refine ⟨as.take i, (as.drop i).take 4, (bs.drop i).take 4, as.drop (i + 4), hcut as, ?_, ?_, ?_⟩
  · rw [hpre, hpost]
    exact hcut bs
  · rw [List.length_take, List.length_take, List.length_drop, List.length_drop, h.length]
  · rw [List.length_take]
    exact Nat.min_le_left _ _

theorem crc32c_ne_of_burst {as bs : List UInt8} (h : Burst as bs) : crc32c as ≠ crc32c bs := by
  obtain ⟨pre, us, vs, post, rfl, rfl, hlen, hfour⟩ := h.split
  have hne : us ≠ vs := fun heq => h.differ (by rw [heq])
  intro heq
  have hcrc := (UInt32.xor_left_inj _).1 heq
  rw [← UInt32.toBitVec_inj, crc32cContinue_toBitVec, crc32cContinue_toBitVec] at hcrc
  exact Crc.feed_ne_of_burst castagnoli_msb _ pre us vs post hlen (by omega) hne hcrc

/-- **CRC-32C can be fed in pieces, is the same in the three crates, takes the states to the states one to one with each
byte, and changes with any byte, or any four in a row.** -/
theorem crc32c_laws (s : UInt32) (as bs : List UInt8) :
    (Util.crc32cContinue s (as ++ bs) = Util.crc32cContinue (Util.crc32cContinue s as) bs ∧
      crc32cContinue s (as ++ bs) = crc32cContinue (crc32cContinue s as) bs) ∧
    (Util.crc32cContinue s as = crc32cContinue s as ∧ Util.crc32c as = crc32c as ∧ crc32cBytes as = crc32c as) ∧
    (∀ b, Function.Bijective (fun s => Util.crc32cContinue s [b]) ∧ Function.Bijective (fun s => crc32cContinue s [b])) ∧
    (∀ i (hi : i < as.length) b, b ≠ as[i] → crc32c (as.set i b) ≠ crc32c as) ∧
    (Burst as bs → crc32c as ≠ crc32c bs) := by
  refine ⟨⟨Util.crc32cContinue_append s as bs, crc32cContinue_append s as bs⟩,
    ⟨Util.crc32cContinue_eq s as, Util.crc32c_eq as, crc32cBytes_eq as⟩, fun b => ⟨?_, crc32cContinue_byte_bijective b⟩,
    fun i hi b hb => crc32c_ne_of_burst (.set hi hb), crc32c_ne_of_burst⟩
  rw [funext fun s => Util.crc32cContinue_eq s [b]]
  exact crc32cContinue_byte_bijective b

end Celium
