import Mathlib.Data.List.Basic
/-!
# Fixed — saturating and checked arithmetic on fixed-width integers

What `saturating_add`, `saturating_sub`, `saturating_mul` and `checked_add` compute on 32- and 64-bit unsigned
integers, read as natural numbers.
-/
namespace Fixed

def u32Max : Nat := 4294967295
def u64Max : Nat := 18446744073709551615

def satAdd32 (a b : UInt32) : UInt32 := UInt32.ofNat (min (a.toNat + b.toNat) u32Max)
def satSub32 (a b : UInt32) : UInt32 := UInt32.ofNat (a.toNat - b.toNat)
def satAdd64 (a b : UInt64) : UInt64 := UInt64.ofNat (min (a.toNat + b.toNat) u64Max)
def satSub64 (a b : UInt64) : UInt64 := UInt64.ofNat (a.toNat - b.toNat)
def satMul64 (a b : UInt64) : UInt64 := UInt64.ofNat (min (a.toNat * b.toNat) u64Max)

/-- `checked_add` on a 64-bit counter. -/
def checkedAdd64 (n m : Nat) : Option Nat := if n + m ≤ u64Max then some (n + m) else none

theorem le_u32Max (a : UInt32) : a.toNat ≤ u32Max := by
  have := a.toNat_lt
  unfold u32Max
  omega

theorem le_u64Max (a : UInt64) : a.toNat ≤ u64Max := by
  have := a.toNat_lt
  unfold u64Max
  omega

@[simp] theorem toNat_satAdd32 (a b : UInt32) : (satAdd32 a b).toNat = min (a.toNat + b.toNat) u32Max := by
  unfold satAdd32 u32Max
  rw [UInt32.toNat_ofNat_of_lt']
  simp only [UInt32.size]
  omega

@[simp] theorem toNat_satAdd64 (a b : UInt64) : (satAdd64 a b).toNat = min (a.toNat + b.toNat) u64Max := by
  unfold satAdd64 u64Max
  rw [UInt64.toNat_ofNat_of_lt']
  simp only [UInt64.size]
  omega

@[simp] theorem toNat_satSub32 (a b : UInt32) : (satSub32 a b).toNat = a.toNat - b.toNat := by
  have := a.toNat_lt
  unfold satSub32
  rw [UInt32.toNat_ofNat_of_lt']
  simp only [UInt32.size]
  omega

@[simp] theorem toNat_satSub64 (a b : UInt64) : (satSub64 a b).toNat = a.toNat - b.toNat := by
  have := a.toNat_lt
  unfold satSub64
  rw [UInt64.toNat_ofNat_of_lt']
  simp only [UInt64.size]
  omega

theorem checkedAdd64_eq_some {n m k : Nat} (h : checkedAdd64 n m = some k) : k = n + m ∧ n + m ≤ u64Max := by
  unfold checkedAdd64 at h
  split at h
  · exact ⟨(Option.some.inj h).symm, ‹_›⟩
  · cases h

end Fixed
