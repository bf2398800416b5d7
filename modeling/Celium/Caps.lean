import Celium.Common
/-!
# Caps — the tenancy capability bitset

`celtenancy::caps`: a raw `u32`, the thirteen named bits, `contains` as the subset test, and `attenuate`, which hands
out a requested set only when it is a subset.  `⊆` is the subset of bits; `contains_iff` says that the code's mask test
is exactly it.
-/
namespace Celium

/-- `TenantCaps(u32)`. -/
structure TenantCaps where
  bits : UInt32
deriving DecidableEq, Repr

namespace TenantCaps

def none : TenantCaps := ⟨0⟩
def bit (n : UInt32) : TenantCaps := ⟨1 <<< n⟩
def vmLifecycleRead : TenantCaps := bit 0
def vmLifecycleWrite : TenantCaps := bit 1
def volumeRead : TenantCaps := bit 2
def volumeWrite : TenantCaps := bit 3
def volumeAttach : TenantCaps := bit 4
def snapshotRead : TenantCaps := bit 5
def snapshotWrite : TenantCaps := bit 6
def networkRead : TenantCaps := bit 7
def networkWrite : TenantCaps := bit 8
def secgroupRead : TenantCaps := bit 9
def secgroupWrite : TenantCaps := bit 10
def lbRead : TenantCaps := bit 11
def lbWrite : TenantCaps := bit 12

def all : TenantCaps :=
  ⟨vmLifecycleRead.bits ||| vmLifecycleWrite.bits ||| volumeRead.bits ||| volumeWrite.bits ||| volumeAttach.bits |||
    snapshotRead.bits ||| snapshotWrite.bits ||| networkRead.bits ||| networkWrite.bits ||| secgroupRead.bits |||
    secgroupWrite.bits ||| lbRead.bits ||| lbWrite.bits⟩

/-- Unknown bits are dropped. -/
def fromBitsTruncate (bits : UInt32) : TenantCaps := ⟨bits &&& all.bits⟩

def contains (self other : TenantCaps) : Bool := (self.bits &&& other.bits) == other.bits

/-- Bit `i` is granted. -/
def has (c : TenantCaps) (i : Nat) : Bool := c.bits.toBitVec.getLsbD i

instance : HasSubset TenantCaps := ⟨fun a b => ∀ i, a.has i = true → b.has i = true⟩

theorem has_and (x y : UInt32) (i : Nat) : has ⟨x &&& y⟩ i = (has ⟨x⟩ i && has ⟨y⟩ i) := by
  simp [has]

/-- **The mask test is the subset test.** -/
theorem contains_iff (a b : TenantCaps) : a.contains b = true ↔ b ⊆ a := by
  have hext : a.bits &&& b.bits = b.bits ↔ ∀ i, (a.has i && b.has i) = b.has i := by
    rw [← UInt32.toBitVec_inj]
    constructor
    · intro h i
      rw [← has_and]
      exact congrArg (·.getLsbD i) h
    · intro h
      exact BitVec.eq_of_getLsbD_eq fun i _ => by simpa [has] using h i
  rw [contains, beq_iff_eq, hext]
  refine forall_congr' fun i => ?_
  cases a.has i <;> cases b.has i <;> simp

instance (a b : TenantCaps) : Decidable (a ⊆ b) := decidable_of_iff _ (contains_iff b a)

theorem subset_trans {a b c : TenantCaps} (h : a ⊆ b) (h' : b ⊆ c) : a ⊆ c := fun i hi => h' i (h i hi)

/-- The intersection `from_bits_truncate(a & b)` of the source is within both sets. -/
theorem truncate_and_subset (a b : TenantCaps) :
    fromBitsTruncate (a.bits &&& b.bits) ⊆ a ∧ fromBitsTruncate (a.bits &&& b.bits) ⊆ b := by
  have h : ∀ i, has (fromBitsTruncate (a.bits &&& b.bits)) i = true → a.has i = true ∧ b.has i = true := by
    intro i hi
    rw [fromBitsTruncate, has_and, has_and, Bool.and_eq_true, Bool.and_eq_true] at hi
    exact hi.1
  exact ⟨fun i hi => (h i hi).1, fun i hi => (h i hi).2⟩

end TenantCaps

/-- `attenuate`: the requested set, if the root set grants it. -/
def attenuate (root requested : TenantCaps) : CelResult TenantCaps :=
  if !root.contains requested then .error (.capabilityDenied "tenant.user.attenuate") else .ok requested

theorem attenuate_ok {root requested caps : TenantCaps} (h : attenuate root requested = .ok caps) :
    caps = requested ∧ caps ⊆ root := by
  unfold attenuate at h
  split at h
  · cases h
  · rename_i hc
    obtain rfl := Except.ok.inj h
    exact ⟨rfl, (TenantCaps.contains_iff root requested).1 (by simpa using hc)⟩

end Celium
