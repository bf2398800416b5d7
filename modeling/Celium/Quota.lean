import Celium.Common
import Celium.Lib.Fixed
/-!
# Quota — ceilings, usage and the charge/release helpers

`celtenancy::quota`.  The five dimensions are one family: `amount` and `ceiling` read a record at a dimension as an
exact natural number, and `chargeQuota_ok_iff` and `amount_releaseQuota` say what the two helpers do at every dimension
at once.  A sum past the integer maximum is clipped there (`satAdd`), so a ceiling at the maximum never refuses.
-/
namespace Celium

open Fixed

structure TenantQuotas where
  maxVcpus : UInt32
  maxMemoryMib : UInt64
  maxStorageBytes : UInt64
  maxNetworkMbps : UInt32
  maxIops : UInt32
deriving DecidableEq, Repr

/-- `TenantQuotas::unlimited`: every ceiling at its integer maximum. -/
def TenantQuotas.unlimited : TenantQuotas :=
  ⟨4294967295, 18446744073709551615, 18446744073709551615, 4294967295, 4294967295⟩

structure QuotaUsage where
  vcpus : UInt32
  memoryMib : UInt64
  storageBytes : UInt64
  networkMbps : UInt32
  iops : UInt32
deriving DecidableEq, Repr

instance : Inhabited QuotaUsage := ⟨⟨0, 0, 0, 0, 0⟩⟩

structure QuotaCharge where
  vcpus : UInt32
  memoryMib : UInt64
  storageBytes : UInt64
  networkMbps : UInt32
  iops : UInt32
deriving DecidableEq, Repr

instance : Inhabited QuotaCharge := ⟨⟨0, 0, 0, 0, 0⟩⟩

def chargeQuota (usage : QuotaUsage) (quotas : TenantQuotas) (charge : QuotaCharge) : CelResult QuotaUsage :=
  let newVcpus := satAdd32 usage.vcpus charge.vcpus
  let newMemory := satAdd64 usage.memoryMib charge.memoryMib
  let newStorage := satAdd64 usage.storageBytes charge.storageBytes
  let newNetwork := satAdd32 usage.networkMbps charge.networkMbps
  let newIops := satAdd32 usage.iops charge.iops
  if newVcpus > quotas.maxVcpus then .error (.exhausted "quota.vcpus")
  else if newMemory > quotas.maxMemoryMib then .error (.exhausted "quota.memory")
  else if newStorage > quotas.maxStorageBytes then .error (.exhausted "quota.storage")
  else if newNetwork > quotas.maxNetworkMbps then .error (.exhausted "quota.network")
  else if newIops > quotas.maxIops then .error (.exhausted "quota.iops")
  else .ok ⟨newVcpus, newMemory, newStorage, newNetwork, newIops⟩

def releaseQuota (usage : QuotaUsage) (charge : QuotaCharge) : QuotaUsage :=
  ⟨satSub32 usage.vcpus charge.vcpus, satSub64 usage.memoryMib charge.memoryMib,
    satSub64 usage.storageBytes charge.storageBytes, satSub32 usage.networkMbps charge.networkMbps,
    satSub32 usage.iops charge.iops⟩

/-! ## The five dimensions as one family -/

inductive Dim where
  | vcpus | memoryMib | storageBytes | networkMbps | iops
deriving DecidableEq, Repr

/-- The largest value the dimension's integer type holds. -/
def Dim.max : Dim → Nat
  | .vcpus | .networkMbps | .iops => u32Max
  | .memoryMib | .storageBytes    => u64Max

def QuotaUsage.amount (u : QuotaUsage) : Dim → Nat
  | .vcpus        => u.vcpus.toNat
  | .memoryMib    => u.memoryMib.toNat
  | .storageBytes => u.storageBytes.toNat
  | .networkMbps  => u.networkMbps.toNat
  | .iops         => u.iops.toNat

def QuotaCharge.amount (c : QuotaCharge) : Dim → Nat
  | .vcpus        => c.vcpus.toNat
  | .memoryMib    => c.memoryMib.toNat
  | .storageBytes => c.storageBytes.toNat
  | .networkMbps  => c.networkMbps.toNat
  | .iops         => c.iops.toNat

def TenantQuotas.ceiling (q : TenantQuotas) : Dim → Nat
  | .vcpus        => q.maxVcpus.toNat
  | .memoryMib    => q.maxMemoryMib.toNat
  | .storageBytes => q.maxStorageBytes.toNat
  | .networkMbps  => q.maxNetworkMbps.toNat
  | .iops         => q.maxIops.toNat

theorem Dim.forall_iff {P : Dim → Prop} :
    (∀ d, P d) ↔ P .vcpus ∧ P .memoryMib ∧ P .storageBytes ∧ P .networkMbps ∧ P .iops :=
  ⟨fun h => ⟨h _, h _, h _, h _, h _⟩, fun ⟨h1, h2, h3, h4, h5⟩ d => by cases d <;> assumption⟩

instance Dim.decidableForall {P : Dim → Prop} [DecidablePred P] : Decidable (∀ d, P d) :=
  decidable_of_iff' _ Dim.forall_iff

@[simp] theorem QuotaUsage.amount_default (d : Dim) : (default : QuotaUsage).amount d = 0 := by
  cases d <;> rfl

@[simp] theorem QuotaCharge.amount_default (d : Dim) : (default : QuotaCharge).amount d = 0 := by
  cases d <;> rfl

theorem QuotaUsage.amount_le_max (u : QuotaUsage) (d : Dim) : u.amount d ≤ d.max := by
  cases d <;> simp [QuotaUsage.amount, Dim.max, le_u32Max, le_u64Max]

theorem QuotaCharge.amount_le_max (c : QuotaCharge) (d : Dim) : c.amount d ≤ d.max := by
  cases d <;> simp [QuotaCharge.amount, Dim.max, le_u32Max, le_u64Max]

/-- A usage is what it amounts to in each dimension. -/
theorem QuotaUsage.ext_amount {u v : QuotaUsage} (h : ∀ d, u.amount d = v.amount d) : u = v := by
  obtain ⟨h1, h2, h3, h4, h5⟩ := Dim.forall_iff.1 h
  simp only [QuotaUsage.amount, UInt32.toNat_inj, UInt64.toNat_inj] at h1 h2 h3 h4 h5
  obtain ⟨a, b, c, d, e⟩ := u
  obtain ⟨a', b', c', d', e'⟩ := v
  simp only at h1 h2 h3 h4 h5
  rw [h1, h2, h3, h4, h5]

/-- The clipped sum of a usage and a charge. -/
def QuotaUsage.plus (u : QuotaUsage) (c : QuotaCharge) : QuotaUsage :=
  ⟨satAdd32 u.vcpus c.vcpus, satAdd64 u.memoryMib c.memoryMib, satAdd64 u.storageBytes c.storageBytes,
    satAdd32 u.networkMbps c.networkMbps, satAdd32 u.iops c.iops⟩

theorem QuotaUsage.amount_plus (u : QuotaUsage) (c : QuotaCharge) (d : Dim) :
    (u.plus c).amount d = min (u.amount d + c.amount d) d.max := by
  cases d <;> simp [QuotaUsage.plus, QuotaUsage.amount, QuotaCharge.amount, Dim.max]

/-- The clipped sum is within the ceiling in every dimension. -/
def Fits (u : QuotaUsage) (q : TenantQuotas) (c : QuotaCharge) : Prop :=
  ∀ d : Dim, min (u.amount d + c.amount d) d.max ≤ q.ceiling d

instance (u : QuotaUsage) (q : TenantQuotas) (c : QuotaCharge) : Decidable (Fits u q c) := Dim.decidableForall

/-- **What a charge does**: accepted when the clipped sum fits, and then the usage is the clipped sum. -/
theorem chargeQuota_ok_iff (u : QuotaUsage) (q : TenantQuotas) (c : QuotaCharge) (u' : QuotaUsage) :
    chargeQuota u q c = .ok u' ↔ Fits u q c ∧ u' = u.plus c := by
  constructor
  · intro h
    simp only [chargeQuota] at h
    split at h; · cases h
    split at h; · cases h
    split at h; · cases h
    split at h; · cases h
    split at h; · cases h
    rename_i h1 h2 h3 h4 h5
    refine ⟨Dim.forall_iff.2 ?_, (Except.ok.inj h).symm⟩
    simp only [gt_iff_lt, UInt32.lt_iff_toNat_lt, UInt64.lt_iff_toNat_lt, Nat.not_lt, toNat_satAdd32,
      toNat_satAdd64] at h1 h2 h3 h4 h5
    exact ⟨h1, h2, h3, h4, h5⟩
  · rintro ⟨hle, rfl⟩
    obtain ⟨h1, h2, h3, h4, h5⟩ := Dim.forall_iff.1 hle
    simp only [QuotaUsage.amount, QuotaCharge.amount, TenantQuotas.ceiling, Dim.max] at h1 h2 h3 h4 h5
    simp only [chargeQuota, QuotaUsage.plus, gt_iff_lt, UInt32.lt_iff_toNat_lt, UInt64.lt_iff_toNat_lt, toNat_satAdd32,
      toNat_satAdd64, Nat.not_lt.2 h1, Nat.not_lt.2 h2, Nat.not_lt.2 h3, Nat.not_lt.2 h4, Nat.not_lt.2 h5, if_false]

theorem amount_releaseQuota (u : QuotaUsage) (c : QuotaCharge) (d : Dim) :
    (releaseQuota u c).amount d = u.amount d - c.amount d := by
  cases d <;> simp [releaseQuota, QuotaUsage.amount, QuotaCharge.amount]

/-- A refused charge is `Exhausted`, never `Internal`. -/
theorem chargeQuota_error {u : QuotaUsage} {q : TenantQuotas} {c : QuotaCharge} {e : CelError}
    (h : chargeQuota u q c = .error e) : e.isInternal = false := by
  simp only [chargeQuota] at h
  repeat' split at h
  all_goals cases h <;> rfl

end Celium
