import Celium.Auth
import Celium.Quota
/-!
# Tenant — identities, names and the stored records

`celtenancy::tenant`, `::user` and `::namespace`.  A `TenantSpec` can also be deserialised or built field by field, so
its name is any string; `validateSegment` is the only check on it, and `TenantNamespace.new` runs it.
-/
namespace Celium

def isAsciiAlphanumeric (b : UInt8) : Bool := (48 ≤ b && b ≤ 57) || (65 ≤ b && b ≤ 90) || (97 ≤ b && b ≤ 122)

def validateSegment (s : String) : CelResult Unit :=
  if s.isEmpty then .error (.invalid "tenancy: name empty")
  else if s.utf8ByteSize > 64 then .error (.invalid "tenancy: name longer than 64 bytes")
  else if !(utf8 s).all (fun b => isAsciiAlphanumeric b || b == 45 || b == 95) then
    .error (.invalid "tenancy: name must match [A-Za-z0-9_-]+")
  else .ok ()

structure TenantNamespace where
  root : String
deriving DecidableEq, Repr

def TenantNamespace.new (tenantName : String) : CelResult TenantNamespace :=
  match validateSegment tenantName with
  | .error e => .error e
  | .ok () => .ok ⟨"/tenants/" ++ tenantName⟩

structure User where
  id : UserId
  name : String
  caps : TenantCaps
  passwordHash : Option PasswordHashStr
deriving DecidableEq, Repr

structure TenantSpec where
  name : String
  quotas : TenantQuotas
  parent : Option TenantId
deriving DecidableEq, Repr

def TenantSpec.new (name : String) (quotas : TenantQuotas) : CelResult TenantSpec :=
  match validateSegment name with
  | .error e => .error e
  | .ok () => .ok ⟨name, quotas, none⟩

def TenantSpec.withParent (spec : TenantSpec) (parent : TenantId) : TenantSpec := { spec with parent := some parent }

structure Tenant where
  id : TenantId
  name : String
  namespace_ : String
  rootCaps : TenantCaps
  users : List User
  quotas : TenantQuotas
  usage : QuotaUsage
  parent : Option TenantId
deriving DecidableEq, Repr

theorem TenantNamespace.new_ok {name : String} {ns : TenantNamespace} (h : TenantNamespace.new name = .ok ns) :
    validateSegment name = .ok () := by
  unfold TenantNamespace.new at h
  split at h
  · cases h
  · assumption

end Celium
