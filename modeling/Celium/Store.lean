import Celium.Tenant
import Mathlib.Data.List.AList
import Mathlib.Data.List.Sort
/-!
# Store — the tenant store's state and its operations

`celtenancy::store::StoreState`, operation by operation.  A method that takes `&mut self` returns its `CelResult` beside
the state it leaves, so a failure that has already changed something shows.  The two `HashMap`s are association lists
without duplicate keys; where a method's answer depends on the order a map iterates in, that order is an argument.
-/
namespace Celium

open Fixed

structure StoreState where
  nextTenantId : Nat
  nextUserId : Nat
  tenants : AList (fun _ : Nat => Tenant)
  byName : AList (fun _ : String => Nat)
  sessions : List Session
deriving DecidableEq

/-- `StoreState::default()`. -/
instance : Inhabited StoreState := ⟨⟨0, 0, ∅, ∅, []⟩⟩

structure RotateReport where
  tenant : TenantId
  tenantName : String
  oldCaps : TenantCaps
  newCaps : TenantCaps
  attenuatedUsers : Nat
  revokedSessions : Nat
deriving DecidableEq, Repr

structure DeleteReport where
  deletedTenants : List (TenantId × String)
  revokedSessions : Nat
  droppedUsers : Nat
deriving DecidableEq, Repr

instance : Inhabited DeleteReport := ⟨⟨[], 0, 0⟩⟩

namespace StoreState

/-- The tenant records, in one order the map may iterate in. -/
def values (s : StoreState) : List Tenant := s.tenants.entries.map (·.2)

/-- Write a record back under its key, as an assignment through `get_mut` does. -/
def put (s : StoreState) (id : Nat) (t : Tenant) : StoreState := { s with tenants := s.tenants.insert id t }

/-! ## Tenants and users -/

/-- What `create` asks of a subtenant: the parent exists, grants the caps and has the quotas. -/
def checkSubtenant (s : StoreState) (spec : TenantSpec) (rootCaps : TenantCaps) : CelResult Unit :=
  match spec.parent with
  | none => .ok ()
  | some parentId =>
    match s.tenants.lookup parentId.raw with
    | none => .error (.invalid "parent tenant id unknown")
    | some parent =>
      if !parent.rootCaps.contains rootCaps then .error (.capabilityDenied "subtenant caps exceed parent")
      else
        let q := spec.quotas
        let pq := parent.quotas
        if q.maxVcpus > pq.maxVcpus ∨ q.maxMemoryMib > pq.maxMemoryMib ∨ q.maxStorageBytes > pq.maxStorageBytes ∨
            q.maxNetworkMbps > pq.maxNetworkMbps ∨ q.maxIops > pq.maxIops then
          .error (.invalid "subtenant quotas exceed parent quotas")
        else .ok ()

def create (s : StoreState) (spec : TenantSpec) (rootCaps : TenantCaps) : CelResult Tenant × StoreState :=
  if (s.byName.lookup spec.name).isSome then (.error (.storage ("tenant already exists: " ++ spec.name)), s)
  else match s.checkSubtenant spec rootCaps with
    | .error e => (.error e, s)
    | .ok () =>
      match checkedAdd64 s.nextTenantId 1 with
      | none => (.error (.internal "tenant id overflow"), s)
      | some idRaw =>
        -- the counter moves before the name is validated
        let s := { s with nextTenantId := idRaw }
        match TenantNamespace.new spec.name with
        | .error e => (.error e, s)
        | .ok ns =>
          let tenant : Tenant :=
            { id := ⟨idRaw⟩, name := spec.name, namespace_ := ns.root, rootCaps := rootCaps, users := [],
              quotas := spec.quotas, usage := default, parent := spec.parent }
          (.ok tenant, { s with byName := s.byName.insert spec.name idRaw, tenants := s.tenants.insert idRaw tenant })

def delete (s : StoreState) (id : TenantId) : CelResult Unit × StoreState :=
  match s.tenants.lookup id.raw with
  | none => (.error (.invalid "tenant id unknown"), s)
  | some t =>
    if s.values.any (fun child => child.parent == some id) then (.error (.invalid "tenant has subtenants"), s)
    else if t.usage ≠ default then (.error (.invalid "tenant in use"), s)
    else (.ok (), { s with tenants := s.tenants.erase id.raw, byName := s.byName.erase t.name })

def addUser (s : StoreState) (tenant : TenantId) (userName : String) (requestedCaps : TenantCaps) :
    CelResult User × StoreState :=
  match validateSegment userName with
  | .error e => (.error e, s)
  | .ok () =>
    match s.tenants.lookup tenant.raw with
    | none => (.error (.invalid "tenant id unknown"), s)
    | some t =>
      if t.users.any (fun u => u.name == userName) then (.error (.storage ("user already exists: " ++ userName)), s)
      else match attenuate t.rootCaps requestedCaps with
        | .error e => (.error e, s)
        | .ok caps =>
          match checkedAdd64 s.nextUserId 1 with
          | none => (.error (.internal "user id overflow"), s)
          | some idRaw =>
            let user : User := { id := ⟨idRaw⟩, name := userName, caps := caps, passwordHash := none }
            (.ok user, { s with nextUserId := idRaw }.put tenant.raw { t with users := t.users ++ [user] })

def removeUser (s : StoreState) (tenant : TenantId) (user : UserId) : CelResult Unit × StoreState :=
  match s.tenants.lookup tenant.raw with
  | none => (.error (.invalid "tenant id unknown"), s)
  | some t =>
    let s := s.put tenant.raw { t with users := t.users.filter (fun u => u.id ≠ user) }
    (.ok (), { s with sessions := s.sessions.filter (fun ss => !(ss.tenant == tenant && ss.user == user)) })

/-! ## Charge and release along the ancestor chain -/

/-- `chain_from`'s loop.  `left` is how many more levels it walks before it gives up: `65 - depth`. -/
def chainLoop (s : StoreState) : Nat → Option TenantId → CelResult (List TenantId)
  | _, none          => .ok []
  | 0, some _        => .error (.internal "tenant hierarchy too deep")
  | left + 1, some tid =>
    match s.tenants.lookup tid.raw with
    | none => .error (.invalid "tenant id unknown")
    | some t =>
      match s.chainLoop left t.parent with
      | .error e => .error e
      | .ok rest => .ok (tid :: rest)

/-- `chain_from`: the tenant, its parent, and so on to the root. -/
def chainFrom (s : StoreState) (tenant : TenantId) : CelResult (List TenantId) := s.chainLoop 65 (some tenant)

/-- The validation pass of `charge`.  The source re-tags an ancestor's `Exhausted` with its own tag, which changes
nothing. -/
def chargeCheck (s : StoreState) (charge : QuotaCharge) : List TenantId → CelResult Unit
  | [] => .ok ()
  | tid :: rest =>
    match s.tenants.lookup tid.raw with
    | none => .error (.internal "tenant disappeared mid-charge")
    | some t =>
      match chargeQuota t.usage t.quotas charge with
      | .error e => .error e
      | .ok _ => s.chargeCheck charge rest

/-- The loop that writes a new usage at every level of a chain; `gone` is the error of a level that is not there, `i`
the position on the chain and `newSelf` the answer so far. -/
def usageLoop (gone : CelError) (new : Tenant → CelResult QuotaUsage) : List TenantId → Nat → QuotaUsage → StoreState →
    CelResult QuotaUsage × StoreState
  | [], _, newSelf, s => (.ok newSelf, s)
  | tid :: rest, i, newSelf, s =>
    match s.tenants.lookup tid.raw with
    | none => (.error gone, s)
    | some t =>
      match new t with
      | .error e => (.error e, s)
      | .ok u => usageLoop gone new rest (i + 1) (if i = 0 then u else newSelf) (s.put tid.raw { t with usage := u })

/-- The mutation pass of `charge`. -/
def chargeApply (charge : QuotaCharge) (chain : List TenantId) (s : StoreState) : CelResult QuotaUsage × StoreState :=
  usageLoop (.internal "tenant disappeared mid-charge")
    (fun t => match chargeQuota t.usage t.quotas charge with
      | .error _ => .error (.internal "quota validation race")
      | .ok new => .ok new)
    chain 0 default s

def charge (s : StoreState) (tenant : TenantId) (charge : QuotaCharge) : CelResult QuotaUsage × StoreState :=
  match s.chainFrom tenant with
  | .error e => (.error e, s)
  | .ok chain =>
    match s.chargeCheck charge chain with
    | .error e => (.error e, s)
    | .ok () => chargeApply charge chain s

def releaseApply (charge : QuotaCharge) (chain : List TenantId) (s : StoreState) : CelResult QuotaUsage × StoreState :=
  usageLoop (.internal "tenant disappeared mid-release") (fun t => .ok (releaseQuota t.usage charge)) chain 0 default s

def release (s : StoreState) (tenant : TenantId) (charge : QuotaCharge) : CelResult QuotaUsage × StoreState :=
  match s.chainFrom tenant with
  | .error e => (.error e, s)
  | .ok chain => releaseApply charge chain s

/-! ## Passwords and sessions -/

def setPassword (cr : Crypto) (s : StoreState) (tenant : TenantId) (user : UserId) (plain : String)
    (salt : List UInt8) : CelResult Unit × StoreState :=
  match hashPassword cr plain salt with
  | .error e => (.error e, s)
  | .ok hash =>
    match s.tenants.lookup tenant.raw with
    | none => (.error (.invalid "tenant id unknown"), s)
    | some t =>
      match t.users.findIdx? (fun u => u.id == user) with
      | none => (.error (.invalid "user id unknown"), s)
      | some i =>
        let s := s.put tenant.raw { t with users := t.users.modify i (fun u => { u with passwordHash := some hash }) }
        (.ok (), { s with sessions := s.sessions.filter (fun ss => !(ss.tenant == tenant && ss.user == user)) })

def authenticate (cr : Crypto) (s : StoreState) (tenantName userName password : String) :
    CelResult (TenantId × UserId × TenantCaps) :=
  let denied := CelError.capabilityDenied "auth.credentials"
  match s.byName.lookup tenantName with
  | none => .error denied
  | some tid =>
    match s.tenants.lookup tid with
    | none => .error denied
    | some t =>
      match t.users.find? (fun u => u.name == userName) with
      | none => .error denied
      | some u =>
        match u.passwordHash with
        | none => .error denied
        | some hash =>
          match verifyPassword cr password hash with
          | .error _ => .error denied
          | .ok () => .ok (⟨tid⟩, u.id, u.caps)

def createSession (cr : Crypto) (s : StoreState) (tenant : TenantId) (user : UserId) (requestedCaps : TenantCaps)
    (ttlSecs : Option UInt64) (rand : Vector UInt8 32) (nowMs : UInt64) :
    CelResult (SessionToken × Session) × StoreState :=
  match s.tenants.lookup tenant.raw with
  | none => (.error (.invalid "tenant id unknown"), s)
  | some t =>
    match t.users.find? (fun u => u.id == user) with
    | none => (.error (.invalid "user id unknown"), s)
    | some u =>
      let caps := TenantCaps.fromBitsTruncate (u.caps.bits &&& requestedCaps.bits)
      let (token, tokenHash) := mintToken cr rand
      let ttlMs := satMul64 (ttlSecs.getD defaultSessionTtlSecs) 1000
      let session : Session :=
        { tokenHash, tenant, user, userName := u.name, caps, createdMs := nowMs, expiresMs := satAdd64 nowMs ttlMs }
      (.ok (token, session),
        { s with sessions := s.sessions.filter (fun ss => ss.tokenHash ≠ tokenHash) ++ [session] })

def validateToken (cr : Crypto) (s : StoreState) (token : SessionToken) (nowMs : UInt64) : CelResult Session :=
  match s.sessions.find? (fun ss => ss.tokenHash == hashToken cr token) with
  | none => .error (.capabilityDenied "auth.session")
  | some ss => if ss.isExpiredAt nowMs then .error (.capabilityDenied "auth.session") else .ok ss

def revokeToken (cr : Crypto) (s : StoreState) (token : SessionToken) : CelResult Unit × StoreState :=
  (.ok (), { s with sessions := s.sessions.filter (fun ss => ss.tokenHash ≠ hashToken cr token) })

/-- Keep the sessions `keep` accepts, and count the others. -/
def retainSessions (s : StoreState) (keep : Session → Bool) : Nat × StoreState :=
  let kept := s.sessions.filter keep
  (s.sessions.length - kept.length, { s with sessions := kept })

def purgeExpiredSessions (s : StoreState) (nowMs : UInt64) : Nat × StoreState :=
  s.retainSessions (fun ss => !ss.isExpiredAt nowMs)

def revokeUserSessions (s : StoreState) (tenant : TenantId) (user : UserId) : CelResult Nat × StoreState :=
  if (s.tenants.lookup tenant.raw).isNone then (.error (.invalid "tenant id unknown"), s)
  else
    let (n, s) := s.retainSessions (fun ss => !(ss.tenant == tenant && ss.user == user))
    (.ok n, s)

def revokeTenantSessions (s : StoreState) (tenant : TenantId) : CelResult Nat × StoreState :=
  if (s.tenants.lookup tenant.raw).isNone then (.error (.invalid "tenant id unknown"), s)
  else
    let (n, s) := s.retainSessions (fun ss => ss.tenant ≠ tenant)
    (.ok n, s)

/-! ## Cap rotation and recursive delete -/

def narrowed (newCaps : TenantCaps) (u : User) : TenantCaps :=
  TenantCaps.fromBitsTruncate (u.caps.bits &&& newCaps.bits)

def checkRotate (s : StoreState) (parent : Option TenantId) (newCaps : TenantCaps) : CelResult Unit :=
  match parent with
  | none => .ok ()
  | some parentId =>
    match s.tenants.lookup parentId.raw with
    | none => .error (.internal "parent tenant disappeared")
    | some p =>
      if !p.rootCaps.contains newCaps then .error (.capabilityDenied "rotated caps exceed parent") else .ok ()

def rotateRootCaps (s : StoreState) (tenant : TenantId) (newCaps : TenantCaps) :
    CelResult RotateReport × StoreState :=
  match s.tenants.lookup tenant.raw with
  | none => (.error (.invalid "tenant id unknown"), s)
  | some t =>
    match s.checkRotate t.parent newCaps with
    | .error e => (.error e, s)
    | .ok () =>
      let users := t.users.map (fun u => if narrowed newCaps u ≠ u.caps then { u with caps := narrowed newCaps u } else u)
      let attenuatedUsers := (t.users.filter (fun u => narrowed newCaps u ≠ u.caps)).length
      let s := s.put tenant.raw { t with rootCaps := newCaps, users := users }
      let (revoked, s) := s.retainSessions (fun ss => ss.tenant ≠ tenant)
      (.ok { tenant, tenantName := t.name, oldCaps := t.rootCaps, newCaps, attenuatedUsers, revokedSessions := revoked },
        s)

/-- The ids of the tenants whose parent is `root`, in the order the map iterates in. -/
def kidsOf (s : StoreState) (ord : HashOrder Tenant) (root : TenantId) : List TenantId :=
  ((ord.arrange s.values).filter (fun t => t.parent == some root)).map (·.id)

/-- `walk`: the subtree of `root` after `out`, children before parents.  `left` is `65 - depth`. -/
def walk (s : StoreState) (ord : HashOrder Tenant) : Nat → TenantId → List TenantId → CelResult (List TenantId)
  | 0, _, _ => .error (.internal "tenant hierarchy too deep")
  | left + 1, root, out =>
    match (s.kidsOf ord root).foldlM (fun out k => s.walk ord left k out) out with
    | .error e => .error e
    | .ok out => .ok (out ++ [root])

/-- The validation pass of `delete_tenant_recursive`. -/
def checkUnused (s : StoreState) : List TenantId → CelResult Unit
  | [] => .ok ()
  | tid :: rest =>
    match s.tenants.lookup tid.raw with
    | none => .error (.internal "subtree node vanished")
    | some t => if t.usage ≠ default then .error (.invalid "tenant in use") else s.checkUnused rest

/-- The mutation pass of `delete_tenant_recursive`. -/
def removeAll : List TenantId → DeleteReport → StoreState → CelResult DeleteReport × StoreState
  | [], report, s => (.ok report, s)
  | tid :: rest, report, s =>
    let (revoked, s) := s.retainSessions (fun ss => ss.tenant ≠ tid)
    let report := { report with revokedSessions := report.revokedSessions + revoked }
    match s.tenants.lookup tid.raw with
    | none => (.error (.internal "subtree node vanished"), s)
    | some t =>
      removeAll rest
        { report with droppedUsers := report.droppedUsers + t.users.length,
                      deletedTenants := report.deletedTenants ++ [(tid, t.name)] }
        { s with tenants := s.tenants.erase tid.raw, byName := s.byName.erase t.name }

def deleteTenantRecursive (s : StoreState) (tenant : TenantId) (ord : HashOrder Tenant) :
    CelResult DeleteReport × StoreState :=
  if (s.tenants.lookup tenant.raw).isNone then (.error (.invalid "tenant id unknown"), s)
  else match s.walk ord 65 tenant [] with
    | .error e => (.error e, s)
    | .ok subtree =>
      match s.checkUnused subtree with
      | .error e => (.error e, s)
      | .ok () => removeAll subtree default s

/-! ## Reads -/

def get (s : StoreState) (id : TenantId) : CelResult Tenant :=
  match s.tenants.lookup id.raw with
  | none => .error (.invalid "tenant id unknown")
  | some t => .ok t

def getByName (s : StoreState) (name : String) : CelResult Tenant :=
  match s.byName.lookup name with
  | none => .error (.invalid "tenant name unknown")
  | some id =>
    match s.tenants.lookup id with
    | none => .error (.internal "tenant index out of sync")
    | some t => .ok t

def list (s : StoreState) : List Tenant := s.values.insertionSort (fun a b => a.id.raw ≤ b.id.raw)

/-- `TenantStore::children`. -/
def children (s : StoreState) (parent : TenantId) : List Tenant := s.list.filter (fun t => t.parent == some parent)

/-- The loop of `TenantStore::ancestors`; `left` is `65 - depth`. -/
def ancestorsLoop (s : StoreState) : Nat → Option TenantId → CelResult (List Tenant)
  | _, none        => .ok []
  | 0, some _      => .error (.internal "tenant hierarchy too deep")
  | left + 1, some p =>
    match s.get p with
    | .error e => .error e
    | .ok t =>
      match s.ancestorsLoop left t.parent with
      | .error e => .error e
      | .ok rest => .ok (t :: rest)

/-- `TenantStore::ancestors`: the parent first, the tenant itself left out. -/
def ancestors (s : StoreState) (id : TenantId) : CelResult (List Tenant) :=
  match s.get id with
  | .error e => .error e
  | .ok t => s.ancestorsLoop 65 t.parent

end StoreState

/-! ## One call of the store -/

/-- The fourteen operations that may change the store, each with its arguments and with what the call draws from its
surroundings: a salt, a token's random bytes, the clock, a hash map's iteration order. -/
inductive Op where
  | create (spec : TenantSpec) (rootCaps : TenantCaps)
  | delete (id : TenantId)
  | addUser (tenant : TenantId) (userName : String) (requestedCaps : TenantCaps)
  | removeUser (tenant : TenantId) (user : UserId)
  | charge (tenant : TenantId) (charge : QuotaCharge)
  | release (tenant : TenantId) (charge : QuotaCharge)
  | setPassword (tenant : TenantId) (user : UserId) (plain : String) (salt : List UInt8)
  | createSession (tenant : TenantId) (user : UserId) (requestedCaps : TenantCaps) (ttlSecs : Option UInt64)
      (rand : Vector UInt8 32) (nowMs : UInt64)
  | revokeToken (token : SessionToken)
  | purgeExpiredSessions (nowMs : UInt64)
  | revokeUserSessions (tenant : TenantId) (user : UserId)
  | revokeTenantSessions (tenant : TenantId)
  | rotateRootCaps (tenant : TenantId) (newCaps : TenantCaps)
  | deleteTenantRecursive (tenant : TenantId) (ord : HashOrder Tenant)

/-- What a call answers. -/
inductive Reply where
  | done
  | tenant (t : Tenant)
  | user (u : User)
  | usage (u : QuotaUsage)
  | minted (token : SessionToken) (session : Session)
  | count (n : Nat)
  | rotated (report : RotateReport)
  | deleted (report : DeleteReport)
deriving DecidableEq

/-- An answer read as a `Reply`; the state is kept. -/
def answer {α : Type} (reply : α → Reply) (r : CelResult α × StoreState) : CelResult Reply × StoreState :=
  (r.1.map reply, r.2)

@[simp] theorem answer_snd {α : Type} (reply : α → Reply) (r : CelResult α × StoreState) : (answer reply r).2 = r.2 := rfl

def step (cr : Crypto) (s : StoreState) : Op → CelResult Reply × StoreState
  | .create spec rootCaps => answer .tenant (s.create spec rootCaps)
  | .delete id => answer (fun _ => .done) (s.delete id)
  | .addUser tenant userName requestedCaps => answer .user (s.addUser tenant userName requestedCaps)
  | .removeUser tenant user => answer (fun _ => .done) (s.removeUser tenant user)
  | .charge tenant c => answer .usage (s.charge tenant c)
  | .release tenant c => answer .usage (s.release tenant c)
  | .setPassword tenant user plain salt => answer (fun _ => .done) (s.setPassword cr tenant user plain salt)
  | .createSession tenant user requestedCaps ttlSecs rand nowMs =>
    answer (fun r => .minted r.1 r.2) (s.createSession cr tenant user requestedCaps ttlSecs rand nowMs)
  | .revokeToken token => answer (fun _ => .done) (s.revokeToken cr token)
  | .purgeExpiredSessions nowMs =>
    let (n, s) := s.purgeExpiredSessions nowMs
    (.ok (.count n), s)
  | .revokeUserSessions tenant user => answer .count (s.revokeUserSessions tenant user)
  | .revokeTenantSessions tenant => answer .count (s.revokeTenantSessions tenant)
  | .rotateRootCaps tenant newCaps => answer .rotated (s.rotateRootCaps tenant newCaps)
  | .deleteTenantRecursive tenant ord => answer .deleted (s.deleteTenantRecursive tenant ord)

end Celium
