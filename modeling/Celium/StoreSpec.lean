import Celium.Store
import Celium.Lib.Assoc
/-!
# StoreSpec — what one call of the store can do

`step_effect` is the inversion of `step`: whatever a call answers, the state it leaves is one of the cases of `Effect`,
with the guards that let the call get there.  Every invariant of the store is derived from it.  The recursive delete is
a sequence of single removals, each of a tenant without children.
-/
namespace Celium

open Fixed

namespace StoreState

/-- The parent of a new tenant, if it names one, is live, grants the caps and has the quotas. -/
def ParentGrants (s : StoreState) (spec : TenantSpec) (rootCaps : TenantCaps) : Prop :=
  ∀ p, spec.parent = some p → ∃ pt, s.tenants.lookup p.raw = some pt ∧ rootCaps ⊆ pt.rootCaps ∧
    ∀ d, spec.quotas.ceiling d ≤ pt.quotas.ceiling d

/-- `create` gets as far as the name: it is not taken, the parent grants the request and an id is left. -/
structure Admits (s : StoreState) (spec : TenantSpec) (rootCaps : TenantCaps) : Prop where
  fresh : s.byName.lookup spec.name = none
  parent : s.ParentGrants spec rootCaps
  room : s.nextTenantId + 1 ≤ u64Max

/-- A record is added under the next id. -/
structure Grows (s : StoreState) (t : Tenant) (s' : StoreState) : Prop where
  id : t.id = ⟨s.nextTenantId + 1⟩
  fresh : s.byName.lookup t.name = none
  valid : validateSegment t.name = .ok ()
  parent : ∀ p, t.parent = some p → ∃ pt, s.tenants.lookup p.raw = some pt ∧ t.rootCaps ⊆ pt.rootCaps ∧
    ∀ d, t.quotas.ceiling d ≤ pt.quotas.ceiling d
  users : t.users = []
  usage : t.usage = default
  eq : s' = { s with nextTenantId := s.nextTenantId + 1, byName := s.byName.insert t.name (s.nextTenantId + 1),
                     tenants := s.tenants.insert (s.nextTenantId + 1) t }

/-- An unused record without children is removed; of the sessions, those `keep` accepts stay. -/
structure Drops (keep : Session → Bool) (s : StoreState) (id : TenantId) (t : Tenant) (s' : StoreState) : Prop where
  live : s.tenants.lookup id.raw = some t
  leaf : ∀ j c, s.tenants.lookup j = some c → c.parent ≠ some id
  unused : t.usage = default
  eq : s' = { s with tenants := s.tenants.erase id.raw, byName := s.byName.erase t.name,
                     sessions := s.sessions.filter keep }

/-- The tenants on a chain get a new usage; nothing else changes. -/
structure Recounts (s : StoreState) (chain : List TenantId) (f : Tenant → QuotaUsage) (s' : StoreState) : Prop where
  lookup : ∀ i, s'.tenants.lookup i =
    (s.tenants.lookup i).map (fun t => if ⟨i⟩ ∈ chain then { t with usage := f t } else t)
  nextTenantId : s'.nextTenantId = s.nextTenantId
  nextUserId : s'.nextUserId = s.nextUserId
  byName : s'.byName = s.byName
  sessions : s'.sessions = s.sessions

/-- One record's users or caps are rewritten; of the sessions, those `keep` accepts stay. -/
structure Retouches (keep : Session → Bool) (s : StoreState) (id : TenantId) (t t' : Tenant) (s' : StoreState) :
    Prop where
  live : s.tenants.lookup id.raw = some t
  same : t'.id = t.id ∧ t'.name = t.name ∧ t'.parent = t.parent ∧ t'.quotas = t.quotas ∧ t'.usage = t.usage
  tenants : s'.tenants = s.tenants.insert id.raw t'
  nextTenantId : s'.nextTenantId = s.nextTenantId
  byName : s'.byName = s.byName
  sessions : s'.sessions = s.sessions.filter keep

/-- The sessions of one tenant are revoked and the record is removed. -/
def Prunes (s s' : StoreState) : Prop := ∃ id t, Drops (fun ss => ss.tenant ≠ id) s id t s'

end StoreState

open StoreState

/-- The states a call can leave. -/
inductive Effect (cr : Crypto) (s : StoreState) : Op → StoreState → Prop
  | same {op : Op} : Effect cr s op s
  /-- A `create` with a bad name, refused after the counter has moved. -/
  | bumped {spec : TenantSpec} {rootCaps : TenantCaps} (admits : s.Admits spec rootCaps)
      (bad : validateSegment spec.name ≠ .ok ()) :
      Effect cr s (.create spec rootCaps) { s with nextTenantId := s.nextTenantId + 1 }
  | grown {spec : TenantSpec} {rootCaps : TenantCaps} {t : Tenant} {s' : StoreState} (h : s.Grows t s')
      (admits : s.Admits spec rootCaps) (spec_eq : spec = ⟨t.name, t.quotas, t.parent⟩) :
      Effect cr s (.create spec rootCaps) s'
  | dropped {id : TenantId} {t : Tenant} {s' : StoreState} (h : Drops (fun _ => true) s id t s') :
      Effect cr s (.delete id) s'
  | userAdded {tenant : TenantId} {userName : String} {requestedCaps : TenantCaps} {t : Tenant} {u : User}
      {s' : StoreState} (h : Retouches (fun _ => true) s tenant t { t with users := t.users ++ [u] } s')
      (id : u.id = ⟨s.nextUserId + 1⟩) (next : s'.nextUserId = s.nextUserId + 1)
      (name : ∀ v ∈ t.users, v.name ≠ u.name) (caps : u.caps ⊆ t.rootCaps) :
      Effect cr s (.addUser tenant userName requestedCaps) s'
  | userRemoved {tenant : TenantId} {user : UserId} {t : Tenant} {s' : StoreState}
      (h : Retouches (fun ss => !(ss.tenant == tenant && ss.user == user)) s tenant t
        { t with users := t.users.filter (fun u => u.id ≠ user) } s') (next : s'.nextUserId = s.nextUserId) :
      Effect cr s (.removeUser tenant user) s'
  | passwordSet {tenant : TenantId} {user : UserId} {plain : String} {salt : List UInt8} {t : Tenant} {i : Nat}
      {hash : PasswordHashStr} {s' : StoreState}
      (h : Retouches (fun ss => !(ss.tenant == tenant && ss.user == user)) s tenant t
        { t with users := t.users.modify i (fun u => { u with passwordHash := some hash }) } s')
      (next : s'.nextUserId = s.nextUserId) : Effect cr s (.setPassword tenant user plain salt) s'
  | sessionMinted {tenant : TenantId} {user : UserId} {requestedCaps : TenantCaps} {ttlSecs : Option UInt64}
      {rand : Vector UInt8 32} {nowMs : UInt64} {t : Tenant} {u : User} {session : Session}
      (live : s.tenants.lookup tenant.raw = some t) (mem : u ∈ t.users) (id : u.id = user)
      (names : session.tenant = tenant ∧ session.user = user) (caps : session.caps ⊆ u.caps) :
      Effect cr s (.createSession tenant user requestedCaps ttlSecs rand nowMs)
        { s with sessions := s.sessions.filter (fun ss => ss.tokenHash ≠ session.tokenHash) ++ [session] }
  | sessionsRetained {op : Op} (keep : Session → Bool) : Effect cr s op { s with sessions := s.sessions.filter keep }
  | rotated {tenant : TenantId} {newCaps : TenantCaps} {t : Tenant} {s' : StoreState}
      (ceiling : ∀ p, t.parent = some p → ∃ pt, s.tenants.lookup p.raw = some pt ∧ newCaps ⊆ pt.rootCaps)
      (h : Retouches (fun ss => ss.tenant ≠ tenant) s tenant t
        { t with rootCaps := newCaps,
                 users := t.users.map (fun u => if narrowed newCaps u ≠ u.caps then
                   { u with caps := narrowed newCaps u } else u) } s')
      (next : s'.nextUserId = s.nextUserId) : Effect cr s (.rotateRootCaps tenant newCaps) s'
  | charged {tenant : TenantId} {c : QuotaCharge} {chain : List TenantId} {s' : StoreState}
      (h : Recounts s chain (fun t => t.usage.plus c) s')
      (fits : ∀ i t, s.tenants.lookup i = some t → ⟨i⟩ ∈ chain → Fits t.usage t.quotas c) :
      Effect cr s (.charge tenant c) s'
  | released {tenant : TenantId} {c : QuotaCharge} {chain : List TenantId} {s' : StoreState}
      (h : Recounts s chain (fun t => releaseQuota t.usage c) s') : Effect cr s (.release tenant c) s'
  | takenApart {tenant : TenantId} {ord : HashOrder Tenant} {s' : StoreState} (h : Relation.ReflTransGen Prunes s s') :
      Effect cr s (.deleteTenantRecursive tenant ord) s'

/-! ## Operation by operation -/

namespace StoreState

variable (cr : Crypto) (s : StoreState)

theorem checkSubtenant_cases (spec : TenantSpec) (rootCaps : TenantCaps) :
    (∃ e, s.checkSubtenant spec rootCaps = .error e ∧ ¬ s.ParentGrants spec rootCaps) ∨
    s.checkSubtenant spec rootCaps = .ok () ∧ s.ParentGrants spec rootCaps := by
  unfold checkSubtenant ParentGrants
  split
  · rename_i hp
    exact .inr ⟨rfl, fun p h => by rw [hp] at h; cases h⟩
  rename_i p hp
  simp only [hp, Option.some.injEq, forall_eq']
  split
  · rename_i hpt
    refine .inl ⟨_, rfl, fun ⟨pt, h, _⟩ => ?_⟩
    rw [hpt] at h
    cases h
  rename_i pt hpt
  rw [hpt]
  simp only [Option.some.injEq, exists_eq_left', ← TenantCaps.contains_iff]
  split
  · rename_i hc
    exact .inl ⟨_, rfl, fun h => by simp [h.1] at hc⟩
  rename_i hc
  have hquota : (∀ d, spec.quotas.ceiling d ≤ pt.quotas.ceiling d) ↔
      ¬ (spec.quotas.maxVcpus > pt.quotas.maxVcpus ∨ spec.quotas.maxMemoryMib > pt.quotas.maxMemoryMib ∨
        spec.quotas.maxStorageBytes > pt.quotas.maxStorageBytes ∨
        spec.quotas.maxNetworkMbps > pt.quotas.maxNetworkMbps ∨ spec.quotas.maxIops > pt.quotas.maxIops) := by
    simp only [gt_iff_lt, not_or, UInt32.not_lt, UInt64.not_lt, UInt32.le_iff_toNat_le, UInt64.le_iff_toNat_le]
    exact Dim.forall_iff
  split
  · rename_i hq
    exact .inl ⟨_, rfl, fun h => hquota.1 h.2 hq⟩
  · rename_i hq
    exact .inr ⟨rfl, by simpa using hc, hquota.2 hq⟩

/-- **What `create` does**: it refuses and changes nothing; it refuses the name after the counter has moved; or it adds
the tenant. -/
theorem create_cases (spec : TenantSpec) (rootCaps : TenantCaps) :
    (∃ e, s.create spec rootCaps = (.error e, s) ∧ ¬ s.Admits spec rootCaps) ∨
    (∃ e, s.create spec rootCaps = (.error e, { s with nextTenantId := s.nextTenantId + 1 }) ∧
      s.Admits spec rootCaps ∧ validateSegment spec.name ≠ .ok ()) ∨
    ∃ t s', s.create spec rootCaps = (.ok t, s') ∧ s.Admits spec rootCaps ∧ s.Grows t s' ∧
      spec = ⟨t.name, t.quotas, t.parent⟩ := by
  unfold create
  split
  · rename_i hname
    exact .inl ⟨_, rfl, fun h => by rw [h.fresh] at hname; cases hname⟩
  rename_i hname
  rcases s.checkSubtenant_cases spec rootCaps with ⟨e, he, hno⟩ | ⟨hok, hpar⟩
  · rw [he]
    exact .inl ⟨_, rfl, fun h => hno h.parent⟩
  simp only [hok]
  split
  · rename_i hid
    refine .inl ⟨_, rfl, fun h => ?_⟩
    simp [checkedAdd64, h.room] at hid
  rename_i idRaw hid
  obtain ⟨rfl, hroom⟩ := checkedAdd64_eq_some hid
  have hadm : s.Admits spec rootCaps := ⟨Option.not_isSome_iff_eq_none.1 hname, hpar, hroom⟩
  split
  · rename_i e hns
    refine .inr (.inl ⟨_, rfl, hadm, fun hv => ?_⟩)
    simp [TenantNamespace.new, hv] at hns
  · rename_i ns hns
    exact .inr (.inr ⟨_, _, rfl, hadm, ⟨rfl, hadm.fresh, TenantNamespace.new_ok hns, hpar, rfl, rfl, rfl⟩, rfl⟩)

/-- `delete` accepts the tenant: it is live, nothing names it as parent and it holds nothing. -/
def Deletable (s : StoreState) (id : TenantId) : Prop :=
  ∃ t, s.tenants.lookup id.raw = some t ∧ (∀ j c, s.tenants.lookup j = some c → c.parent ≠ some id) ∧ t.usage = default

theorem values_any (p : Tenant → Bool) : s.values.any p = true ↔ ∃ i t, s.tenants.lookup i = some t ∧ p t = true := by
  simp only [List.any_eq_true, values, Assoc.mem_values]
  exact ⟨fun ⟨t, ⟨i, h⟩, hp⟩ => ⟨i, t, h, hp⟩, fun ⟨i, t, h, hp⟩ => ⟨t, ⟨i, h⟩, hp⟩⟩

theorem delete_cases (id : TenantId) :
    (∃ e, s.delete id = (.error e, s) ∧ ¬ s.Deletable id) ∨
    ∃ t s', s.delete id = (.ok (), s') ∧ Drops (fun _ => true) s id t s' := by
  unfold delete
  split
  · rename_i h
    exact .inl ⟨_, rfl, fun ⟨t, ht, _⟩ => by rw [h] at ht; cases ht⟩
  rename_i t ht
  split
  · rename_i h
    obtain ⟨j, c, hc, hp⟩ := (s.values_any _).1 h
    exact .inl ⟨_, rfl, fun ⟨_, _, hleaf, _⟩ => hleaf j c hc (by simpa using hp)⟩
  rename_i hleaf
  split
  · rename_i hu
    refine .inl ⟨_, rfl, fun ⟨t', ht', _, hu'⟩ => hu ?_⟩
    rw [ht] at ht'
    rw [Option.some.inj ht', hu']
  rename_i hu
  refine .inr ⟨t, _, rfl, ht, fun j c hc hp => hleaf ?_, by simpa using hu, by simp⟩
  exact (s.values_any _).2 ⟨j, c, hc, by simp [hp]⟩

theorem addUser_cases (tenant : TenantId) (userName : String) (requestedCaps : TenantCaps) :
    (∃ e, s.addUser tenant userName requestedCaps = (.error e, s)) ∨
    ∃ t u s', s.addUser tenant userName requestedCaps = (.ok u, s') ∧
      Retouches (fun _ => true) s tenant t { t with users := t.users ++ [u] } s' ∧ u.id = ⟨s.nextUserId + 1⟩ ∧
      s'.nextUserId = s.nextUserId + 1 ∧ (∀ v ∈ t.users, v.name ≠ u.name) ∧ u.caps ⊆ t.rootCaps := by
  unfold addUser
  split
  · exact .inl ⟨_, rfl⟩
  split
  · exact .inl ⟨_, rfl⟩
  rename_i t ht
  split
  · exact .inl ⟨_, rfl⟩
  rename_i hname
  split
  · exact .inl ⟨_, rfl⟩
  rename_i caps hcaps
  split
  · exact .inl ⟨_, rfl⟩
  rename_i idRaw hid
  obtain ⟨rfl, -⟩ := checkedAdd64_eq_some hid
  refine .inr ⟨t, _, _, rfl, ⟨ht, ⟨rfl, rfl, rfl, rfl, rfl⟩, rfl, rfl, rfl, by simp [put]⟩, rfl, rfl, ?_,
    (attenuate_ok hcaps).2⟩
  simpa using hname

theorem removeUser_cases (tenant : TenantId) (user : UserId) :
    (∃ e, s.removeUser tenant user = (.error e, s)) ∨
    ∃ t s', s.removeUser tenant user = (.ok (), s') ∧
      Retouches (fun ss => !(ss.tenant == tenant && ss.user == user)) s tenant t
        { t with users := t.users.filter (fun u => u.id ≠ user) } s' ∧ s'.nextUserId = s.nextUserId := by
  unfold removeUser
  split
  · exact .inl ⟨_, rfl⟩
  rename_i t ht
  exact .inr ⟨t, _, rfl, ⟨ht, ⟨rfl, rfl, rfl, rfl, rfl⟩, rfl, rfl, rfl, rfl⟩, rfl⟩

theorem setPassword_cases (tenant : TenantId) (user : UserId) (plain : String) (salt : List UInt8) :
    (∃ e, s.setPassword cr tenant user plain salt = (.error e, s)) ∨
    ∃ t i hash s', s.setPassword cr tenant user plain salt = (.ok (), s') ∧
      Retouches (fun ss => !(ss.tenant == tenant && ss.user == user)) s tenant t
        { t with users := t.users.modify i (fun u => { u with passwordHash := some hash }) } s' ∧
      s'.nextUserId = s.nextUserId := by
  unfold setPassword
  split
  · exact .inl ⟨_, rfl⟩
  split
  · exact .inl ⟨_, rfl⟩
  rename_i t ht
  split
  · exact .inl ⟨_, rfl⟩
  rename_i i hi
  exact .inr ⟨t, i, _, _, rfl, ⟨ht, ⟨rfl, rfl, rfl, rfl, rfl⟩, rfl, rfl, rfl, rfl⟩, rfl⟩

theorem createSession_cases (tenant : TenantId) (user : UserId) (requestedCaps : TenantCaps) (ttlSecs : Option UInt64)
    (rand : Vector UInt8 32) (nowMs : UInt64) :
    (∃ e, s.createSession cr tenant user requestedCaps ttlSecs rand nowMs = (.error e, s)) ∨
    ∃ t u token session, s.createSession cr tenant user requestedCaps ttlSecs rand nowMs = (.ok (token, session),
        { s with sessions := s.sessions.filter (fun ss => ss.tokenHash ≠ session.tokenHash) ++ [session] }) ∧
      s.tenants.lookup tenant.raw = some t ∧ u ∈ t.users ∧ u.id = user ∧
      (session.tenant = tenant ∧ session.user = user) ∧ session.caps ⊆ u.caps := by
  unfold createSession
  split
  · exact .inl ⟨_, rfl⟩
  rename_i t ht
  split
  · exact .inl ⟨_, rfl⟩
  rename_i u hu
  exact .inr ⟨t, u, _, _, rfl, ht, List.mem_of_find?_eq_some hu, by simpa using List.find?_some hu, ⟨rfl, rfl⟩,
    (TenantCaps.truncate_and_subset u.caps requestedCaps).1⟩

/-- `rotate_root_caps` accepts the new caps: the tenant is live and its parent, if any, grants them. -/
def Rotatable (s : StoreState) (tenant : TenantId) (newCaps : TenantCaps) : Prop :=
  ∃ t, s.tenants.lookup tenant.raw = some t ∧
    ∀ p, t.parent = some p → ∃ pt, s.tenants.lookup p.raw = some pt ∧ newCaps ⊆ pt.rootCaps

theorem checkRotate_cases (parent : Option TenantId) (newCaps : TenantCaps) :
    (∃ e, s.checkRotate parent newCaps = .error e ∧
      ¬ ∀ p, parent = some p → ∃ pt, s.tenants.lookup p.raw = some pt ∧ newCaps ⊆ pt.rootCaps) ∨
    s.checkRotate parent newCaps = .ok () ∧
      ∀ p, parent = some p → ∃ pt, s.tenants.lookup p.raw = some pt ∧ newCaps ⊆ pt.rootCaps := by
  unfold checkRotate
  split
  · exact .inr ⟨rfl, fun p hp => by cases hp⟩
  rename_i p
  split
  · rename_i hp
    refine .inl ⟨_, rfl, fun h => ?_⟩
    obtain ⟨pt, hpt, -⟩ := h p rfl
    rw [hp] at hpt
    cases hpt
  rename_i pt hpt
  split
  · rename_i hc
    refine .inl ⟨_, rfl, fun h => ?_⟩
    obtain ⟨pt', hpt', hsub⟩ := h p rfl
    rw [hpt] at hpt'
    rw [← Option.some.inj hpt', ← TenantCaps.contains_iff] at hsub
    simp [hsub] at hc
  · rename_i hc
    refine .inr ⟨rfl, fun q hq => ?_⟩
    obtain rfl := Option.some.inj hq
    exact ⟨pt, hpt, (TenantCaps.contains_iff _ _).1 (by simpa using hc)⟩

theorem rotateRootCaps_cases (tenant : TenantId) (newCaps : TenantCaps) :
    (∃ e, s.rotateRootCaps tenant newCaps = (.error e, s) ∧ ¬ s.Rotatable tenant newCaps) ∨
    ∃ t report s', s.rotateRootCaps tenant newCaps = (.ok report, s') ∧
      (∀ p, t.parent = some p → ∃ pt, s.tenants.lookup p.raw = some pt ∧ newCaps ⊆ pt.rootCaps) ∧
      Retouches (fun ss => ss.tenant ≠ tenant) s tenant t
        { t with rootCaps := newCaps,
                 users := t.users.map (fun u => if narrowed newCaps u ≠ u.caps then
                   { u with caps := narrowed newCaps u } else u) } s' ∧
      s'.nextUserId = s.nextUserId := by
  unfold rotateRootCaps
  split
  · rename_i h
    exact .inl ⟨_, rfl, fun ⟨t, ht, _⟩ => by rw [h] at ht; cases ht⟩
  rename_i t ht
  rcases s.checkRotate_cases t.parent newCaps with ⟨e, he, hno⟩ | ⟨hok, hyes⟩
  · rw [he]
    refine .inl ⟨e, rfl, fun ⟨t', ht', h⟩ => hno ?_⟩
    rw [ht] at ht'
    rwa [Option.some.inj ht']
  · rw [hok]
    exact .inr ⟨t, _, _, rfl, hyes, ⟨ht, ⟨rfl, rfl, rfl, rfl, rfl⟩, rfl, rfl, rfl, rfl⟩, rfl⟩

end StoreState

end Celium
