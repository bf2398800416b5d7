import Celium.RuntimeAudit
import Celium.CapGate
/-!
# Exec — one operation on behalf of a tenant

`celtenancy::exec`: a host of its own is built for the call, on the real tenant store, and one operation is handed to
the wrapper around it.  The charge is planned twice, by the wrapper (`charge_for`) and for the answer (`refund_for`); it
is given back by the wrapper when the host refuses, and by `exec` on a dry run.  `exec_net_effect` says what is left of
it on the tenant and on each of its ancestors.
-/
namespace Celium

open Fixed Forest Runs StoreState

/-- `to_tags`. -/
def TenantCaps.toTags (self : TenantCaps) : String :=
  if self = .none then "none"
  else if self = .all then "all"
  else
    let push (out : String) (p : TenantCaps × String) : String :=
      if self.contains p.1 then (if out.isEmpty then out else out ++ ",") ++ p.2 else out
    [(vmLifecycleRead, "vm.read"), (vmLifecycleWrite, "vm.write"), (volumeRead, "vol.read"), (volumeWrite, "vol.write"),
      (volumeAttach, "vol.attach"), (snapshotRead, "snap.read"), (snapshotWrite, "snap.write"),
      (networkRead, "net.read"), (networkWrite, "net.write"), (secgroupRead, "sg.read"), (secgroupWrite, "sg.write"),
      (lbRead, "lb.read"), (lbWrite, "lb.write")].foldl push ""

structure ExecOptions where
  releaseAfterCreate : Bool
  node : Option String
  /-- What the sink has recorded, if there is one. -/
  audit : Option (List AuditEvent)

structure ExecAudit where
  tenant : String
  user : Option String
  op : String
  opCapabilityTag : String
  effectiveCaps : String
  plannedCharge : Option QuotaCharge
  dispatchSucceeded : Bool
  error : Option String
  reply : Option String
  usageBefore : QuotaUsage
  usageAfter : QuotaUsage
deriving DecidableEq, Repr

/-- `reply_summary`; `debug` is the text `{other:?}` gives. -/
def replySummary (debug : VmOpReply → String) : VmOpReply → String
  | .created vmId => "Created vm_id=" ++ toString vmId.toNat
  | .deleted vmId => "Deleted vm_id=" ++ toString vmId.toNat
  | .state vmId state => "State vm_id=" ++ toString vmId.toNat ++ " state=\"" ++ state ++ "\""
  | .listed rows => "Listed rows=" ++ toString rows.length
  | .volumeCreated volume => "VolumeCreated id=" ++ volume.id.raw ++ " size=" ++ toString volume.sizeBytes.toNat
  | .volumeDeleted volumeId => "VolumeDeleted id=" ++ volumeId.raw
  | .volumesListed volumes => "VolumesListed n=" ++ toString volumes.length
  | .networkCreated network => "NetworkCreated id=" ++ network.id.raw
  | .networksListed networks => "NetworksListed n=" ++ toString networks.length
  | other => debug other

def opSummary : VmOp → String
  | .create ..        => "Create"
  | .start ..         => "Start"
  | .stop ..          => "Stop"
  | .delete ..        => "Delete"
  | .list             => "List"
  | .createVolume ..  => "CreateVolume"
  | .deleteVolume ..  => "DeleteVolume"
  | .listVolumes      => "ListVolumes"
  | .createNetwork .. => "CreateNetwork"
  | .listNetworks     => "ListNetworks"
  | _                 => "Other"

def refundFor : VmOp → Option QuotaCharge
  | .create _ _ _ cpuCount memoryMib _ =>
    some { (default : QuotaCharge) with vcpus := cpuCount.getD 0, memoryMib := memoryMib.getD 0 }
  | .createVolume _ sizeBytes => some { (default : QuotaCharge) with storageBytes := sizeBytes }
  | _ => none

def effectiveCapsFor (tenant : Tenant) (user : Option String) : CelResult (Capabilities × String) :=
  match user with
  | none => .ok (tenant.rootCaps.toMeshCapabilities, tenant.rootCaps.toTags)
  | some name =>
    match tenant.users.find? (fun u => u.name == name) with
    | none => .error (.invalid "tenancy: user unknown")
    | some u => .ok (u.caps.toMeshCapabilities, u.caps.toTags)

/-- What a call leaves: the store, and the sink's record. -/
structure ExecState where
  store : StoreState
  audit : Option (List AuditEvent)

namespace ExecState

def record (x : ExecState) (ev : AuditEvent) : ExecState := { x with audit := x.audit.map (· ++ [ev]) }

end ExecState

/-- The wrapper a call runs on, with its owner known. -/
def execHost (store : StoreState) (tenant : TenantId) (caps : Capabilities) (userName : Option String)
    (opts : ExecOptions) : TenantVmHost :=
  let host := TenantVmHost.new tenant store (MemVmHost.new.withCaps caps)
  let host := match opts.audit with
    | none => host
    | some sink => match userName with
      | none => host.withAudit sink
      | some u => (host.withAudit sink).withAuditUser u
  { host with inner := (host.inner.currentRows ⟨opts.node.getD "tenant-exec"⟩).2 }

/-- The dry-run refund.  A failure is only logged. -/
def releaseAfter (nowMs : UInt64) (tenant : Tenant) (userName : Option String) (op : VmOp) (c : QuotaCharge)
    (x : ExecState) : Bool × ExecState :=
  match x.store.release tenant.id c with
  | (.error _, store) => (false, { x with store })
  | (.ok _, store) =>
    (true, ExecState.record { x with store }
      { AuditEvent.now nowMs tenant.name .release with
        user := userName, opCapabilityTag := some (Capabilities.opTag op), charge := some c, note := some "dry-run" })

/-- The refund of a dry run, where there is something to give back. -/
def dryRun (nowMs : UInt64) (tenant : Tenant) (userName : Option String) (op : VmOp) (opts : ExecOptions)
    (plannedCharge : Option QuotaCharge) (dispatchSucceeded : Bool) (x : ExecState) : Bool × ExecState :=
  if opts.releaseAfterCreate && dispatchSucceeded then
    match plannedCharge with
    | none => (false, x)
    | some c => if c ≠ default then releaseAfter nowMs tenant userName op c x else (false, x)
  else (false, x)

def exec (debug : VmOpReply → String) (nowMs : UInt64) (store : StoreState) (tenantName : String)
    (userName : Option String) (op : VmOp) (opts : ExecOptions) : CelResult ExecAudit × ExecState :=
  match store.getByName tenantName with
  | .error e => (.error e, ⟨store, opts.audit⟩)
  | .ok tenant =>
    match effectiveCapsFor tenant userName with
    | .error e => (.error e, ⟨store, opts.audit⟩)
    | .ok (caps, capTags) =>
      match store.get tenant.id with
      | .error e => (.error e, ⟨store, opts.audit⟩)
      | .ok before =>
        let plannedCharge := refundFor op
        let (result, host) := (execHost store tenant.id caps userName opts).handle nowMs op
        let x : ExecState := ⟨host.store, host.audit⟩
        let dispatchSucceeded := result.isOk
        let reply := result.toOption.map (replySummary debug)
        let error := match result with
          | .ok _ => none
          | .error e => some e
        let (released, x) := dryRun nowMs tenant userName op opts plannedCharge dispatchSucceeded x
        match x.store.get tenant.id with
        | .error e => (.error e, x)
        | .ok after =>
          let note := "op=" ++ opSummary op ++ (if released then " released=true" else "") ++
            (match reply with
              | none => ""
              | some r => " reply=" ++ r)
          (.ok { tenant := tenant.name, user := userName, op := opSummary op, opCapabilityTag := Capabilities.opTag op,
                 effectiveCaps := capTags, plannedCharge, dispatchSucceeded, error, reply,
                 usageBefore := before.usage, usageAfter := after.usage },
            x.record { AuditEvent.now nowMs tenant.name .exec with
              user := userName, opCapabilityTag := some (Capabilities.opTag op), charge := plannedCharge,
              success := error.isNone, error, note := some note })

/-! ## What a call leaves of its charge -/

theorem refundFor_eq (op : VmOp) : refundFor op = chargeFor op := by
  cases op <;> rfl

/-- A store after a call that planned the charge `c`: the charge is on the chain of the tenant, or nothing is. -/
inductive Left (s : StoreState) (tenant : TenantId) (c : QuotaCharge) (s' : StoreState) : Bool → Prop
  | nothing (h : s.Agrees s') : Left s tenant c s' false
  | zero (h : s.Agrees s') (zero : c = default) : Left s tenant c s' true
  | charged (u : QuotaUsage) (h : s.charge tenant c = (.ok u, s')) (nonzero : c ≠ default) : Left s tenant c s' true

namespace TenantVmHost

variable {t : TenantVmHost}

/-- The three ways past the charge: it is refused, there is nothing to charge, or the charge is made. -/
theorem bill_fresh (t : TenantVmHost) (nowMs : UInt64) (op : VmOp) (hfresh : t.Fresh) :
    (∃ e, (t.bill nowMs op).1 = .error e ∧ (t.bill nowMs op).2.store = t.store) ∨
      (t.bill nowMs op).1 = .ok () ∧ (t.bill nowMs op).2.tenant = t.tenant ∧ (t.bill nowMs op).2.Fresh ∧
        ((chargeFor op).getD default = default ∧ (t.bill nowMs op).2.store = t.store ∨
          (chargeFor op).getD default ≠ default ∧
          ∃ u, t.store.charge t.tenant ((chargeFor op).getD default) = (.ok u, (t.bill nowMs op).2.store)) := by
  unfold bill
  cases hc : chargeFor op with
  | none => exact .inr ⟨rfl, rfl, hfresh, .inl ⟨rfl, rfl⟩⟩
  | some c =>
    simp only [Option.getD_some]
    split
    · exact .inr ⟨rfl, rfl, hfresh, .inl ⟨‹_›, rfl⟩⟩
    · rename_i hne
      rcases t.store.charge_cases t.tenant c with ⟨e, he, -⟩ | ⟨chain, u, s', he, -⟩ <;> rw [he]
      · exact .inl ⟨_, rfl, rfl⟩
      · exact .inr ⟨rfl, rfl, hfresh, .inr ⟨hne, u, rfl⟩⟩

/-- Without an entry there is nothing for `apply` to release after the inner host accepted. -/
theorem reconcile_fresh (t : TenantVmHost) (nowMs : UInt64) (op : VmOp) (reply : VmOpReply) (hfresh : t.Fresh) :
    (t.reconcile nowMs op (.ok reply)).1 = none ∧ (t.reconcile nowMs op (.ok reply)).2.store = t.store := by
  obtain ⟨-, hst, -⟩ := t.reconcile_booked nowMs op reply
  refine ⟨?_, hst⟩
  unfold reconcile
  split
  · rename_i heq
    cases heq
  · rfl
  · rfl
  · rw [hfresh.1]
    rfl
  · rw [hfresh.2]
    rfl
  · rfl

/-- **One call on a wrapper without entries**: the charge stays where the inner host accepts, and nothing does where it
does not. -/
theorem handle_left (t : TenantVmHost) (nowMs : UInt64) (op : VmOp) (hfresh : t.Fresh)
    (hcap : t.store.Capped t.tenant) :
    Left t.store t.tenant ((chargeFor op).getD default) (t.handle nowMs op).2.store (t.handle nowMs op).1.isOk := by
  have hbill := t.bill_fresh nowMs op hfresh
  unfold handle
  cases hb : t.bill nowMs op with
  | mk r t₁ =>
  rw [hb] at hbill
  simp only at hbill
  rcases hbill with ⟨e, rfl, hstore⟩ | ⟨rfl, htenant, hfresh₁, hcharge⟩
  · rw [hstore]
    exact .nothing (.refl _)
  · have hstore : (t₁.forward op).2.store = t₁.store := rfl
    have htenant₂ : (t₁.forward op).2.tenant = t.tenant := htenant
    have hfresh₂ : (t₁.forward op).2.Fresh := hfresh₁
    dsimp only
    generalize (t₁.forward op).2 = t₂ at hstore htenant₂ hfresh₂ ⊢
    rw [← hstore] at hcharge
    cases (t₁.forward op).1 with
    | error err =>
      -- the inner host refused: what was charged is released
      obtain ⟨hst, -⟩ := t₂.denied_store nowMs op err
      refine .nothing ?_
      change t.store.Agrees (t₂.denied nowMs op err).store
      rcases hcharge with ⟨hzero, hsame⟩ | ⟨hne, u, hu⟩ <;> rcases hst with ⟨hne', hst⟩ | ⟨hzero', hst⟩
      · exact absurd hzero hne'
      · rw [hst, hsame]
        exact .refl _
      · obtain ⟨u', s'', hrel, hagree⟩ := release_after_charge hcap hu
        rw [hst, htenant₂, hrel]
        exact hagree
      · exact absurd hzero' hne
    | ok reply =>
      have hrec := t₂.reconcile_fresh nowMs op reply hfresh₂
      cases hr : t₂.reconcile nowMs op (.ok reply) with
      | mk found t₃ =>
      rw [hr] at hrec
      obtain ⟨rfl, hst⟩ := hrec
      change Left _ _ _ t₃.store true
      rw [show t₃.store = t₂.store from hst]
      rcases hcharge with ⟨hzero, hsame⟩ | ⟨hne, u, hu⟩
      · rw [hsame]
        exact .zero (.refl _) hzero
      · exact .charged u hu hne

end TenantVmHost

/-- The operations that take resources. -/
def VmOp.isCreate : VmOp → Bool
  | .create .. | .createVolume .. => true
  | _ => false

/-- The usage of the tenant and of each of its ancestors is `c` higher. -/
def RaisedBy (s : StoreState) (tenant : TenantId) (c : QuotaCharge) (s' : StoreState) : Prop :=
  ∀ i, Anc s.up tenant i → ∃ t t', s.tenants.lookup i.raw = some t ∧ s'.tenants.lookup i.raw = some t' ∧
    ∀ d, t'.usage.amount d = t.usage.amount d + c.amount d

/-- The usage of the tenant and of each of its ancestors is what it was. -/
def UsageKept (s : StoreState) (tenant : TenantId) (s' : StoreState) : Prop :=
  ∀ i, Anc s.up tenant i → ∃ t t', s.tenants.lookup i.raw = some t ∧ s'.tenants.lookup i.raw = some t' ∧
    t'.usage = t.usage

section Net

variable {s s' : StoreState} {tenant : TenantId} {c : QuotaCharge}

theorem usageKept_of_agrees (hwf : s.TreeWf) (hlive : (s.up tenant).isSome) (h : s.Agrees s') :
    UsageKept s tenant s' := by
  intro i hi
  obtain ⟨l, hl⟩ := hwf.rooted tenant hlive
  obtain ⟨t, ht⟩ := up_isSome.1 (hl.mem_live ((hl.mem_iff i).2 hi))
  exact ⟨t, t, ht, by rw [h.lookup, ht], rfl⟩

theorem raisedBy_of_charge (hcap : s.Capped tenant) {u : QuotaUsage} (h : s.charge tenant c = (.ok u, s')) :
    RaisedBy s tenant c s' := by
  rcases s.charge_cases tenant c with ⟨e, he, -⟩ | ⟨chain, u₁, s₁, heq, hchain, hfits, hrec, -⟩
  · rw [he] at h
    cases h
  obtain ⟨-, rfl⟩ := Prod.mk.inj (heq.symm.trans h)
  intro i hi
  have hmem : i ∈ chain := ((chainFrom_ok_iff.1 hchain).1.mem_iff i).2 hi
  obtain ⟨t, ht⟩ := chain_live hchain i hmem
  refine ⟨t, { t with usage := t.usage.plus c }, ht, ?_, fun d => ?_⟩
  · rw [hrec.lookup, ht, Option.map_some, if_pos hmem]
  · have := hcap.unclipped hfits ((mem_levels hchain).2 ⟨i, hmem, ht⟩) d
    rw [QuotaUsage.amount_plus]
    omega

theorem Left.raised (hwf : s.TreeWf) (hlive : (s.up tenant).isSome) (hcap : s.Capped tenant)
    (h : Left s tenant c s' true) : RaisedBy s tenant c s' := by
  cases h with
  | zero h hzero =>
    intro i hi
    obtain ⟨t, t', ht, ht', hu⟩ := usageKept_of_agrees hwf hlive h i hi
    exact ⟨t, t', ht, ht', fun d => by rw [hu, hzero, QuotaCharge.amount_default, Nat.add_zero]⟩
  | charged u h _ => exact raisedBy_of_charge hcap h

/-- The tenant is still there. -/
theorem Left.live {b : Bool} (h : Left s tenant c s' b) {t : Tenant} (ht : s.tenants.lookup tenant.raw = some t) :
    ∃ t', s'.tenants.lookup tenant.raw = some t' := by
  cases h with
  | nothing h => exact ⟨t, by rw [h.lookup, ht]⟩
  | zero h => exact ⟨t, by rw [h.lookup, ht]⟩
  | charged u h =>
    rcases s.charge_cases tenant c with ⟨e, he, -⟩ | ⟨chain, u₁, s₁, heq, -, -, hrec, -⟩
    · rw [he] at h
      cases h
    · obtain ⟨-, rfl⟩ := Prod.mk.inj (heq.symm.trans h)
      rw [hrec.lookup, ht]
      exact ⟨_, rfl⟩

/-- A name finds the record it is indexed to. -/
theorem getByName_ok (hwf : s.TreeWf) {name : String} {t : Tenant} (h : s.getByName name = .ok t) :
    s.tenants.lookup t.id.raw = some t ∧ s.get t.id = .ok t := by
  unfold getByName at h
  cases hi : s.byName.lookup name with
  | none =>
    rw [hi] at h
    cases h
  | some i =>
    rw [hi] at h
    cases ht : s.tenants.lookup i with
    | none =>
      simp only [ht] at h
      cases h
    | some t' =>
      simp only [ht, Except.ok.injEq] at h
      subst h
      rw [(hwf.ids i t' ht).1, StoreState.get, ht]
      exact ⟨rfl, rfl⟩

/-- The dry-run refund takes a charge back. -/
theorem releaseAfter_agrees {t : Tenant} (hcap : s.Capped t.id) {u : QuotaUsage}
    (h : s.charge t.id c = (.ok u, s')) (nowMs : UInt64) (userName : Option String) (op : VmOp)
    (audit : Option (List AuditEvent)) : s.Agrees (releaseAfter nowMs t userName op c ⟨s', audit⟩).2.store := by
  obtain ⟨u', s'', hrel, hagree⟩ := release_after_charge hcap h
  rw [releaseAfter, hrel]
  exact hagree

theorem chargeFor_isCreate (op : VmOp) : (chargeFor op).isSome = op.isCreate := by
  cases op <;> rfl

/-- The planned charge stays on the books. -/
def Billed (op : VmOp) (opts : ExecOptions) (dispatchSucceeded : Bool) : Prop :=
  op.isCreate = true ∧ dispatchSucceeded = true ∧ opts.releaseAfterCreate = false

/-- What the wrapper has left, after the refund of a dry run. -/
theorem dryRun_left {t : Tenant} (hcap : s.Capped t.id) {op : VmOp} {ok : Bool}
    (h : Left s t.id ((chargeFor op).getD default) s' ok) (nowMs : UInt64) (userName : Option String)
    (opts : ExecOptions) (audit : Option (List AuditEvent)) :
    (Billed op opts ok ∧ Left s t.id ((chargeFor op).getD default)
        (dryRun nowMs t userName op opts (chargeFor op) ok ⟨s', audit⟩).2.store true) ∨
    (¬ Billed op opts ok ∧ s.Agrees (dryRun nowMs t userName op opts (chargeFor op) ok ⟨s', audit⟩).2.store) := by
  have hcreate := chargeFor_isCreate op
  unfold dryRun Billed
  cases h with
  | nothing h =>
    refine .inr ⟨by simp, ?_⟩
    simp only [Bool.and_false, Bool.false_eq_true, if_false]
    exact h
  | zero h hzero =>
    -- nothing was charged, so nothing is given back
    have hkeep : (match chargeFor op with
        | none => (false, (⟨s', audit⟩ : ExecState))
        | some c => if c ≠ default then releaseAfter nowMs t userName op c ⟨s', audit⟩ else (false, ⟨s', audit⟩)) =
        (false, ⟨s', audit⟩) := by
      cases hc : chargeFor op with
      | none => rfl
      | some c =>
        obtain rfl : c = default := by simpa [hc] using hzero
        simp
    rw [hkeep, ite_self]
    by_cases hbill : op.isCreate = true ∧ true = true ∧ opts.releaseAfterCreate = false
    · exact .inl ⟨hbill, .zero h hzero⟩
    · exact .inr ⟨hbill, h⟩
  | charged u h hne =>
    cases hc : chargeFor op with
    | none =>
      rw [hc] at hne
      exact absurd rfl hne
    | some c =>
      rw [hc, Option.getD_some] at h hne
      rw [hc] at hcreate
      cases hrel : opts.releaseAfterCreate with
      | false => exact .inl ⟨⟨hcreate.symm, rfl, rfl⟩, .charged u h hne⟩
      | true =>
        refine .inr ⟨fun hbill => (by cases hbill.2.2), ?_⟩
        simp only [Bool.and_self, if_true, hne, ne_eq, not_false_eq_true]
        exact releaseAfter_agrees hcap h nowMs userName op audit

end Net

/-- **What `exec` does to a store in order**: it fails at once, or it answers what it saw, and the charge is left where
the operation takes resources, was accepted and is no dry run. -/
theorem exec_cases {s : StoreState} (hwf : s.TreeWf) (debug : VmOpReply → String) (nowMs : UInt64) (tenantName : String)
    (userName : Option String) (op : VmOp) (opts : ExecOptions)
    (hcap : ∀ t, s.getByName tenantName = .ok t → s.Capped t.id) :
    (∃ e, exec debug nowMs s tenantName userName op opts = (.error e, ⟨s, opts.audit⟩)) ∨
    ∃ t t' audit x, exec debug nowMs s tenantName userName op opts = (.ok audit, x) ∧ s.getByName tenantName = .ok t ∧
      x.store.tenants.lookup t.id.raw = some t' ∧ audit.usageBefore = t.usage ∧ audit.usageAfter = t'.usage ∧
      audit.plannedCharge = chargeFor op ∧
      (Billed op opts audit.dispatchSucceeded → RaisedBy s t.id ((chargeFor op).getD default) x.store) ∧
      (¬ Billed op opts audit.dispatchSucceeded → UsageKept s t.id x.store) := by
  unfold exec
  cases hname : s.getByName tenantName with
  | error e => exact .inl ⟨e, rfl⟩
  | ok t =>
    obtain ⟨ht, hget⟩ := getByName_ok hwf hname
    have hcap := hcap t hname
    have hlive : (s.up t.id).isSome := up_isSome.2 ⟨t, ht⟩
    dsimp only
    cases heff : effectiveCapsFor t userName with
    | error e => exact .inl ⟨e, rfl⟩
    | ok capsTags =>
      obtain ⟨caps, capTags⟩ := capsTags
      simp only [hget]
      -- the host of the call has no entries, and the store is the caller's
      have hleft := (execHost s t.id caps userName opts).handle_left nowMs op
      have hhost : (execHost s t.id caps userName opts).Fresh ∧ (execHost s t.id caps userName opts).store = s ∧
          (execHost s t.id caps userName opts).tenant = t.id := by
        unfold execHost
        cases opts.audit with
        | none => exact ⟨⟨rfl, rfl⟩, rfl, rfl⟩
        | some sink => cases userName <;> exact ⟨⟨rfl, rfl⟩, rfl, rfl⟩
      obtain ⟨hfresh, hstore, htenant⟩ := hhost
      rw [hstore, htenant] at hleft
      replace hleft := hleft hfresh hcap
      generalize (execHost s t.id caps userName opts).handle nowMs op = called at hleft ⊢
      obtain ⟨result, host⟩ := called
      have hdry := dryRun_left hcap hleft nowMs userName opts host.audit
      simp only [refundFor_eq] at hdry ⊢
      generalize dryRun nowMs t userName op opts (chargeFor op) result.isOk ⟨host.store, host.audit⟩ = after at hdry ⊢
      obtain ⟨released, x⟩ := after
      simp only at hdry ⊢
      have hthere : ∃ t', x.store.tenants.lookup t.id.raw = some t' := by
        rcases hdry with ⟨-, h⟩ | ⟨-, h⟩
        · exact h.live ht
        · exact ⟨t, by rw [h.lookup, ht]⟩
      obtain ⟨t', ht'⟩ := hthere
      have hget' : x.store.get t.id = .ok t' := by rw [StoreState.get, ht']
      simp only [hget']
      refine .inr ⟨t, t', _, _, rfl, rfl, ht', rfl, rfl, rfl, ?_, ?_⟩
      · intro hbill
        rcases hdry with ⟨-, h⟩ | ⟨hno, -⟩
        · exact h.raised hwf hlive hcap
        · exact absurd hbill hno
      · intro hno
        rcases hdry with ⟨hbill, -⟩ | ⟨-, h⟩
        · exact absurd hbill hno
        · exact usageKept_of_agrees hwf hlive h

/-- **`exec`'s net effect on quota.**  On every store a run of calls leaves, where every ceiling on the tenant's chain is
below its integer maximum: if `exec` answers, the usage of the tenant and of each of its ancestors is higher by the
planned charge when a create was accepted and kept, and is what it was otherwise, and the two usages it reports are the
tenant's before and after; if it fails, the store is as it was. -/
theorem exec_net_effect (cr : Crypto) (ops : List Op) (debug : VmOpReply → String) (nowMs : UInt64)
    (tenantName : String) (userName : Option String) (op : VmOp) (opts : ExecOptions)
    (hcap : ∀ t, (run (step cr) default ops).getByName tenantName = .ok t → (run (step cr) default ops).Capped t.id) :
    let s := run (step cr) default ops
    let r := exec debug nowMs s tenantName userName op opts
    (∀ audit, r.1 = .ok audit → ∃ t t', s.getByName tenantName = .ok t ∧
      r.2.store.tenants.lookup t.id.raw = some t' ∧ audit.usageBefore = t.usage ∧ audit.usageAfter = t'.usage ∧
      (op.isCreate = true ∧ audit.dispatchSucceeded = true ∧ opts.releaseAfterCreate = false →
        ∃ c, audit.plannedCharge = some c ∧ RaisedBy s t.id c r.2.store) ∧
      (¬ (op.isCreate = true ∧ audit.dispatchSucceeded = true ∧ opts.releaseAfterCreate = false) →
        UsageKept s t.id r.2.store)) ∧
    ∀ e, r.1 = .error e → r.2.store = s := by
  intro s r
  rcases exec_cases (run_treeWf cr ops) debug nowMs tenantName userName op opts hcap with
    ⟨e, he⟩ | ⟨t, t', audit, x, he, hname, ht', hbefore, hafter, hplan, hbill, hkeep⟩
  · have hr : r = (.error e, ⟨s, opts.audit⟩) := he
    rw [hr]
    exact ⟨fun audit h => (by cases h), fun _ _ => rfl⟩
  · have hr : r = (.ok audit, x) := he
    rw [hr]
    refine ⟨fun audit' h => ?_, fun e h => (by cases h)⟩
    obtain rfl := Except.ok.inj h
    refine ⟨t, t', hname, ht', hbefore, hafter, fun h => ?_, hkeep⟩
    obtain ⟨c, hc⟩ := Option.isSome_iff_exists.1 ((chargeFor_isCreate op).trans h.1)
    have := hbill h
    rw [hc] at this
    exact ⟨c, by rw [hplan, hc], this⟩

/-- A tenant with small quotas and a subtenant. -/
def acmeTeam : List Op :=
  [.create ⟨"acme", ⟨4, 4096, 16384, 1000, 10000⟩, none⟩ .all,
   .create ⟨"team", ⟨2, 2048, 8192, 500, 5000⟩, some ⟨1⟩⟩ .all]

/-- A create on behalf of the subtenant. -/
def teamCreate : CelResult ExecAudit × ExecState :=
  exec (fun _ => "") 0 (run (step .idle) default acmeTeam) "team" none (createVm 2) ⟨false, none, some []⟩

/-- Its charge is on the subtenant and on its parent. -/
theorem exec_create_raises :
    (∀ t, (run (step .idle) default acmeTeam).getByName "team" = .ok t → (run (step .idle) default acmeTeam).Capped t.id) ∧
    ∃ audit t c, teamCreate.1 = .ok audit ∧ (run (step .idle) default acmeTeam).getByName "team" = .ok t ∧
      audit.plannedCharge = some c ∧ RaisedBy (run (step .idle) default acmeTeam) t.id c teamCreate.2.store := by
  have hcap : ∀ t, (run (step .idle) default acmeTeam).getByName "team" = .ok t →
      (run (step .idle) default acmeTeam).Capped t.id := by
    intro t ht
    have hid : ((run (step .idle) default acmeTeam).getByName "team").map (·.id) = .ok ⟨2⟩ := by decide +kernel
    rw [ht] at hid
    rw [show t.id = ⟨2⟩ from Except.ok.inj hid]
    decide +kernel
  have hok : teamCreate.1.map (·.dispatchSucceeded) = .ok true := by decide +kernel
  cases haudit : teamCreate.1 with
  | error e =>
    rw [haudit] at hok
    cases hok
  | ok audit =>
    rw [haudit] at hok
    obtain ⟨t, t', hname, -, -, -, hraised, -⟩ :=
      (exec_net_effect .idle acmeTeam (fun _ => "") 0 "team" none (createVm 2) ⟨false, none, some []⟩ hcap).1 audit haudit
    obtain ⟨c, hc, hup⟩ := hraised ⟨rfl, Except.ok.inj hok, rfl⟩
    exact ⟨hcap, audit, t, c, rfl, hname, hc, hup⟩

end Celium
