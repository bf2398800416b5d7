import Celium.HostSections
import Celium.HyperHost
import Celium.RuntimeSpec
/-!
# CapGate — the capability check, host by host

`MemVmHost::apply` checks an operation against its capability set before anything else.  The two hosts built around one
leave the check to it: the bridge for what it does not send over its link, and the tenant wrapper, which charges before
it forwards and refunds what is refused.  A run of any of them, with the link and the tenant store shared with others,
keeps the set it was built with.
-/
namespace Celium

open Fixed Runs

/-- `TenantCaps::to_mesh_capabilities`. -/
def TenantCaps.toMeshCapabilities (self : TenantCaps) : Capabilities :=
  let add (c : Capabilities) (p : TenantCaps × Capabilities) : Capabilities :=
    if self.contains p.1 then ⟨c.bits ||| p.2.bits⟩ else c
  [(vmLifecycleRead, Capabilities.vmLifecycleRead), (vmLifecycleWrite, Capabilities.vmLifecycleWrite),
    (volumeRead, Capabilities.volumeRead), (volumeWrite, Capabilities.volumeWrite),
    (volumeAttach, Capabilities.volumeAttach), (snapshotRead, Capabilities.snapshotRead),
    (snapshotWrite, Capabilities.snapshotWrite), (networkRead, Capabilities.networkRead),
    (networkWrite, Capabilities.networkWrite), (secgroupRead, Capabilities.secgroupRead),
    (secgroupWrite, Capabilities.secgroupWrite), (lbRead, Capabilities.lbRead),
    (lbWrite, Capabilities.lbWrite)].foldl add Capabilities.none

/-! ## The three hosts -/

/-- A host of the crate. -/
inductive AnyHost (σ : Type) where
  | mem (h : MemVmHost)
  | bridge (h : CelhyperVmHost σ)
  | tenant (t : TenantVmHost)

/-- How a host with a capability set is built. -/
inductive Build (σ : Type) where
  | mem (vault : MemVolumeStore) (caps : Capabilities)
  | bridge (link : σ) (strict : Bool) (caps : Capabilities)
  | tenant (id : TenantId) (store : StoreState) (caps : TenantCaps)

namespace Build

variable {σ : Type}

/-- The set it is built with. -/
def caps : Build σ → Capabilities
  | .mem _ caps => caps
  | .bridge _ _ caps => caps
  | .tenant _ _ caps => caps.toMeshCapabilities

def host : Build σ → AnyHost σ
  | .mem vault caps => .mem ((MemVmHost.withVault vault).withCaps caps)
  | .bridge link strict caps => .bridge (((CelhyperVmHost.new link).withStrict strict).withCaps caps)
  | .tenant id store caps => .tenant (.new id store (MemVmHost.new.withCaps caps.toMeshCapabilities))

end Build

/-- What happens to a host: a call, or a move of someone else's on the link or the tenant store it shares. -/
inductive HostEvent (σ : Type) where
  | call (nowMs : UInt64) (c : VmHostCall)
  | link (link : σ)
  | store (store : StoreState)

section

variable {σ : Type} (call : HyperLink σ) (debug : HyperReply → String)

/-- `impl VmHost for TenantVmHost`, at a time of the clock. -/
def TenantVmHost.host (nowMs : UInt64) : VmHost TenantVmHost where
  handle t op := t.handle nowMs op
  snapshot t owner := ((t.inner.currentRows owner).1, { t with inner := (t.inner.currentRows owner).2 })
  attachPreserved t vmId attachments :=
    ((t.inner.attachPreserved vmId attachments).1, { t with inner := (t.inner.attachPreserved vmId attachments).2 })

namespace AnyHost

/-- The set an operation is checked against. -/
def caps : AnyHost σ → Capabilities
  | .mem h => h.caps
  | .bridge h => h.fallback.caps
  | .tenant t => t.inner.caps

def handle (nowMs : UInt64) (op : VmOp) : AnyHost σ → HostResult × AnyHost σ
  | .mem h => ((h.apply op).1, .mem (h.apply op).2)
  | .bridge h => ((h.handle call debug op).1, .bridge (h.handle call debug op).2)
  | .tenant t => ((t.handle nowMs op).1, .tenant (t.handle nowMs op).2)

def step (a : AnyHost σ) : HostEvent σ → Unit × AnyHost σ
  | .call nowMs c =>
    ((), match a with
      | .mem h => .mem (MemVmHost.host.serve h c).2
      | .bridge h => .bridge ((CelhyperVmHost.host call debug).serve h c).2
      | .tenant t => .tenant ((TenantVmHost.host nowMs).serve t c).2)
  | .link link =>
    ((), match a with
      | .bridge h => .bridge { h with link }
      | .mem h => .mem h
      | .tenant t => .tenant t)
  | .store store =>
    ((), match a with
      | .tenant t => .tenant { t with store }
      | .mem h => .mem h
      | .bridge h => .bridge h)

/-- The VMs, volumes, networks and link of two hosts are the same, and the tenant's usage is. -/
def SameState : AnyHost σ → AnyHost σ → Prop
  | .mem h, .mem h' => h' = h
  | .bridge h, .bridge h' => h' = h
  | .tenant t, .tenant t' =>
    t'.inner = t.inner ∧ t'.tenant = t.tenant ∧ ∀ d, t'.store.usageAt d t.tenant = t.store.usageAt d t.tenant
  | _, _ => False

/-- The operation is refused, and nothing changes by it. -/
def Refuses (a : AnyHost σ) (nowMs : UInt64) (op : VmOp) : Prop :=
  (∃ e, (a.handle call debug nowMs op).1 = .error e) ∧ a.SameState (a.handle call debug nowMs op).2

end AnyHost

end

/-- The request a lifecycle operation is sent as. -/
def VmOp.request : VmOp → Option HyperRequest
  | .create label _ imagePath cpuCount memoryMib bootBlobCrc32c =>
    some (.create label imagePath cpuCount memoryMib bootBlobCrc32c)
  | .start vmId => some (.start vmId)
  | .stop vmId => some (.stop vmId)
  | .delete vmId => some (.delete vmId)
  | _ => none

/-- The reply that grants it. -/
def VmOp.granted : VmOp → HyperReply → Bool
  | .create .., reply => reply.asCreated.isSome
  | .start .., reply => reply.asState.isSome
  | .stop .., reply => reply.asState.isSome
  | .delete .., reply => reply.asDeleted.isSome
  | _, _ => false

/-- Where an operation that the set does not grant is refused all the same: a bridge's link does it, or it is not sent over
the link; and a tenant's charge is refused, or is not clipped at the integer maximum. -/
def AnyHost.Gates {σ : Type} (call : HyperLink σ) : AnyHost σ → VmOp → Prop
  | .mem _, _ => True
  | .bridge h, op => op.isLifecycle = false ∨ ∃ req, op.request = some req ∧ (call h.link req).2 = h.link ∧
    ∀ reply, (call h.link req).1 = .ok reply → op.granted reply = false
  | .tenant t, op => ∀ c, chargeFor op = some c → t.store.Chargeable t.tenant c →
    ∀ d, t.store.usageAt d t.tenant + c.amount d ≤ d.max

/-! ## The set stays -/

namespace MemVmHost

variable (h : MemVmHost)

theorem dispatch_caps (op : VmOp) : (h.dispatch op).2.caps = h.caps := by
  cases op with
  | create label restartPolicy imagePath cpuCount memoryMib bootBlobCrc32c =>
    simp only [dispatch, create]
    split
    · rfl
    · split <;> rfl
  | start vmId =>
    simp only [dispatch, start]
    split
    · rfl
    · split
      · rfl
      · split <;> rfl
  | delete vmId =>
    simp only [dispatch, delete]
    split
    · rfl
    · split <;> rfl
  | attachVolume vmId volumeId mountName =>
    simp only [dispatch, attachVolume]
    split
    · rfl
    · split
      · rfl
      · split
        · rfl
        · split <;> rfl
  | createNetwork name cidr =>
    simp only [dispatch, createNetwork]
    split
    · rfl
    · split <;> rfl
  | attachNic networkId vmId ip =>
    simp only [dispatch, attachNic]
    split
    · rfl
    · split <;> rfl
  | createLoadBalancer name networkId vip frontendPort algo backends =>
    simp only [dispatch, createLoadBalancer]
    split
    · rfl
    · split <;> rfl
  | stop vmId =>
    simp only [dispatch, stop]
    split <;> rfl
  | createVolume name sizeBytes =>
    simp only [dispatch, createVolume]
    split <;> rfl
  | deleteVolume volumeId =>
    simp only [dispatch, deleteVolume]
    split <;> rfl
  | detachVolume vmId volumeId =>
    simp only [dispatch, detachVolume]
    split <;> rfl
  | readVolume volumeId offset len =>
    simp only [dispatch, readVolume]
    split <;> rfl
  | writeVolume volumeId offset bytes =>
    simp only [dispatch, writeVolume]
    split <;> rfl
  | createSecurityGroup name rules =>
    simp only [dispatch, createSecurityGroup]
    split <;> rfl
  | list | listVolumes | createSnapshot | listSnapshots | deleteSnapshot | restoreSnapshot | deleteNetwork | listNetworks
  | detachNic | listNics | deleteSecurityGroup | listSecurityGroups | deleteLoadBalancer | listLoadBalancers => rfl

theorem apply_caps (op : VmOp) : (h.apply op).2.caps = h.caps := by
  unfold apply
  split
  · rfl
  · exact h.dispatch_caps op

theorem attachPreserved_caps (vmId : UInt32) (attachments : List VolumeAttachment) :
    (h.attachPreserved vmId attachments).2.caps = h.caps := by
  unfold attachPreserved
  split <;> rfl

/-- **An operation that the set does not grant is refused before anything is done.** -/
theorem apply_denied {op : VmOp} (hop : h.caps.contains (Capabilities.required op) = false) :
    h.apply op = (.error ("capability denied: " ++ Capabilities.opTag op), h) := by
  rw [apply, hop]
  rfl

end MemVmHost

section

variable {σ : Type} (call : HyperLink σ) (debug : HyperReply → String)

theorem CelhyperVmHost.handle_caps (h : CelhyperVmHost σ) (op : VmOp) :
    (h.handle call debug op).2.fallback.caps = h.fallback.caps := by
  have hother : ∀ {op : VmOp}, op.isLifecycle = false →
      (h.handle call debug op).2.fallback.caps = h.fallback.caps := by
    intro op hop
    rw [h.handle_other call debug hop]
    split
    · rfl
    · exact h.fallback.apply_caps op
  cases op with
  | create label restartPolicy imagePath cpuCount memoryMib bootBlobCrc32c =>
    rw [handle_create]
    split <;> rfl
  | delete vmId =>
    rw [handle_delete]
    split <;> rfl
  | start | stop | list => rfl
  | _ => exact hother rfl

namespace TenantVmHost

variable (t : TenantVmHost) (nowMs : UInt64)

theorem bill_inner (op : VmOp) : (t.bill nowMs op).2.inner = t.inner := by
  unfold bill
  split
  · rfl
  · split
    · rfl
    · split <;> rfl

theorem denied_inner (op : VmOp) (err : String) : (t.denied nowMs op err).inner = t.inner := by
  unfold denied
  split
  · rfl
  · split <;> rfl

theorem reconcile_inner (op : VmOp) (reply : HostResult) : (t.reconcile nowMs op reply).2.inner = t.inner := by
  unfold reconcile
  split
  · exact t.denied_inner nowMs op _
  · split <;> rfl
  · split <;> rfl
  · rfl
  · rfl
  · rfl

theorem refund_inner (op : VmOp) (charge : QuotaCharge) : (t.refund nowMs op charge).inner = t.inner := by
  unfold refund
  split <;> rfl

theorem handle_caps (op : VmOp) : (t.handle nowMs op).2.inner.caps = t.inner.caps := by
  have hbill := t.bill_inner nowMs op
  unfold handle
  split
  · rename_i e t' heq
    rw [heq] at hbill
    rw [← hbill]
  · rename_i t' heq
    rw [heq] at hbill
    have hforward : ((t'.forward op).2).inner.caps = t.inner.caps := by
      rw [← hbill]
      exact t'.inner.apply_caps op
    have hreconcile := (t'.forward op).2.reconcile_inner nowMs op (t'.forward op).1
    simp only
    split
    · rename_i t'' heq'
      rw [heq'] at hreconcile
      rw [← hforward, ← hreconcile]
    · rename_i charge t'' heq'
      rw [heq'] at hreconcile
      rw [← hforward, ← hreconcile]
      exact congrArg _ (t''.refund_inner nowMs op charge)

end TenantVmHost

/-- **A host keeps the set it was built with.** -/
theorem AnyHost.step_caps (a : AnyHost σ) (e : HostEvent σ) : (a.step call debug e).2.caps = a.caps := by
  cases e with
  | link link => cases a <;> rfl
  | store store => cases a <;> rfl
  | call nowMs c =>
    cases a with
    | mem h =>
      cases c with
      | handle op => exact h.apply_caps op
      | snapshot owner => exact h.rememberOwner_caps owner
      | attachPreserved vmId attachments => exact h.attachPreserved_caps vmId attachments
    | bridge h =>
      cases c with
      | handle op => exact h.handle_caps call debug op
      | snapshot owner =>
        simp only [step, caps, VmHost.serve, CelhyperVmHost.host, CelhyperVmHost.snapshot]
        split <;> rfl
      | attachPreserved vmId attachments => exact h.fallback.attachPreserved_caps vmId attachments
    | tenant t =>
      cases c with
      | handle op => exact t.handle_caps nowMs op
      | snapshot owner => exact t.inner.rememberOwner_caps owner
      | attachPreserved vmId attachments => exact t.inner.attachPreserved_caps vmId attachments

/-! ## What a host does with an operation it does not grant -/

theorem HyperReply.expect_error_iff {α : Type} {take : HyperReply → Option α} (htake : ∀ m, take (.error m) = none)
    (r : CelResult HyperReply) :
    (∃ e, expect debug take r = .error e) ↔ ∀ reply, r = .ok reply → (take reply).isSome = false := by
  cases r with
  | error e => exact iff_of_true ⟨_, rfl⟩ nofun
  | ok reply =>
    have hforall : (∀ reply', (.ok reply : CelResult HyperReply) = .ok reply' → (take reply').isSome = false) ↔
        (take reply).isSome = false := ⟨fun h => h reply rfl, fun h _ heq => Except.ok.inj heq ▸ h⟩
    rw [hforall]
    cases reply with
    | error m => exact iff_of_true ⟨_, rfl⟩ (by rw [htake]; rfl)
    | _ =>
      simp only [expect]
      cases take _ with
      | none => exact iff_of_true ⟨_, rfl⟩ rfl
      | some a => exact iff_of_false nofun nofun

namespace CelhyperVmHost

variable (h : CelhyperVmHost σ)

/-- A lifecycle operation is refused without a change exactly if the link does so. -/
theorem refuses_iff {α : Type} {g : HyperReply → Option α} (hg : ∀ m, g (.error m) = none) {req : HyperRequest}
    {p : HostResult × CelhyperVmHost σ}
    (herr : ∀ e, HyperReply.expect debug g (call h.link req).1 = .error e →
      p = (.error e, { h with link := (call h.link req).2 }))
    (hok : ∀ a, HyperReply.expect debug g (call h.link req).1 = .ok a → ∃ reply, p.1 = .ok reply) :
    ((∃ e, p.1 = .error e) ∧ p.2 = h) ↔
      (call h.link req).2 = h.link ∧ ∀ reply, (call h.link req).1 = .ok reply → (g reply).isSome = false := by
  rw [← HyperReply.expect_error_iff debug hg]
  cases hr : HyperReply.expect debug g (call h.link req).1 with
  | error e =>
    obtain rfl := herr e hr
    constructor
    · rintro ⟨-, hsame⟩
      exact ⟨congrArg CelhyperVmHost.link hsame, e, rfl⟩
    · rintro ⟨hlink, -⟩
      refine ⟨⟨e, rfl⟩, ?_⟩
      simp only [hlink]
  | ok a =>
    obtain ⟨reply, hreply⟩ := hok a hr
    refine iff_of_false ?_ ?_
    · rintro ⟨⟨e, he⟩, -⟩
      cases hreply.symm.trans he
    · rintro ⟨-, e, he⟩
      cases he

theorem refuses_bridge {op : VmOp} (hop : h.fallback.caps.contains (Capabilities.required op) = false) :
    ((∃ e, (h.handle call debug op).1 = .error e) ∧ (h.handle call debug op).2 = h) ↔
      (AnyHost.bridge h).Gates call op := by
  have hlifecycle : ∀ {op : VmOp} {req : HyperRequest} {g : HyperReply → Bool}, op.request = some req →
      op.isLifecycle = true → op.granted = g →
      ((AnyHost.bridge h).Gates call op ↔
        (call h.link req).2 = h.link ∧ ∀ reply, (call h.link req).1 = .ok reply → g reply = false) := by
    rintro op req _ hreq hlife rfl
    constructor
    · rintro (hno | ⟨req', hreq', hrest⟩)
      · cases hno.symm.trans hlife
      · obtain rfl := Option.some.inj (hreq.symm.trans hreq')
        exact hrest
    · exact fun hrest => .inr ⟨req, hreq, hrest⟩
  have hstate : ∀ {op : VmOp} {req : HyperRequest}, h.handle call debug op = h.changeState call debug req →
      (((∃ e, (h.handle call debug op).1 = .error e) ∧ (h.handle call debug op).2 = h) ↔ (call h.link req).2 = h.link ∧
        ∀ reply, (call h.link req).1 = .ok reply → reply.asState.isSome = false) := by
    intro op req heq
    refine h.refuses_iff call debug (g := HyperReply.asState) (fun _ => rfl) (fun e he => ?_) (fun a ha => ?_)
    · simp only [heq, changeState, he]
      rfl
    · simp only [heq, changeState, ha]
      exact ⟨_, rfl⟩
  cases hlife : op.isLifecycle with
  | false =>
    refine iff_of_true ?_ (.inl hlife)
    rw [h.handle_other call debug hlife]
    split
    · exact ⟨⟨_, rfl⟩, rfl⟩
    · rw [h.fallback.apply_denied hop]
      exact ⟨⟨_, rfl⟩, rfl⟩
  | true =>
    cases op with
    | create label restartPolicy imagePath cpuCount memoryMib bootBlobCrc32c =>
      rw [hlifecycle (g := fun reply => reply.asCreated.isSome) rfl rfl rfl]
      refine h.refuses_iff call debug (g := HyperReply.asCreated) (fun _ => rfl) (fun e he => ?_) (fun a ha => ?_)
      · rw [handle_create, he]
      · rw [handle_create, ha]
        exact ⟨_, rfl⟩
    | start vmId =>
      rw [hlifecycle (g := fun reply => reply.asState.isSome) rfl rfl rfl]
      exact hstate rfl
    | stop vmId =>
      rw [hlifecycle (g := fun reply => reply.asState.isSome) rfl rfl rfl]
      exact hstate rfl
    | delete vmId =>
      rw [hlifecycle (g := fun reply => reply.asDeleted.isSome) rfl rfl rfl]
      refine h.refuses_iff call debug (g := HyperReply.asDeleted) (fun _ => rfl) (fun e he => ?_) (fun a ha => ?_)
      · rw [handle_delete, he]
      · rw [handle_delete, ha]
        exact ⟨_, rfl⟩
    | list =>
      refine iff_of_false ?_ ?_
      · rintro ⟨⟨e, he⟩, -⟩
        cases he
      · rintro (hno | ⟨req, hreq, -⟩)
        · cases hno
        · cases hreq
    | _ => cases hlife

end CelhyperVmHost

namespace TenantVmHost

variable (t : TenantVmHost) (nowMs : UInt64)

/-- What the wrapper does with an operation that its inner host refuses. -/
theorem handle_refused {op : VmOp} {err : String} (hinner : t.inner.apply op = (.error err, t.inner)) :
    t.handle nowMs op = match t.bill nowMs op with
      | (.error e, t') => (.error e, t')
      | (.ok (), t') => (.error err, t'.denied nowMs op err) := by
  have hbill := t.bill_inner nowMs op
  rw [handle]
  rcases heq : t.bill nowMs op with ⟨e | _, t'⟩
  · rfl
  · rw [heq] at hbill
    have hforward : t'.forward op = (.error err, t') := by
      have hinner' : t'.inner.apply op = (.error err, t'.inner) := by
        rw [show t'.inner = t.inner from hbill]
        exact hinner
      simp only [forward, hinner']
    have hreconcile : t'.reconcile nowMs op (.error err) = (none, t'.denied nowMs op err) := by
      cases op <;> rfl
    simp only [hforward, hreconcile]

/-- Charged and refunded, the usage is back where it was exactly if the charge was not clipped. -/
theorem clipped_iff {u c m : Nat} (hc : c ≤ m) : min (u + c) m - c = u ↔ u + c ≤ m := by
  omega

theorem bill_free {op : VmOp} (hfree : chargeFor op = none ∨ chargeFor op = some default) :
    t.bill nowMs op = (.ok (), t) := by
  rcases hfree with hfree | hfree
  · simp only [bill, hfree]
  · simp only [bill, hfree, if_pos]

theorem denied_free {op : VmOp} (hfree : chargeFor op = none ∨ chargeFor op = some default) (err : String) :
    (t.denied nowMs op err).inner = t.inner ∧ (t.denied nowMs op err).tenant = t.tenant ∧
      (t.denied nowMs op err).store = t.store := by
  rcases hfree with hfree | hfree
  · simp only [denied, hfree]
    exact ⟨rfl, rfl, rfl⟩
  · simp only [denied, hfree, if_pos]
    exact ⟨rfl, rfl, rfl⟩

/-- What is not charged for is refused with nothing to refund. -/
theorem refuses_free {op : VmOp} (hop : t.inner.caps.contains (Capabilities.required op) = false)
    (hfree : chargeFor op = none ∨ chargeFor op = some default) :
    (AnyHost.tenant t : AnyHost σ).Refuses call debug nowMs op := by
  have hhandle := t.handle_refused nowMs (t.inner.apply_denied hop)
  rw [t.bill_free nowMs hfree] at hhandle
  obtain ⟨hinner, htenant, hstore⟩ := t.denied_free nowMs hfree ("capability denied: " ++ Capabilities.opTag op)
  simp only [AnyHost.Refuses, AnyHost.handle, AnyHost.SameState, hhandle]
  exact ⟨⟨_, rfl⟩, hinner, htenant, fun d => by rw [hstore]⟩

theorem refuses_tenant {op : VmOp} (hop : t.inner.caps.contains (Capabilities.required op) = false) :
    (AnyHost.tenant t : AnyHost σ).Refuses call debug nowMs op ↔ (AnyHost.tenant t : AnyHost σ).Gates call op := by
  cases hcharge : chargeFor op with
  | none =>
    refine iff_of_true (t.refuses_free call debug nowMs hop (.inl hcharge)) ?_
    intro c hc
    cases hcharge.symm.trans hc
  | some c =>
    have hgates : (AnyHost.tenant t : AnyHost σ).Gates call op ↔ (t.store.Chargeable t.tenant c →
        ∀ d, t.store.usageAt d t.tenant + c.amount d ≤ d.max) :=
      ⟨fun h => h c hcharge, fun h c' hc' => Option.some.inj (hcharge.symm.trans hc') ▸ h⟩
    rw [hgates]
    by_cases hzero : c = default
    · refine iff_of_true (t.refuses_free call debug nowMs hop (.inr (hzero ▸ hcharge))) fun _ d => ?_
      rw [hzero, QuotaCharge.amount_default, Nat.add_zero]
      exact t.store.usageAt_le_max d t.tenant
    · have hhandle := t.handle_refused nowMs (t.inner.apply_denied hop)
      rcases StoreState.charge_usageAt t.store t.tenant c with
        ⟨e, he, hno⟩ | ⟨u, s', heq, hfits, hchain, hup, husage⟩
      · refine iff_of_true ?_ (fun hfits => absurd hfits hno)
        have hbill : ∃ e' t', t.bill nowMs op = (.error e', t') ∧ t'.inner = t.inner ∧ t'.tenant = t.tenant ∧
            t'.store = t.store := by
          simp only [bill, hcharge, if_neg hzero, he]
          exact ⟨_, _, rfl, rfl, rfl, rfl⟩
        obtain ⟨e', t', hbill, hinner, htenant, hstore⟩ := hbill
        rw [hbill] at hhandle
        simp only [AnyHost.Refuses, AnyHost.handle, AnyHost.SameState, hhandle]
        exact ⟨⟨_, rfl⟩, hinner, htenant, fun d => by rw [hstore]⟩
      · have hbill : ∃ t', t.bill nowMs op = (.ok (), t') ∧ t'.inner = t.inner ∧ t'.tenant = t.tenant ∧
            t'.store = s' := by
          simp only [bill, hcharge, if_neg hzero, heq]
          exact ⟨_, rfl, rfl, rfl, rfl⟩
        obtain ⟨t', hbill, hinner, htenant, hstore⟩ := hbill
        have hdenied : ∀ err, (t'.denied nowMs op err).inner = t.inner ∧ (t'.denied nowMs op err).tenant = t.tenant ∧
            (t'.denied nowMs op err).store = (s'.release t.tenant c).2 := by
          intro err
          simp only [denied, hcharge, if_neg hzero]
          exact ⟨hinner, htenant, by rw [← hstore, ← htenant]; rfl⟩
        rw [hbill] at hhandle
        simp only [AnyHost.Refuses, AnyHost.handle, AnyHost.SameState, hhandle]
        obtain ⟨hinner', htenant', hstore'⟩ := hdenied ("capability denied: " ++ Capabilities.opTag op)
        rw [hstore']
        have hrelease : ∃ chain, s'.chainFrom t.tenant = .ok chain := by
          obtain ⟨chain, hchain⟩ := hchain
          exact ⟨chain, by rwa [StoreState.chainFrom_ok_iff, hup, ← StoreState.chainFrom_ok_iff]⟩
        -- The refund restores a dimension exactly if the charge did not clip it.
        have hback : (∀ d, (s'.release t.tenant c).2.usageAt d t.tenant = t.store.usageAt d t.tenant) ↔
            ∀ d, t.store.usageAt d t.tenant + c.amount d ≤ d.max := by
          refine forall_congr' fun d => ?_
          rw [StoreState.usageAt_release hrelease, husage]
          exact clipped_iff (c.amount_le_max d)
        constructor
        · rintro ⟨-, -, -, hsame⟩ -
          exact hback.1 hsame
        · exact fun hfit => ⟨⟨_, rfl⟩, hinner', htenant', hback.2 (hfit hfits)⟩

end TenantVmHost

/-- **On a host built with a capability set, in every state it comes to, an operation that the set does not grant is
refused without a change exactly if the host gates it**: always by the in-memory host, by the bridge if the operation
does not go over its link or the link refuses it, and by the tenant wrapper unless the charge it makes first is clipped. -/
theorem capability_gate_iff (b : Build σ) (events : List (HostEvent σ)) {a : AnyHost σ}
    (ha : a ∈ states (AnyHost.step call debug) b.host events) (nowMs : UInt64) {op : VmOp}
    (hop : b.caps.contains (Capabilities.required op) = false) : a.Refuses call debug nowMs op ↔ a.Gates call op := by
  have hbuilt : b.host.caps = b.caps := by
    cases b <;> rfl
  have hcaps : a.caps = b.caps :=
    inv_states (I := fun a => a.caps = b.caps) (fun s e hs => (s.step_caps call debug e).trans hs) hbuilt events a ha
  rw [← hcaps] at hop
  cases a with
  | mem h =>
    refine iff_of_true ?_ trivial
    simp only [AnyHost.Refuses, AnyHost.handle, AnyHost.SameState, h.apply_denied hop]
    exact ⟨⟨_, rfl⟩, trivial⟩
  | bridge h => exact h.refuses_bridge call debug hop
  | tenant t => exact t.refuses_tenant call debug nowMs hop

end

theorem read_only_refuses_create :
    (Build.mem default .vmLifecycleRead : Build Unit).caps.contains
      (Capabilities.required (.create "web" .never none none none none)) = false ∧
    (AnyHost.mem (MemVmHost.new.withCaps .vmLifecycleRead) : AnyHost Unit).Refuses (fun s _ => (.error (.invalid ""), s))
      (fun _ => "") 0 (.create "web" .never none none none none) := by
  have hop : (Build.mem default .vmLifecycleRead : Build Unit).caps.contains
      (Capabilities.required (.create "web" .never none none none none)) = false := by decide +kernel
  refine ⟨hop, ?_⟩
  exact (capability_gate_iff (fun s _ => (.error (.invalid ""), s)) (fun _ => "") (.mem default .vmLifecycleRead) []
    (List.mem_singleton.2 rfl) 0 hop).2 trivial

/-- **The bridge creates and lists VMs with no capability at all.** -/
theorem bridge_ungated :
    (Build.bridge LoopbackHyperLink.new false .none).caps.contains
      (Capabilities.required (.create "web" .never none none none none)) = false ∧
    (((CelhyperVmHost.new LoopbackHyperLink.new).withCaps .none).handle LoopbackHyperLink.apply (fun _ => "")
      (.create "web" .never none none none none)).1 = .ok (.created 0) ∧
    (((CelhyperVmHost.new LoopbackHyperLink.new).withCaps .none).handle LoopbackHyperLink.apply (fun _ => "") .list).1 =
      .ok (.listed []) ∧
    ¬ (Build.bridge LoopbackHyperLink.new false .none).host.Refuses LoopbackHyperLink.apply (fun _ => "") 0
      (.create "web" .never none none none none) := by
  refine ⟨by decide +kernel, by decide +kernel, rfl, ?_⟩
  rintro ⟨⟨e, he⟩, -⟩
  have hok : ((Build.bridge LoopbackHyperLink.new false .none).host.handle LoopbackHyperLink.apply (fun _ => "") 0
      (.create "web" .never none none none none)).1 = .ok (.created 0) := by decide +kernel
  cases hok.symm.trans he

end Celium
