import Celium.MemHost
import Celium.Store
import Celium.Lib.Runs
import Mathlib.Data.Finset.Option
/-!
# Runtime — the quota-charging VM host, and many calls on it at once

`celtenancy::runtime::TenantVmHost` over a tenant store and a `MemVmHost`.  `handle` takes its locks one at a time, so
it is cut where another call can come between: `bill` (the charge), `forward` (the inner host), `reconcile` (the charge
map, or the refund of a refused create) and `refund` (the release after a delete).  `Fleet` is any number of calls in
flight on one wrapper; a step lets one of them take its next part.
-/
namespace Celium

open Runs

/-! ## Audit events -/

inductive AuditAction where
  | charge | release | deny | exec
deriving DecidableEq, Repr

structure AuditEvent where
  timestampMillis : UInt64
  tenant : String
  user : Option String
  action : AuditAction
  opCapabilityTag : Option String
  charge : Option QuotaCharge
  success : Bool
  error : Option String
  note : Option String
deriving DecidableEq, Repr

/-- `AuditEvent::now`, at the clock's `nowMs`. -/
def AuditEvent.now (nowMs : UInt64) (tenant : String) (action : AuditAction) : AuditEvent :=
  ⟨nowMs, tenant, none, action, none, none, true, none, none⟩

/-! ## The wrapper -/

structure TenantVmHost where
  tenant : TenantId
  tenantName : String
  store : StoreState
  inner : MemVmHost
  vmCharges : AList (fun _ : UInt32 => QuotaCharge)
  volumeCharges : AList (fun _ : VolumeId => QuotaCharge)
  /-- What the sink has recorded, if there is one. -/
  audit : Option (List AuditEvent)
  auditUser : Option String

/-- `charge_for`: the charge an operation implies. -/
def chargeFor : VmOp → Option QuotaCharge
  | .create _ _ _ cpuCount memoryMib _ =>
    some { (default : QuotaCharge) with vcpus := cpuCount.getD 0, memoryMib := memoryMib.getD 0 }
  | .createVolume _ sizeBytes => some { (default : QuotaCharge) with storageBytes := sizeBytes }
  | _ => none

namespace TenantVmHost

def new (tenant : TenantId) (store : StoreState) (inner : MemVmHost) : TenantVmHost :=
  { tenant, store, inner, vmCharges := ∅, volumeCharges := ∅, audit := none, auditUser := none,
    tenantName := match store.tenants.lookup tenant.raw with
      | some t => t.name
      | none => "tenant#tenant-" ++ toString tenant.raw }

def withAudit (t : TenantVmHost) (sink : List AuditEvent) : TenantVmHost := { t with audit := some sink }

def withAuditUser (t : TenantVmHost) (user : String) : TenantVmHost := { t with auditUser := some user }

def emit (t : TenantVmHost) (ev : AuditEvent) : TenantVmHost := { t with audit := t.audit.map (· ++ [ev]) }

/-- `event_template(..).with_op_tag(op_tag)`. -/
def event (t : TenantVmHost) (nowMs : UInt64) (action : AuditAction) (op : VmOp) : AuditEvent :=
  { AuditEvent.now nowMs t.tenantName action with user := t.auditUser, opCapabilityTag := some (Capabilities.opTag op) }

/-- Part 1: charge what the operation implies, unless that is nothing. -/
def bill (t : TenantVmHost) (nowMs : UInt64) (op : VmOp) : Except String Unit × TenantVmHost :=
  match chargeFor op with
  | none => (.ok (), t)
  | some charge =>
    if charge = default then (.ok (), t)
    else match t.store.charge t.tenant charge with
      | (.error e, store) =>
        (.error ("tenant: quota: " ++ e.display),
          { t with store }.emit { t.event nowMs .deny op with
            charge := some charge, success := false, error := some ("quota: " ++ e.display) })
      | (.ok _, store) =>
        (.ok (), { t with store }.emit { t.event nowMs .charge op with charge := some charge })

/-- Part 3: the inner host. -/
def forward (t : TenantVmHost) (op : VmOp) : HostResult × TenantVmHost :=
  let (reply, inner) := t.inner.apply op
  (reply, { t with inner })

/-- The inner host refused: refund the charge, if one was made, and record the denial. -/
def denied (t : TenantVmHost) (nowMs : UInt64) (op : VmOp) (err : String) : TenantVmHost :=
  match chargeFor op with
  | none => t.emit { t.event nowMs .deny op with success := false, error := some err }
  | some c =>
    if c = default then t.emit { t.event nowMs .deny op with success := false, error := some err }
    else
      { t with store := (t.store.release t.tenant c).2 }.emit { t.event nowMs .deny op with
        charge := some c, success := false, error := some err, note := some "refunded" }

/-- Parts 4 and 5 up to the release: a create's charge enters its map, a delete's leaves it and is the answer. -/
def reconcile (t : TenantVmHost) (nowMs : UInt64) (op : VmOp) (reply : HostResult) :
    Option QuotaCharge × TenantVmHost :=
  match op, reply with
  | _, .error err => (none, t.denied nowMs op err)
  | .create .., .ok (.created vmId) =>
    match chargeFor op with
    | none => (none, t)
    | some c => (none, { t with vmCharges := t.vmCharges.insert vmId c })
  | .createVolume .., .ok (.volumeCreated volume) =>
    match chargeFor op with
    | none => (none, t)
    | some c => (none, { t with volumeCharges := t.volumeCharges.insert volume.id c })
  | .delete vmId, .ok (.deleted _) =>
    (t.vmCharges.lookup vmId, { t with vmCharges := t.vmCharges.erase vmId })
  | .deleteVolume volumeId, .ok (.volumeDeleted _) =>
    (t.volumeCharges.lookup volumeId, { t with volumeCharges := t.volumeCharges.erase volumeId })
  | _, _ => (none, t)

/-- Part 5, the release.  A failure is only logged. -/
def refund (t : TenantVmHost) (nowMs : UInt64) (op : VmOp) (charge : QuotaCharge) : TenantVmHost :=
  match t.store.release t.tenant charge with
  | (.error _, store) => { t with store }
  | (.ok _, store) => { t with store }.emit { t.event nowMs .release op with charge := some charge }

/-- `handle`, when nothing comes between its parts. -/
def handle (t : TenantVmHost) (nowMs : UInt64) (op : VmOp) : HostResult × TenantVmHost :=
  match t.bill nowMs op with
  | (.error e, t) => (.error e, t)
  | (.ok (), t) =>
    let (reply, t) := t.forward op
    match t.reconcile nowMs op reply with
    | (none, t) => (reply, t)
    | (some charge, t) => (reply, t.refund nowMs op charge)

end TenantVmHost

/-! ## Calls in flight -/

/-- Where a call stands: what it does next. -/
inductive Phase where
  | bill (op : VmOp)
  | forward (op : VmOp)
  | reconcile (op : VmOp) (reply : HostResult)
  | refund (op : VmOp) (charge : QuotaCharge) (reply : HostResult)
deriving DecidableEq, Repr

/-- A VM or a volume of the inner host. -/
inductive Resource where
  | vm (vmId : UInt32)
  | volume (volumeId : VolumeId)
deriving DecidableEq, Repr

/-- The resource a create got from the inner host. -/
def issued : VmOp → HostResult → Option Resource
  | .create .., .ok (.created vmId)              => some (.vm vmId)
  | .createVolume .., .ok (.volumeCreated volume) => some (.volume volume.id)
  | _, _                                         => none

/-- The resource a delete freed in the inner host. -/
def freed : VmOp → HostResult → Option Resource
  | .delete vmId, .ok (.deleted _)                    => some (.vm vmId)
  | .deleteVolume volumeId, .ok (.volumeDeleted _)    => some (.volume volumeId)
  | _, _                                              => none

/-- One wrapper and the calls in flight on it, in the order of their last steps; `made` are the resources its creates
got from the inner host so far. -/
structure Fleet where
  host : TenantVmHost
  inFlight : List Phase
  made : Finset Resource

inductive Act where
  /-- A new call arrives. -/
  | call (op : VmOp)
  /-- The `k`-th call in flight takes its next part. -/
  | advance (k : Nat) (nowMs : UInt64)
  | snapshot (owner : NodeId)
  | attachPreserved (vmId : UInt32) (attachments : List VolumeAttachment)
deriving DecidableEq, Repr

namespace Fleet

/-- The next part of a call at `p`: its reply, if it returns, and where it stands after, if it does not. -/
def advance (w : Fleet) (nowMs : UInt64) : Phase → (Option HostResult × Option Phase) × Fleet
  | .bill op =>
    match w.host.bill nowMs op with
    | (.error e, host) => ((some (.error e), none), { w with host })
    | (.ok (), host) => ((none, some (.forward op)), { w with host })
  | .forward op =>
    let (reply, host) := w.host.forward op
    ((none, some (.reconcile op reply)), { w with host, made := w.made ∪ (issued op reply).toFinset })
  | .reconcile op reply =>
    match w.host.reconcile nowMs op reply with
    | (none, host) => ((some reply, none), { w with host })
    | (some charge, host) => ((none, some (.refund op charge reply)), { w with host })
  | .refund op charge reply => ((some reply, none), { w with host := w.host.refund nowMs op charge })

def step (w : Fleet) : Act → Option HostResult × Fleet
  | .call op => (none, { w with inFlight := w.inFlight ++ [.bill op] })
  | .advance k nowMs =>
    match w.inFlight[k]? with
    | none => (none, w)
    | some p =>
      let ((reply, next), w) := w.advance nowMs p
      (reply, { w with inFlight := w.inFlight.eraseIdx k ++ next.toList })
  | .snapshot owner => (none, { w with host := { w.host with inner := (w.host.inner.currentRows owner).2 } })
  | .attachPreserved vmId attachments =>
    (none, { w with host := { w.host with inner := (w.host.inner.attachPreserved vmId attachments).2 } })

/-- No call yet. -/
def idle (host : TenantVmHost) : Fleet := ⟨host, [], ∅⟩

/-- **A call that runs alone is `handle`**: it leaves the host `handle` leaves, and its last step returns the reply. -/
theorem run_alone (w : Fleet) (hidle : w.inFlight = []) (nowMs : UInt64) (op : VmOp) :
    ∃ n, let acts := Act.call op :: List.replicate n (Act.advance 0 nowMs)
      (run step w acts).host = (w.host.handle nowMs op).2 ∧ (run step w acts).inFlight = [] ∧
      (answers step w acts).getLast? = some (some (w.host.handle nowMs op).1) := by
  obtain ⟨host, inFlight, made⟩ := w
  obtain rfl : inFlight = [] := hidle
  simp only [TenantVmHost.handle]
  cases hb : host.bill nowMs op with
  | mk r t =>
    cases r with
    | error e => exact ⟨1, by simp [run, answers, step, advance, hb]⟩
    | ok u =>
      cases hr : (t.forward op).2.reconcile nowMs op (t.forward op).1 with
      | mk found t' =>
        cases found with
        | none => exact ⟨3, by simp [run, answers, step, advance, hb, hr, List.replicate_succ]⟩
        | some c => exact ⟨4, by simp [run, answers, step, advance, hb, hr, List.replicate_succ]⟩

end Fleet

end Celium
