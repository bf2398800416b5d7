import Celium.Loopback
import Celium.Supervisor
import Celium.SupervisorOnce
/-!
# HyperHost — the VM host over a link to the kernel

`celmesh::hyper_host::CelhyperVmHost`: the lifecycle operations go over a link, everything else to a `MemVmHost` that the
host contains, with slots, stores and an owner of its own.  The labels and the restart policies of the VMs are kept beside
the link, for the rows of `snapshot`.  A link is a state and what a call does to it; `debug` is the derived `Debug` of a
reply.
-/
namespace Celium

/-- A link to a kernel: the trait `HyperLink`. -/
abbrev HyperLink (σ : Type) : Type := σ → HyperRequest → CelResult HyperReply × σ

structure CelhyperVmHost (σ : Type) where
  link : σ
  fallback : MemVmHost
  labels : AList (fun _ : UInt32 => String)
  policies : AList (fun _ : UInt32 => RestartPolicy)
  strict : Bool

/-- `op_kind`, for the operations that are not the kernel's. -/
def opKind : VmOp → String
  | .create ..              => "Create"
  | .start ..               => "Start"
  | .stop ..                => "Stop"
  | .delete ..              => "Delete"
  | .list                   => "List"
  | .createVolume ..        => "CreateVolume"
  | .deleteVolume ..        => "DeleteVolume"
  | .listVolumes            => "ListVolumes"
  | .attachVolume ..        => "AttachVolume"
  | .detachVolume ..        => "DetachVolume"
  | .readVolume ..          => "ReadVolume"
  | .writeVolume ..         => "WriteVolume"
  | .createSnapshot ..      => "CreateSnapshot"
  | .listSnapshots ..       => "ListSnapshots"
  | .deleteSnapshot ..      => "DeleteSnapshot"
  | .restoreSnapshot ..     => "RestoreSnapshot"
  | .createNetwork ..       => "CreateNetwork"
  | .deleteNetwork ..       => "DeleteNetwork"
  | .listNetworks           => "ListNetworks"
  | .attachNic ..           => "AttachNic"
  | .detachNic ..           => "DetachNic"
  | .listNics               => "ListNics"
  | .createSecurityGroup .. => "CreateSecurityGroup"
  | .deleteSecurityGroup .. => "DeleteSecurityGroup"
  | .listSecurityGroups     => "ListSecurityGroups"
  | .createLoadBalancer ..  => "CreateLoadBalancer"
  | .deleteLoadBalancer ..  => "DeleteLoadBalancer"
  | .listLoadBalancers      => "ListLoadBalancers"

/-- `Create`, `Start`, `Stop`, `Delete` and `List`. -/
def VmOp.isLifecycle : VmOp → Bool
  | .create .. | .start .. | .stop .. | .delete .. | .list => true
  | _ => false

/-- What the host takes from a reply of the link: the kind of reply it waits for, or an error. -/
def HyperReply.expect {α : Type} (debug : HyperReply → String) (take : HyperReply → Option α) :
    CelResult HyperReply → Except String α
  | .error e => .error ("hyper: " ++ e.debug)
  | .ok (.error message) => .error ("hyper: kernel: " ++ message)
  | .ok reply =>
    match take reply with
    | none => .error ("hyper: unexpected reply " ++ debug reply)
    | some a => .ok a

def HyperReply.asCreated : HyperReply → Option UInt32
  | .created vmId => some vmId
  | _ => none

def HyperReply.asState : HyperReply → Option (UInt32 × String)
  | .state vmId st _ => some (vmId, st)
  | _ => none

def HyperReply.asDeleted : HyperReply → Option UInt32
  | .deleted vmId => some vmId
  | _ => none

namespace CelhyperVmHost

variable {σ : Type}

def new (link : σ) : CelhyperVmHost σ := ⟨link, .new, ∅, ∅, false⟩

def withStrict (h : CelhyperVmHost σ) (strict : Bool) : CelhyperVmHost σ := { h with strict }

/-- The set is that of the contained host. -/
def withCaps (h : CelhyperVmHost σ) (caps : Capabilities) : CelhyperVmHost σ :=
  { h with fallback := MemVmHost.new.withCaps caps }

def remember (h : CelhyperVmHost σ) (vmId : UInt32) (label : String) (policy : RestartPolicy) : CelhyperVmHost σ :=
  { h with labels := h.labels.insert vmId label, policies := h.policies.insert vmId policy }

def forget (h : CelhyperVmHost σ) (vmId : UInt32) : CelhyperVmHost σ :=
  { h with labels := h.labels.erase vmId, policies := h.policies.erase vmId }

def labelOf (h : CelhyperVmHost σ) (vmId : UInt32) : String := (h.labels.lookup vmId).getD ""

def policyOf (h : CelhyperVmHost σ) (vmId : UInt32) : RestartPolicy := (h.policies.lookup vmId).getD .never

variable (call : HyperLink σ) (debug : HyperReply → String)

/-- `Start` and `Stop`, which the link answers with a state. -/
def changeState (h : CelhyperVmHost σ) (req : HyperRequest) : HostResult × CelhyperVmHost σ :=
  let (reply, link) := call h.link req
  ((HyperReply.expect debug HyperReply.asState reply).map (fun p => .state p.1 p.2), { h with link })

def handle (h : CelhyperVmHost σ) : VmOp → HostResult × CelhyperVmHost σ
  | .create label restartPolicy imagePath cpuCount memoryMib bootBlobCrc32c =>
    let (reply, link) := call h.link (.create label imagePath cpuCount memoryMib bootBlobCrc32c)
    match HyperReply.expect debug HyperReply.asCreated reply with
    | .error e => (.error e, { h with link })
    | .ok vmId => (.ok (.created vmId), { h with link }.remember vmId label restartPolicy)
  | .start vmId => h.changeState call debug (.start vmId)
  | .stop vmId => h.changeState call debug (.stop vmId)
  | .delete vmId =>
    let (reply, link) := call h.link (.delete vmId)
    match HyperReply.expect debug HyperReply.asDeleted reply with
    | .error e => (.error e, { h with link })
    | .ok vmId => (.ok (.deleted vmId), { h with link }.forget vmId)
  | .list => (.ok (.listed []), h)
  | other =>
    if h.strict then (.error ("hyper: bridge does not implement " ++ opKind other ++ " (strict mode)"), h)
    else
      let (reply, fallback) := h.fallback.apply other
      (reply, { h with fallback })

theorem handle_create (h : CelhyperVmHost σ) (label : String) (restartPolicy : RestartPolicy) (imagePath : Option String)
    (cpuCount : Option UInt32) (memoryMib : Option UInt64) (bootBlobCrc32c : Option UInt32) :
    h.handle call debug (.create label restartPolicy imagePath cpuCount memoryMib bootBlobCrc32c) =
      match HyperReply.expect debug HyperReply.asCreated
        (call h.link (.create label imagePath cpuCount memoryMib bootBlobCrc32c)).1 with
      | .error e =>
        (.error e, { h with link := (call h.link (.create label imagePath cpuCount memoryMib bootBlobCrc32c)).2 })
      | .ok vmId =>
        (.ok (.created vmId),
          { h with link := (call h.link (.create label imagePath cpuCount memoryMib bootBlobCrc32c)).2 }.remember vmId label
            restartPolicy) :=
  rfl

theorem handle_start (h : CelhyperVmHost σ) (vmId : UInt32) :
    h.handle call debug (.start vmId) = h.changeState call debug (.start vmId) := rfl

theorem handle_stop (h : CelhyperVmHost σ) (vmId : UInt32) :
    h.handle call debug (.stop vmId) = h.changeState call debug (.stop vmId) := rfl

theorem handle_delete (h : CelhyperVmHost σ) (vmId : UInt32) :
    h.handle call debug (.delete vmId) =
      match HyperReply.expect debug HyperReply.asDeleted (call h.link (.delete vmId)).1 with
      | .error e => (.error e, { h with link := (call h.link (.delete vmId)).2 })
      | .ok gone => (.ok (.deleted gone), { h with link := (call h.link (.delete vmId)).2 }.forget gone) :=
  rfl

theorem handle_other (h : CelhyperVmHost σ) {op : VmOp} (hop : op.isLifecycle = false) :
    h.handle call debug op =
      if h.strict then (.error ("hyper: bridge does not implement " ++ opKind op ++ " (strict mode)"), h)
      else ((h.fallback.apply op).1, { h with fallback := (h.fallback.apply op).2 }) := by
  cases op with
  | create | start | stop | delete | list => cases hop
  | _ => rfl

/-- The row of a VM; a link that keeps no labels sends an empty one. -/
def row (h : CelhyperVmHost σ) (owner : NodeId) (r : HyperVmRow) : RemoteVm :=
  { owner, vmId := r.vmId, label := if r.label.isEmpty then h.labelOf r.vmId else r.label, state := r.state,
    lastExit := r.lastExit, epoch := 0, hlc := 0, ownerAlive := true, restartPolicy := h.policyOf r.vmId, volumes := [],
    imagePath := r.imagePath, cpuCount := r.cpuCount, memoryMib := r.memoryMib, bootBlobCrc32c := r.bootBlobCrc32c }

def snapshot (h : CelhyperVmHost σ) (owner : NodeId) : List RemoteVm × CelhyperVmHost σ :=
  let (reply, link) := call h.link .list
  match reply with
  | .ok (.listed rows) => (rows.map (h.row owner), { h with link })
  | _ => ([], { h with link })

def attachPreserved (h : CelhyperVmHost σ) (vmId : UInt32) (attachments : List VolumeAttachment) :
    Except String Unit × CelhyperVmHost σ :=
  let (r, fallback) := h.fallback.attachPreserved vmId attachments
  (r, { h with fallback })

/-- `impl VmHost for CelhyperVmHost`. -/
def host : VmHost (CelhyperVmHost σ) := ⟨handle call debug, snapshot call, attachPreserved⟩

end CelhyperVmHost

/-! ## A host as a system of calls -/

/-- A call of one of the trait's methods. -/
inductive VmHostCall where
  | handle (op : VmOp)
  | snapshot (owner : NodeId)
  | attachPreserved (vmId : UInt32) (attachments : List VolumeAttachment)
deriving DecidableEq, Repr

inductive VmHostReply where
  | handled (r : HostResult)
  | rows (rows : List RemoteVm)
  | attached (r : Except String Unit)
deriving DecidableEq

def VmHost.serve {σ : Type} (H : VmHost σ) (h : σ) : VmHostCall → VmHostReply × σ
  | .handle op =>
    let (r, h) := H.handle h op
    (.handled r, h)
  | .snapshot owner =>
    let (rows, h) := H.snapshot h owner
    (.rows rows, h)
  | .attachPreserved vmId attachments =>
    let (r, h) := H.attachPreserved h vmId attachments
    (.attached r, h)

/-- Both `Ok` with the same reply, or both an error; the same rows. -/
def VmHostReply.Agrees : VmHostReply × VmHostReply → Prop
  | (.handled (.ok a), .handled (.ok b)) => a = b
  | (.handled (.error _), .handled (.error _)) => True
  | (.rows a, .rows b) => a = b
  | (.attached (.ok _), .attached (.ok _)) => True
  | (.attached (.error _), .attached (.error _)) => True
  | _ => False

/-- The same call to two hosts. -/
def VmHost.both {σ τ : Type} (H : VmHost σ) (K : VmHost τ) (s : σ × τ) (c : VmHostCall) :
    (VmHostReply × VmHostReply) × (σ × τ) :=
  (((H.serve s.1 c).1, (K.serve s.2 c).1), ((H.serve s.1 c).2, (K.serve s.2 c).2))

end Celium
