import Celium.MemHost
import Celium.NetworkAlloc
/-!
# K8s — a cluster of VMs on one owner, made and torn down over the mesh

`celmesh::k8s`.  `create` is a chain of calls to the owner's host that stops at the first error; `destroy` makes all its
calls and keeps the first error.  A call is `Mesh::invoke`: on the local node the host serves it, and what it does is
published, for which the host is asked for a snapshot; on a remote node it can also be lost, with an error, before or
after the host served it.  The nodes' memberships and what is published are left out.
-/
namespace Celium

open Fixed

/-! ## Addresses as texts -/

namespace Ipv4Addr

/-- The `i`-th of the four octets, the last one being the 0th. -/
def octetAt (a : Ipv4Addr) (i : Nat) : Nat := a.bits.toNat / 256 ^ i % 256

/-- `to_string`. -/
def display (a : Ipv4Addr) : String :=
  toString (a.octetAt 3) ++ "." ++ toString (a.octetAt 2) ++ "." ++ toString (a.octetAt 1) ++ "." ++
    toString (a.octetAt 0)

end Ipv4Addr

/-! ## The records -/

structure K8sClusterSpec where
  name : String
  workers : UInt32
  cidr : String
  apiPort : UInt16
  apiBackendPort : UInt16
  algo : LbAlgo
deriving DecidableEq, Repr

inductive K8sNodeRole where
  | controlPlane | worker
deriving DecidableEq, Repr

structure K8sNodeRecord where
  role : K8sNodeRole
  vmId : UInt32
  label : String
  nic : Nic
deriving DecidableEq, Repr

structure K8sCluster where
  spec : K8sClusterSpec
  owner : NodeId
  network : VirtualNetwork
  lb : LoadBalancer
  nodes : List K8sNodeRecord
deriving DecidableEq, Repr

/-! ## Calls to the owner -/

/-- What becomes of a call to a remote node. -/
inductive Carriage where
  | answered
  | lost (e : CelError) (served : Bool)
deriving DecidableEq

/-- The owner as `create` and `destroy` see it: where it is, its host, and what becomes of the next calls to it; those
after them are answered, as all are on the local node. -/
structure K8sOwner where
  id : NodeId
  remote : Bool
  host : MemVmHost
  carriage : List Carriage
deriving DecidableEq

/-- `CelResult` with the owner along. -/
abbrev K8sCall (α : Type) := ExceptT CelError (StateM K8sOwner) α

def K8sCall.run {α : Type} (x : K8sCall α) (o : K8sOwner) : CelResult α × K8sOwner := x o

namespace K8sOwner

/-- `handle`, and the republication after a success. -/
def serve (o : K8sOwner) (op : VmOp) : CelResult VmOpReply × K8sOwner :=
  match o.host.apply op with
  | (.error s, h) => (.error (.io ((if o.remote then "remote host: " else "host: ") ++ s)), { o with host := h })
  | (.ok r, h) => (.ok r, { o with host := h.rememberOwner o.id })

/-- `Mesh::invoke`. -/
def invoke (o : K8sOwner) (op : VmOp) : CelResult VmOpReply × K8sOwner :=
  match o.carriage with
  | [] => o.serve op
  | .answered :: cs => { o with carriage := cs }.serve op
  | .lost e served :: cs =>
    let o := { o with carriage := cs }
    (.error e, if served then (o.serve op).2 else o)

end K8sOwner

def invoke (op : VmOp) : K8sCall VmOpReply := fun o => o.invoke op

/-- The `match` on a reply, with the text for one of another kind. -/
def expect {α : Type} (what : String) : Option α → K8sCall α
  | some a => pure a
  | none => throw (.internal ("k8s: unexpected reply (" ++ what ++ ")"))

namespace VmOpReply

def network? : VmOpReply → Option VirtualNetwork
  | .networkCreated network => some network
  | _ => none

def vmId? : VmOpReply → Option UInt32
  | .created vmId => some vmId
  | _ => none

def nic? : VmOpReply → Option Nic
  | .nicAttached nic => some nic
  | _ => none

def lb? : VmOpReply → Option LoadBalancer
  | .loadBalancerCreated lb => some lb
  | _ => none

end VmOpReply

/-! ## Making a cluster -/

namespace K8sCluster

/-- One VM with its NIC, started; `tag` is `cp` or `worker`. -/
def provision (network : NetworkId) (role : K8sNodeRole) (tag label : String) : K8sCall K8sNodeRecord := do
  let vmId ← expect ("Create " ++ tag) (← invoke (.create label .always none none none none)).vmId?
  let nic ← expect ("AttachNic " ++ tag) (← invoke (.attachNic network vmId none)).nic?
  let _ ← invoke (.start vmId)
  pure { role, vmId, label, nic }

/-- The loop over the workers. -/
def provisionWorkers (network : NetworkId) : List String → K8sCall (List K8sNodeRecord)
  | [] => pure []
  | label :: labels => do
    let node ← provision network .worker "worker" label
    let nodes ← provisionWorkers network labels
    pure (node :: nodes)

def workerLabels (spec : K8sClusterSpec) : List String :=
  (List.range spec.workers.toNat).map (fun i => "k8s-worker-" ++ spec.name ++ "-" ++ toString i)

def create (owner : NodeId) (spec : K8sClusterSpec) : K8sCall K8sCluster :=
  if spec.workers = 0 ∨ spec.workers > 16 then throw (.invalid "k8s: workers must be in 1..=16")
  else match Cidr4.parse spec.cidr with
    | .error _ => throw (.invalid "k8s: bad cidr")
    | .ok _ => do
      let network ← expect "CreateNetwork" (← invoke (.createNetwork spec.name spec.cidr)).network?
      let controlPlane ← provision network.id .controlPlane "cp" ("k8s-cp-" ++ spec.name)
      let workers ← provisionWorkers network.id (workerLabels spec)
      let backends := workers.map (fun n => { vmId := n.vmId, ip := n.nic.ip, port := spec.apiBackendPort : LbBackend })
      match network.cidr.nthHost network.cidr.capacity with
      | none => throw (.invalid "k8s: no room for VIP in CIDR")
      | some vip => do
        let lb ← expect "CreateLoadBalancer" (← invoke
          (.createLoadBalancer (spec.name ++ "-api") network.id vip.display spec.apiPort spec.algo backends)).lb?
        pure { spec, owner, network, lb, nodes := controlPlane :: workers }

/-! ## Tearing it down -/

/-- A call whose error is kept if it is the first. -/
def attempt (op : VmOp) (p : Option CelError × K8sOwner) : Option CelError × K8sOwner :=
  match p.2.invoke op with
  | (.ok _, o) => (p.1, o)
  | (.error e, o) => (p.1.or (some e), o)

/-- NIC, then VM; what `Stop` answers is ignored. -/
def destroyNode (p : Option CelError × K8sOwner) (n : K8sNodeRecord) : Option CelError × K8sOwner :=
  let (first, o) := attempt (.detachNic n.nic.id) p
  attempt (.delete n.vmId) (first, (o.invoke (.stop n.vmId)).2)

def destroy (c : K8sCluster) (o : K8sOwner) : CelResult Unit × K8sOwner :=
  let p := attempt (.deleteLoadBalancer c.lb.id) (none, o)
  let p := c.nodes.foldl destroyNode p
  let (first, o) := attempt (.deleteNetwork c.network.id) p
  match first with
  | none => (.ok (), o)
  | some e => (.error e, o)

end K8sCluster

end Celium
