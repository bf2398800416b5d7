import Celium.Federation
import Celium.Lib.Fixed
/-!
# Mesh — the gossip engine's shared state, section by section

`celmesh::mesh`.  Every task of a node works on one `Inner` behind a mutex; what it does while it holds the lock is a
`Section`, and a run is any sequence of them.  A section that builds an envelope stamps it with a fresh `hlc` and
returns it; sending it, losing it and handing it over more than once are the network's business.  The counters of
`metrics`, and the JSON the envelopes travel in, are not modelled.
-/
namespace Celium

open Fixed Runs

/-! ## Frames -/

def protoVersion : UInt32 := 1
def magic : String := "celmesh/1"

inductive Payload where
  | hello (node : NodeInfo)
  | sync (nodes : List NodeInfo) (vms : List RemoteVm)
  | goodbye
  | request (reqId : UInt64) (target : String) (op : VmOp)
  | response (reqId : UInt64) (result : HostResult)

structure Envelope where
  magic : String
  version : UInt32
  /-- The field `from`. -/
  sender : String
  cluster : String
  hlc : UInt64
  payload : Payload

/-! ## The shared state -/

structure MeshConfig where
  cluster : String
  nodeId : NodeId
  advertiseAddr : String
  epoch : UInt64
  seeds : List String
  gossipInterval : Nat
  timeoutSuspect : Nat
  timeoutDead : Nat
  supervisorInterval : Nat
deriving DecidableEq, Repr

structure Inner where
  config : MeshConfig
  membership : Membership
  federation : NamespaceFederation
  hlc : UInt64
  known : List String
deriving DecidableEq

namespace Inner

/-- The state `Mesh::start` builds. -/
def start (config : MeshConfig) (now : Nat) : Inner :=
  { config
    membership := .new config.cluster ⟨config.nodeId, config.advertiseAddr, config.epoch, 0, .alive⟩
      config.timeoutSuspect config.timeoutDead now
    federation := .new config.nodeId
    hlc := 0
    known := config.seeds.foldl (fun known s => if s ∈ known then known else known ++ [s]) [] }

/-- The clock after `tick_hlc`, which is also its answer. -/
def nextHlc (g : Inner) : UInt64 := satAdd64 g.hlc 1

def tickHlc (g : Inner) : Inner := { g with hlc := g.nextHlc }

def selfRow (g : Inner) : NodeInfo :=
  (g.membership.get g.membership.selfId).getD ⟨g.config.nodeId, g.config.advertiseAddr, g.config.epoch, g.hlc, .alive⟩

/-- An envelope from this node, stamped with the clock. -/
def envelope (g : Inner) (payload : Payload) : Envelope :=
  { magic := Celium.magic, version := protoVersion, sender := g.config.nodeId.raw, cluster := g.config.cluster,
    hlc := g.hlc, payload }

def join (g : Inner) (addr : String) : Inner :=
  { g with known := if addr ∈ g.known then g.known else g.known ++ [addr] }

/-- The map `list_vms` makes of the membership: whether a node is `Alive`, and `false` for one that is not there. -/
def aliveOf (g : Inner) (id : NodeId) : Bool :=
  ((g.membership.snapshot.reverse.find? (fun r => r.id == id)).map (fun r => r.status == .alive)).getD false

def listVms (g : Inner) : List RemoteVm × Inner :=
  let g := { g with federation := g.federation.refreshAlive g.aliveOf }
  (g.federation.list, g)

/-- The rows as `publish_local_vms` stamps them. -/
def stamped (g : Inner) (hlc : UInt64) (rows : List RemoteVm) : List RemoteVm :=
  rows.map (fun r => { r with owner := g.config.nodeId, epoch := g.config.epoch, hlc, ownerAlive := true })

/-- What `publish_local_vms` does under the lock; it answers the peers it then sends a `Sync` to. -/
def publishLocalVms (g : Inner) (rows : List RemoteVm) (now : Nat) : List String × Inner :=
  let g := g.tickHlc
  let g := { g with
    federation := g.federation.setLocal (g.stamped g.hlc rows)
    membership := g.membership.bumpSelf g.hlc now }
  let peers := g.membership.snapshot.filter (fun r => r.id != g.membership.selfId && r.status != .left)
  (peers.map (·.addr), g)

/-- The row the `Hello` and the `Sync` carry for the sender. -/
def helloRow (g : Inner) : NodeInfo := { g.selfRow with hlc := g.hlc }

def sendHello (g : Inner) : Envelope × Inner :=
  let g := g.tickHlc
  (g.envelope (.hello g.helloRow), g)

/-- The first row with the id replaced, as `iter_mut().find` and the assignment do. -/
def replaceFirst (row : NodeInfo) : List NodeInfo → List NodeInfo
  | []      => []
  | r :: rs => if r.id = row.id then row :: rs else r :: replaceFirst row rs

def sendSync (g : Inner) : Envelope × Inner :=
  let g := g.tickHlc
  (g.envelope (.sync (replaceFirst g.helloRow g.membership.snapshot) g.federation.localRows), g)

/-- What `shutdown` does under the lock. -/
def shutdown (g : Inner) : Envelope × Inner :=
  let g := g.tickHlc
  (g.envelope .goodbye, g)

/-- The envelope `invoke` builds. -/
def sendRequest (g : Inner) (reqId : UInt64) (target : String) (op : VmOp) : Envelope × Inner :=
  let g := g.tickHlc
  (g.envelope (.request reqId target op), g)

/-- The envelope that answers a `Request`. -/
def sendResponse (g : Inner) (reqId : UInt64) (result : HostResult) : Envelope × Inner :=
  let g := g.tickHlc
  (g.envelope (.response reqId result), g)

def mergeNodes (g : Inner) (nodes : List NodeInfo) (now : Nat) : Inner :=
  { g with membership := nodes.foldl (fun m n => (m.merge n now).2) g.membership }

def mergeVms (g : Inner) (vms : List RemoteVm) : Inner :=
  { g with federation := vms.foldl (fun f v => (f.merge v).2) g.federation }

/-- `handle_envelope`, as far as it works on the shared state: a `Request` and a `Response` only leave the source. -/
def handleEnvelope (g : Inner) (env : Envelope) (src : String) (now : Nat) : Inner :=
  if env.cluster ≠ g.config.cluster then g
  else
    let g := g.join src
    match env.payload with
    | .hello node => g.mergeNodes [node] now
    | .sync nodes vms => (g.mergeNodes nodes now).mergeVms vms
    | .goodbye => { g with membership := g.membership.markLeft ⟨env.sender⟩ }
    | .request .. => g
    | .response .. => g

/-- `pick_one`. -/
def pickOne (xs : List String) (seed : UInt64) : Option String := xs[seed.toNat % xs.length]?

/-- One round of the gossiper: the failure detector, then the peer it sends a `Sync` to. -/
def gossip (g : Inner) (order : HashOrder String) (now : Nat) : Option String × Inner :=
  let g := { g with membership := (g.membership.tick now).2 }
  let peers := g.membership.snapshot.filter (fun r => r.id != g.membership.selfId && r.status != .left)
  (pickOne (peers.map (·.addr) ++ order.arrange g.known) (g.config.epoch + g.hlc), g)

/-! ## What the supervisor reads -/

def orphanedVms (g : Inner) : List RemoteVm × Inner :=
  let (rows, g) := g.listVms
  (rows.filter (fun r => !r.ownerAlive && r.restartPolicy == .always), g)

/-- `is_supervisor`: the lowest id among the `Alive` rows is this node's. -/
def isSupervisor (g : Inner) : Bool :=
  ((g.membership.snapshot.filter (fun r => r.status == .alive)).map (·.id.raw)).min? == some g.config.nodeId.raw

end Inner

/-! ## Runs of sections -/

inductive Section where
  | join (addr : String)
  | listVms
  | publish (rows : List RemoteVm)
  | sendHello
  | sendSync
  | shutdown
  | sendRequest (reqId : UInt64) (target : String) (op : VmOp)
  | sendResponse (reqId : UInt64) (result : HostResult)
  | receive (env : Envelope) (src : String)
  | gossip (order : HashOrder String)

/-- One section, at the clock's `now`; the answer is the envelope it built. -/
def Inner.step (g : Inner) (a : Nat × Section) : Option Envelope × Inner :=
  match a.2 with
  | .join addr => (none, g.join addr)
  | .listVms => (none, g.listVms.2)
  | .publish rows => (none, (g.publishLocalVms rows a.1).2)
  | .sendHello => (some g.sendHello.1, g.sendHello.2)
  | .sendSync => (some g.sendSync.1, g.sendSync.2)
  | .shutdown => (some g.shutdown.1, g.shutdown.2)
  | .sendRequest reqId target op => (some (g.sendRequest reqId target op).1, (g.sendRequest reqId target op).2)
  | .sendResponse reqId result => (some (g.sendResponse reqId result).1, (g.sendResponse reqId result).2)
  | .receive env src => (none, g.handleEnvelope env src a.1)
  | .gossip order => (none, (g.gossip order a.1).2)

end Celium
