import Celium.VmOp
/-!
# MemHost — the in-memory VM host

`celmesh::host::MemVmHost`: four slots, a volume store, a network store, the owner it learns from its first `snapshot`,
and the capability set every operation is checked against.  `apply` is one whole call.
-/
namespace Celium

abbrev maxSlots : Nat := 4
def maxVolumeIoBytes : Nat := 32 * 1024

structure Slot where
  label : String
  state : VmState
  lastExit : Option UInt32
  restartPolicy : RestartPolicy
  volumes : List VolumeAttachment
  imagePath : Option String
  cpuCount : Option UInt32
  memoryMib : Option UInt64
  bootBlobCrc32c : Option UInt32
deriving DecidableEq, Repr

structure MemVmHost where
  slots : Vector (Option Slot) maxSlots
  vault : MemVolumeStore
  nets : MemNetworkStore
  owner : Option String
  caps : Capabilities
deriving DecidableEq

namespace MemVmHost

/-- `MemVmHost::new`. -/
def new : MemVmHost := ⟨.replicate maxSlots none, default, default, none, .all⟩

def withCaps (h : MemVmHost) (caps : Capabilities) : MemVmHost := { h with caps }

def rememberOwner (h : MemVmHost) (owner : NodeId) : MemVmHost :=
  match h.owner with
  | none => { h with owner := some owner.raw }
  | some _ => h

def slotMut (h : MemVmHost) (vmId : UInt32) : Except String Slot :=
  match h.slots[vmId.toNat]? with
  | none => .error "vm id out of range"
  | some none => .error "vm not allocated"
  | some (some s) => .ok s

/-- Write a slot, as an assignment through the guard does. -/
def setSlot (h : MemVmHost) (vmId : UInt32) (s : Option Slot) : MemVmHost :=
  { h with slots := h.slots.setIfInBounds vmId.toNat s }

/-- The first free slot. -/
def freeSlot (h : MemVmHost) : Option Nat := h.slots.toList.findIdx? (·.isNone)

/-- An answer of a store, with the tag the host puts before its errors. -/
def answer {α : Type} (tag : String) (f : α → VmOpReply) : CelResult α → HostResult
  | .error e => .error (tag ++ ": " ++ e.debug)
  | .ok a    => .ok (f a)

/-! ## VM lifecycle -/

def create (h : MemVmHost) (label : String) (restartPolicy : RestartPolicy) (imagePath : Option String)
    (cpuCount : Option UInt32) (memoryMib : Option UInt64) (bootBlobCrc32c : Option UInt32) : HostResult × MemVmHost :=
  if label.utf8ByteSize > 32 then (.error "label > 32 chars", h)
  else match h.freeSlot with
    | none => (.error "vm registry full", h)
    | some i =>
      let slot : Slot :=
        { label, state := .created, lastExit := none, restartPolicy, volumes := [], imagePath, cpuCount, memoryMib,
          bootBlobCrc32c }
      (.ok (.created (UInt32.ofNat i)), h.setSlot (UInt32.ofNat i) (some slot))

def start (h : MemVmHost) (vmId : UInt32) : HostResult × MemVmHost :=
  match h.slotMut vmId with
  | .error e => (.error e, h)
  | .ok s =>
    if s.state.isTerminal then (.error "vm already terminal", h)
    else if s.state = .running then (.error "vm already running", h)
    else (.ok (.state vmId VmState.halted.tag), h.setSlot vmId (some { s with state := .halted, lastExit := some 12 }))

def stop (h : MemVmHost) (vmId : UInt32) : HostResult × MemVmHost :=
  match h.slotMut vmId with
  | .error e => (.error e, h)
  | .ok s =>
    let s := if !s.state.isTerminal then { s with state := .stopped } else s
    (.ok (.state vmId s.state.tag), h.setSlot vmId (some s))

def delete (h : MemVmHost) (vmId : UInt32) : HostResult × MemVmHost :=
  match h.slotMut vmId with
  | .error e => (.error e, h)
  | .ok s =>
    if !s.state.isTerminal then (.error "vm not terminal; stop first", h)
    else (.ok (.deleted vmId), h.setSlot vmId none)

/-! ## Volumes -/

def createVolume (h : MemVmHost) (name : String) (sizeBytes : UInt64) : HostResult × MemVmHost :=
  match h.owner with
  | none => (.error "vault: owner not yet known; snapshot first", h)
  | some owner =>
    let (r, vault) := h.vault.create owner name sizeBytes
    (answer "vault create" .volumeCreated r, { h with vault })

/-- Some VM has the volume attached. -/
def attached (h : MemVmHost) (volumeId : VolumeId) : Bool :=
  h.slots.toList.any (fun slot => slot.any (fun s => s.volumes.any (fun a => a.volumeId == volumeId)))

def deleteVolume (h : MemVmHost) (volumeId : VolumeId) : HostResult × MemVmHost :=
  if h.attached volumeId then (.error "vault delete: volume still attached", h)
  else
    let (r, vault) := h.vault.delete volumeId
    (answer "vault delete" (fun _ => .volumeDeleted volumeId) r, { h with vault })

def attachVolume (h : MemVmHost) (vmId : UInt32) (volumeId : VolumeId) (mountName : String) : HostResult × MemVmHost :=
  if mountName.utf8ByteSize > maxMount then (.error "attach: mount_name > MAX_MOUNT", h)
  else if (h.vault.get volumeId).isNone then (.error "attach: unknown volume", h)
  else match h.slotMut vmId with
    | .error e => (.error e, h)
    | .ok s =>
      if s.volumes.any (fun a => a.volumeId == volumeId) then (.error "attach: volume already attached", h)
      else
        let volumes := s.volumes ++ [⟨volumeId, mountName⟩]
        (.ok (.attachments vmId volumes), h.setSlot vmId (some { s with volumes }))

def detachVolume (h : MemVmHost) (vmId : UInt32) (volumeId : VolumeId) : HostResult × MemVmHost :=
  match h.slotMut vmId with
  | .error e => (.error e, h)
  | .ok s =>
    let volumes := s.volumes.filter (fun a => a.volumeId ≠ volumeId)
    (.ok (.attachments vmId volumes), h.setSlot vmId (some { s with volumes }))

def readVolume (h : MemVmHost) (volumeId : VolumeId) (offset len : UInt64) : HostResult × MemVmHost :=
  if len.toNat > maxVolumeIoBytes then (.error "volume io: chunk too large", h)
  else (answer "vault read" (.volumeData volumeId) (h.vault.read volumeId offset len.toNat), h)

def writeVolume (h : MemVmHost) (volumeId : VolumeId) (offset : UInt64) (bytes : List UInt8) : HostResult × MemVmHost :=
  if bytes.length > maxVolumeIoBytes then (.error "volume io: chunk too large", h)
  else
    let (r, vault) := h.vault.write volumeId offset bytes
    (answer "vault write" (fun _ => .volumeWritten volumeId (UInt64.ofNat bytes.length)) r, { h with vault })

/-! ## Networks -/

def createNetwork (h : MemVmHost) (name cidr : String) : HostResult × MemVmHost :=
  match h.owner with
  | none => (.error "net: owner not yet known; snapshot first", h)
  | some owner =>
    match Cidr4.parse cidr with
    | .error e => (.error ("net create: " ++ e.debug), h)
    | .ok block =>
      let (r, nets) := h.nets.createNetwork owner name block
      (answer "net create" .networkCreated r, { h with nets })

def attachNic (h : MemVmHost) (networkId : NetworkId) (vmId : UInt32) (ip : Option String) : HostResult × MemVmHost :=
  match h.slotMut vmId with
  | .error e => (.error e, h)
  | .ok _ =>
    match ip.map Ipv4Addr.parse with
    | some none => (.error "net.nic.attach: bad ip", h)
    | parsed =>
      let (r, nets) := h.nets.attachNic networkId vmId parsed.join
      (answer "net.nic.attach" .nicAttached r, { h with nets })

def createSecurityGroup (h : MemVmHost) (name : String) (rules : List SecurityRule) : HostResult × MemVmHost :=
  match h.owner with
  | none => (.error "sg: owner not yet known; snapshot first", h)
  | some owner =>
    let (r, nets) := h.nets.createSecurityGroup owner name rules
    (answer "sg create" .securityGroupCreated r, { h with nets })

def createLoadBalancer (h : MemVmHost) (name : String) (networkId : NetworkId) (vip : String) (frontendPort : UInt16)
    (algo : LbAlgo) (backends : List LbBackend) : HostResult × MemVmHost :=
  match h.owner with
  | none => (.error "lb: owner not yet known; snapshot first", h)
  | some owner =>
    match Ipv4Addr.parse vip with
    | none => (.error "lb create: bad vip", h)
    | some vip =>
      let (r, nets) := h.nets.createLoadBalancer owner name networkId vip frontendPort algo backends
      (answer "lb create" .loadBalancerCreated r, { h with nets })

/-! ## The dispatch -/

/-- The `match op` of `apply`. -/
def dispatch (h : MemVmHost) : VmOp → HostResult × MemVmHost
  | .create label restartPolicy imagePath cpuCount memoryMib bootBlobCrc32c =>
    h.create label restartPolicy imagePath cpuCount memoryMib bootBlobCrc32c
  | .start vmId => h.start vmId
  | .stop vmId => h.stop vmId
  | .delete vmId => h.delete vmId
  | .list => (.ok (.listed []), h)
  | .createVolume name sizeBytes => h.createVolume name sizeBytes
  | .deleteVolume volumeId => h.deleteVolume volumeId
  | .listVolumes => (.ok (.volumesListed h.vault.list), h)
  | .attachVolume vmId volumeId mountName => h.attachVolume vmId volumeId mountName
  | .detachVolume vmId volumeId => h.detachVolume vmId volumeId
  | .readVolume volumeId offset len => h.readVolume volumeId offset len
  | .writeVolume volumeId offset bytes => h.writeVolume volumeId offset bytes
  | .createSnapshot volumeId name =>
    let (r, vault) := h.vault.createSnapshot volumeId name
    (answer "vault snapshot" .snapshotCreated r, { h with vault })
  | .listSnapshots volumeId => (.ok (.snapshotsListed (h.vault.listSnapshots volumeId)), h)
  | .deleteSnapshot snapshotId =>
    let (r, vault) := h.vault.deleteSnapshot snapshotId
    (answer "vault snapshot delete" (fun _ => .snapshotDeleted snapshotId) r, { h with vault })
  | .restoreSnapshot snapshotId =>
    let (r, vault) := h.vault.restoreSnapshot snapshotId
    (answer "vault snapshot restore" (fun _ => .snapshotRestored snapshotId) r, { h with vault })
  | .createNetwork name cidr => h.createNetwork name cidr
  | .deleteNetwork networkId =>
    let (r, nets) := h.nets.deleteNetwork networkId
    (answer "net delete" (fun _ => .networkDeleted networkId) r, { h with nets })
  | .listNetworks => (.ok (.networksListed h.nets.listNetworks), h)
  | .attachNic networkId vmId ip => h.attachNic networkId vmId ip
  | .detachNic nicId =>
    let (r, nets) := h.nets.detachNic nicId
    (answer "net.nic.detach" (fun _ => .nicDetached nicId) r, { h with nets })
  | .listNics => (.ok (.nicsListed h.nets.listNics), h)
  | .createSecurityGroup name rules => h.createSecurityGroup name rules
  | .deleteSecurityGroup sgId =>
    let (r, nets) := h.nets.deleteSecurityGroup sgId
    (answer "sg delete" (fun _ => .securityGroupDeleted sgId) r, { h with nets })
  | .listSecurityGroups => (.ok (.securityGroupsListed h.nets.listSecurityGroups), h)
  | .createLoadBalancer name networkId vip frontendPort algo backends =>
    h.createLoadBalancer name networkId vip frontendPort algo backends
  | .deleteLoadBalancer lbId =>
    let (r, nets) := h.nets.deleteLoadBalancer lbId
    (answer "lb delete" (fun _ => .loadBalancerDeleted lbId) r, { h with nets })
  | .listLoadBalancers => (.ok (.loadBalancersListed h.nets.listLoadBalancers), h)

/-- `apply`, which is all `handle` does. -/
def apply (h : MemVmHost) (op : VmOp) : HostResult × MemVmHost :=
  if !h.caps.contains (Capabilities.required op) then (.error ("capability denied: " ++ Capabilities.opTag op), h)
  else h.dispatch op

/-- The row `current_rows` makes of an occupied slot. -/
def row (owner : NodeId) (i : Nat) (s : Slot) : RemoteVm :=
  { owner, vmId := UInt32.ofNat i, label := s.label, state := s.state.tag, lastExit := s.lastExit, epoch := 0, hlc := 0,
    ownerAlive := true, restartPolicy := s.restartPolicy, volumes := s.volumes, imagePath := s.imagePath,
    cpuCount := s.cpuCount, memoryMib := s.memoryMib, bootBlobCrc32c := s.bootBlobCrc32c }

/-- `snapshot`, from which the host also learns its owner. -/
def currentRows (h : MemVmHost) (owner : NodeId) : List RemoteVm × MemVmHost :=
  let h := h.rememberOwner owner
  (h.slots.toList.zipIdx.filterMap (fun e => e.1.map (row owner e.2)), h)

def attachPreserved (h : MemVmHost) (vmId : UInt32) (attachments : List VolumeAttachment) :
    Except String Unit × MemVmHost :=
  match h.slotMut vmId with
  | .error e => (.error e, h)
  | .ok s => (.ok (), h.setSlot vmId (some { s with volumes := attachments }))

/-! ## The slots -/

variable {h : MemVmHost} {i : UInt32} {s : Slot}

theorem slotMut_ok (hs : h.slotMut i = .ok s) : h.slots[i.toNat]? = some (some s) := by
  unfold slotMut at hs
  split at hs
  · cases hs
  · cases hs
  · rename_i hget
    rw [hget, Except.ok.inj hs]

theorem lt_of_slot {o : Option Slot} (hs : h.slots[i.toNat]? = some o) : i.toNat < 4 := by
  by_contra hge
  rw [Vector.getElem?_eq_none (Nat.le_of_not_lt hge)] at hs
  cases hs

theorem freeSlot_some {k : Nat} (hk : h.freeSlot = some k) :
    (UInt32.ofNat k).toNat = k ∧ k < 4 ∧ h.slots[k]? = some none := by
  unfold freeSlot at hk
  obtain ⟨hlt, hnone, -⟩ := List.findIdx?_eq_some_iff_getElem.1 hk
  have hlt4 : k < 4 := by simpa using hlt
  refine ⟨?_, hlt4, ?_⟩
  · rw [UInt32.toNat_ofNat']
    omega
  · rw [Vector.getElem?_eq_getElem hlt4]
    simpa using hnone

end MemVmHost

end Celium
