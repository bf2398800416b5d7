import Celium.Volume
import Celium.Network
/-!
# VmOp — the operations a host serves, their replies, and the capability each needs

`celmesh::proto::VmOp` and `VmOpReply`, the federated row, and `celmesh::Capabilities` with its two tables over the
operations.
-/
namespace Celium

@[ext] structure NodeId where
  raw : String
deriving DecidableEq, Repr

inductive RestartPolicy where
  | never | always
deriving DecidableEq, Repr

/-- The lifecycle tags a slot can carry. -/
inductive VmState where
  | created | running | halted | stopped | faulted
deriving DecidableEq, Repr

def VmState.tag : VmState → String
  | .created => "created"
  | .running => "running"
  | .halted  => "halted"
  | .stopped => "stopped"
  | .faulted => "faulted"

/-- `matches!(state, "halted" | "stopped" | "faulted")`. -/
def VmState.isTerminal : VmState → Bool
  | .halted | .stopped | .faulted => true
  | .created | .running           => false

structure RemoteVm where
  owner : NodeId
  vmId : UInt32
  label : String
  state : String
  lastExit : Option UInt32
  epoch : UInt64
  hlc : UInt64
  ownerAlive : Bool
  restartPolicy : RestartPolicy
  volumes : List VolumeAttachment
  imagePath : Option String
  cpuCount : Option UInt32
  memoryMib : Option UInt64
  bootBlobCrc32c : Option UInt32
deriving DecidableEq, Repr

inductive VmOp where
  | create (label : String) (restartPolicy : RestartPolicy) (imagePath : Option String) (cpuCount : Option UInt32)
      (memoryMib : Option UInt64) (bootBlobCrc32c : Option UInt32)
  | start (vmId : UInt32)
  | stop (vmId : UInt32)
  | delete (vmId : UInt32)
  | list
  | createVolume (name : String) (sizeBytes : UInt64)
  | deleteVolume (volumeId : VolumeId)
  | listVolumes
  | attachVolume (vmId : UInt32) (volumeId : VolumeId) (mountName : String)
  | detachVolume (vmId : UInt32) (volumeId : VolumeId)
  | readVolume (volumeId : VolumeId) (offset len : UInt64)
  | writeVolume (volumeId : VolumeId) (offset : UInt64) (bytes : List UInt8)
  | createSnapshot (volumeId : VolumeId) (name : String)
  | listSnapshots (volumeId : Option VolumeId)
  | deleteSnapshot (snapshotId : SnapshotId)
  | restoreSnapshot (snapshotId : SnapshotId)
  | createNetwork (name cidr : String)
  | deleteNetwork (networkId : NetworkId)
  | listNetworks
  | attachNic (networkId : NetworkId) (vmId : UInt32) (ip : Option String)
  | detachNic (nicId : NicId)
  | listNics
  | createSecurityGroup (name : String) (rules : List SecurityRule)
  | deleteSecurityGroup (sgId : SecurityGroupId)
  | listSecurityGroups
  | createLoadBalancer (name : String) (networkId : NetworkId) (vip : String) (frontendPort : UInt16) (algo : LbAlgo)
      (backends : List LbBackend)
  | deleteLoadBalancer (lbId : LoadBalancerId)
  | listLoadBalancers
deriving DecidableEq, Repr

inductive VmOpReply where
  | created (vmId : UInt32)
  | state (vmId : UInt32) (state : String)
  | deleted (vmId : UInt32)
  | listed (rows : List RemoteVm)
  | volumeCreated (volume : VolumeMeta)
  | volumeDeleted (volumeId : VolumeId)
  | volumesListed (volumes : List VolumeMeta)
  | attachments (vmId : UInt32) (volumes : List VolumeAttachment)
  | volumeData (volumeId : VolumeId) (bytes : List UInt8)
  | volumeWritten (volumeId : VolumeId) (bytesWritten : UInt64)
  | snapshotCreated (snapshot : SnapshotMeta)
  | snapshotsListed (snapshots : List SnapshotMeta)
  | snapshotDeleted (snapshotId : SnapshotId)
  | snapshotRestored (snapshotId : SnapshotId)
  | networkCreated (network : VirtualNetwork)
  | networkDeleted (networkId : NetworkId)
  | networksListed (networks : List VirtualNetwork)
  | nicAttached (nic : Nic)
  | nicDetached (nicId : NicId)
  | nicsListed (nics : List Nic)
  | securityGroupCreated (sg : SecurityGroup)
  | securityGroupDeleted (sgId : SecurityGroupId)
  | securityGroupsListed (sgs : List SecurityGroup)
  | loadBalancerCreated (lb : LoadBalancer)
  | loadBalancerDeleted (lbId : LoadBalancerId)
  | loadBalancersListed (lbs : List LoadBalancer)
deriving DecidableEq, Repr

/-- `HostResult`: errors are texts, because they cross a node boundary. -/
abbrev HostResult := Except String VmOpReply

/-- `celmesh::Capabilities(u32)`. -/
structure Capabilities where
  bits : UInt32
deriving DecidableEq, Repr

namespace Capabilities

def none : Capabilities := ⟨0⟩
def bit (n : UInt32) : Capabilities := ⟨1 <<< n⟩
def vmLifecycleRead : Capabilities := bit 0
def vmLifecycleWrite : Capabilities := bit 1
def volumeRead : Capabilities := bit 2
def volumeWrite : Capabilities := bit 3
def volumeAttach : Capabilities := bit 4
def snapshotRead : Capabilities := bit 5
def snapshotWrite : Capabilities := bit 6
def networkRead : Capabilities := bit 7
def networkWrite : Capabilities := bit 8
def secgroupRead : Capabilities := bit 9
def secgroupWrite : Capabilities := bit 10
def lbRead : Capabilities := bit 11
def lbWrite : Capabilities := bit 12

def all : Capabilities :=
  ⟨vmLifecycleRead.bits ||| vmLifecycleWrite.bits ||| volumeRead.bits ||| volumeWrite.bits ||| volumeAttach.bits |||
    snapshotRead.bits ||| snapshotWrite.bits ||| networkRead.bits ||| networkWrite.bits ||| secgroupRead.bits |||
    secgroupWrite.bits ||| lbRead.bits ||| lbWrite.bits⟩

def contains (self c : Capabilities) : Bool := (self.bits &&& c.bits) == c.bits

def required : VmOp → Capabilities
  | .create .. | .start .. | .stop .. | .delete ..                        => vmLifecycleWrite
  | .list                                                                 => vmLifecycleRead
  | .createVolume .. | .deleteVolume .. | .writeVolume ..                 => volumeWrite
  | .listVolumes | .readVolume ..                                         => volumeRead
  | .attachVolume .. | .detachVolume ..                                   => volumeAttach
  | .createSnapshot .. | .deleteSnapshot .. | .restoreSnapshot ..         => snapshotWrite
  | .listSnapshots ..                                                     => snapshotRead
  | .createNetwork .. | .deleteNetwork .. | .attachNic .. | .detachNic .. => networkWrite
  | .listNetworks | .listNics                                             => networkRead
  | .createSecurityGroup .. | .deleteSecurityGroup ..                     => secgroupWrite
  | .listSecurityGroups                                                   => secgroupRead
  | .createLoadBalancer .. | .deleteLoadBalancer ..                       => lbWrite
  | .listLoadBalancers                                                    => lbRead

def opTag : VmOp → String
  | .create ..              => "vm.create"
  | .start ..               => "vm.start"
  | .stop ..                => "vm.stop"
  | .delete ..              => "vm.delete"
  | .list                   => "vm.list"
  | .createVolume ..        => "vol.create"
  | .deleteVolume ..        => "vol.delete"
  | .listVolumes            => "vol.list"
  | .readVolume ..          => "vol.read"
  | .writeVolume ..         => "vol.write"
  | .attachVolume ..        => "vol.attach"
  | .detachVolume ..        => "vol.detach"
  | .createSnapshot ..      => "snap.create"
  | .listSnapshots ..       => "snap.list"
  | .deleteSnapshot ..      => "snap.delete"
  | .restoreSnapshot ..     => "snap.restore"
  | .createNetwork ..       => "net.create"
  | .deleteNetwork ..       => "net.delete"
  | .listNetworks           => "net.list"
  | .attachNic ..           => "net.nic.attach"
  | .detachNic ..           => "net.nic.detach"
  | .listNics               => "net.nic.list"
  | .createSecurityGroup .. => "sg.create"
  | .deleteSecurityGroup .. => "sg.delete"
  | .listSecurityGroups     => "sg.list"
  | .createLoadBalancer ..  => "lb.create"
  | .deleteLoadBalancer ..  => "lb.delete"
  | .listLoadBalancers      => "lb.list"

end Capabilities

end Celium
