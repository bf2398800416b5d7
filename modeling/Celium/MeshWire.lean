import Celium.Lib.Serde
import Celium.K8sCreate
import Celium.FrameSize
/-!
# MeshWire — the JSON of every frame of the mesh, written and read

The `#[derive(Serialize, Deserialize)]` of every type a frame carries, each as the table of its fields.  `from_slice` takes
a slice for UTF-8, parses it and reads the envelope off the value; the payload, whose variant is named by a member of its
own, is kept as a tree first.

Two kinds of texts are read otherwise than `serde_json` reads them, and no frame is written as one of them: an inner enum
of the payload that names its variant by a number, which is refused here; and a member of the envelope of an unknown name
with a string in it that is not UTF-8 or that escapes half a surrogate pair, which `serde_json` skips unread.
-/
namespace Celium

open Serde Json

/-! ## Ids and plain enums -/

def NodeId.codec : Serde.Codec NodeId := Codec.text.wrap .mk NodeId.raw (fun _ => rfl)
def VolumeId.codec : Serde.Codec VolumeId := Codec.text.wrap .mk VolumeId.raw (fun _ => rfl)
def SnapshotId.codec : Serde.Codec SnapshotId := Codec.text.wrap .mk SnapshotId.raw (fun _ => rfl)
def NetworkId.codec : Serde.Codec NetworkId := Codec.text.wrap .mk NetworkId.raw (fun _ => rfl)
def NicId.codec : Serde.Codec NicId := Codec.text.wrap .mk NicId.raw (fun _ => rfl)
def SecurityGroupId.codec : Serde.Codec SecurityGroupId := Codec.text.wrap .mk SecurityGroupId.raw (fun _ => rfl)
def LoadBalancerId.codec : Serde.Codec LoadBalancerId := Codec.text.wrap .mk LoadBalancerId.raw (fun _ => rfl)

def NodeStatus.codec : Serde.Codec NodeStatus :=
  .names [("Alive", .alive), ("Suspect", .suspect), ("Dead", .dead), ("Left", .left)]
    (fun | .alive => "Alive" | .suspect => "Suspect" | .dead => "Dead" | .left => "Left") (by rintro ⟨⟩ <;> rfl)

/-- `rename_all = "snake_case"`. -/
def RestartPolicy.codec : Serde.Codec RestartPolicy :=
  .names [("never", .never), ("always", .always)] (fun | .never => "never" | .always => "always") (by rintro ⟨⟩ <;> rfl)

def Direction.codec : Serde.Codec Direction :=
  .names [("ingress", .ingress), ("egress", .egress)] (fun | .ingress => "ingress" | .egress => "egress")
    (by rintro ⟨⟩ <;> rfl)

def L4Proto.codec : Serde.Codec L4Proto :=
  .names [("tcp", .tcp), ("udp", .udp), ("icmp", .icmp), ("any", .any)]
    (fun | .tcp => "tcp" | .udp => "udp" | .icmp => "icmp" | .any => "any") (by rintro ⟨⟩ <;> rfl)

def LbAlgo.codec : Serde.Codec LbAlgo :=
  .names [("round_robin", .roundRobin), ("least_conn", .leastConn)]
    (fun | .roundRobin => "round_robin" | .leastConn => "least_conn") (by rintro ⟨⟩ <;> rfl)

/-- An address travels as its four octets. -/
def Ipv4Addr.codec : Serde.Codec Ipv4Addr where
  write a := .str a.display.toList
  read v := (readText v).bind Ipv4Addr.parse
  read_write a := by
    have hread : readText (.str a.display.toList) = some a.display := by simp [readText]
    rw [hread, Option.bind_some, Ipv4Addr.parse_display]
  tame _ := trivial

/-! ## Records -/

theorem text_write_ne_null (s : String) : Codec.text.write s ≠ .null := nofun
theorem u32_write_ne_null (n : UInt32) : Codec.u32.write n ≠ .null := nofun
theorem u64_write_ne_null (n : UInt64) : Codec.u64.write n ≠ .null := nofun
theorem volumeId_write_ne_null (v : VolumeId) : VolumeId.codec.write v ≠ .null := nofun

def NodeInfo.record : Record NodeInfo where
  fields := ["id", "addr", "epoch", "hlc", "status"]
  values r := [some (NodeId.codec.write r.id), some (Codec.text.write r.addr), some (Codec.u64.write r.epoch),
    some (Codec.u64.write r.hlc), some (NodeStatus.codec.write r.status)]
  build
    | [id, addr, epoch, hlc, status] => do
      pure ⟨← need NodeId.codec id, ← need .text addr, ← need .u64 epoch, ← need .u64 hlc,
        ← need NodeStatus.codec status⟩
    | _ => none
  proper := by decide
  length _ := rfl
  built r := by simp
  tame r := by simp

def VolumeAttachment.record : Record VolumeAttachment where
  fields := ["volume_id", "mount_name"]
  values a := [some (VolumeId.codec.write a.volumeId), some (Codec.text.write a.mountName)]
  build
    | [volumeId, mountName] => do pure ⟨← need VolumeId.codec volumeId, ← need .text mountName⟩
    | _ => none
  proper := by decide
  length _ := rfl
  built a := by simp
  tame a := by simp

def RemoteVm.record : Record RemoteVm where
  fields := ["owner", "vm_id", "label", "state", "last_exit", "epoch", "hlc", "owner_alive", "restart_policy", "volumes",
    "image_path", "cpu_count", "memory_mib", "boot_blob_crc32c"]
  values r := [some (NodeId.codec.write r.owner), some (Codec.u32.write r.vmId), some (Codec.text.write r.label),
    some (Codec.text.write r.state), some ((Codec.u32.option u32_write_ne_null).write r.lastExit),
    some (Codec.u64.write r.epoch), some (Codec.u64.write r.hlc), some (Codec.bool.write r.ownerAlive),
    some (RestartPolicy.codec.write r.restartPolicy), some (VolumeAttachment.record.codec.list.write r.volumes),
    skipNone .text r.imagePath, skipNone .u32 r.cpuCount, skipNone .u64 r.memoryMib, skipNone .u32 r.bootBlobCrc32c]
  build
    | [owner, vmId, label, state, lastExit, epoch, hlc, ownerAlive, restartPolicy, volumes, imagePath, cpuCount, memoryMib,
        bootBlobCrc32c] => do
      pure ⟨← need NodeId.codec owner, ← need .u32 vmId, ← need .text label, ← need .text state,
        ← needOption (Codec.u32.option u32_write_ne_null) lastExit, ← need .u64 epoch, ← need .u64 hlc,
        ← orElse .bool true ownerAlive, ← orElse RestartPolicy.codec .never restartPolicy,
        ← orElse VolumeAttachment.record.codec.list [] volumes,
        ← orElse (Codec.text.option text_write_ne_null) none imagePath,
        ← orElse (Codec.u32.option u32_write_ne_null) none cpuCount,
        ← orElse (Codec.u64.option u64_write_ne_null) none memoryMib,
        ← orElse (Codec.u32.option u32_write_ne_null) none bootBlobCrc32c⟩
    | _ => none
  proper := by decide
  length _ := rfl
  built r := by simp
  tame r := by simp

def VolumeMeta.record : Record VolumeMeta where
  fields := ["id", "owner", "name", "size_bytes"]
  values m := [some (VolumeId.codec.write m.id), some (Codec.text.write m.owner), some (Codec.text.write m.name),
    some (Codec.u64.write m.sizeBytes)]
  build
    | [id, owner, name, sizeBytes] => do
      pure ⟨← need VolumeId.codec id, ← need .text owner, ← need .text name, ← need .u64 sizeBytes⟩
    | _ => none
  proper := by decide
  length _ := rfl
  built m := by simp
  tame m := by simp

def SnapshotMeta.record : Record SnapshotMeta where
  fields := ["id", "volume", "name", "size_bytes"]
  values m := [some (SnapshotId.codec.write m.id), some (VolumeId.codec.write m.volume), some (Codec.text.write m.name),
    some (Codec.u64.write m.sizeBytes)]
  build
    | [id, volume, name, sizeBytes] => do
      pure ⟨← need SnapshotId.codec id, ← need VolumeId.codec volume, ← need .text name, ← need .u64 sizeBytes⟩
    | _ => none
  proper := by decide
  length _ := rfl
  built m := by simp
  tame m := by simp

def Cidr4.record : Record Cidr4 where
  fields := ["base", "prefix_len"]
  values c := [some (Ipv4Addr.codec.write c.base), some (Codec.u8.write c.prefixLen)]
  build
    | [base, prefixLen] => do pure ⟨← need Ipv4Addr.codec base, ← need .u8 prefixLen⟩
    | _ => none
  proper := by decide
  length _ := rfl
  built c := by simp
  tame c := by simp

def VirtualNetwork.record : Record VirtualNetwork where
  fields := ["id", "owner", "name", "cidr"]
  values n := [some (NetworkId.codec.write n.id), some (Codec.text.write n.owner), some (Codec.text.write n.name),
    some (Cidr4.record.codec.write n.cidr)]
  build
    | [id, owner, name, cidr] => do
      pure ⟨← need NetworkId.codec id, ← need .text owner, ← need .text name, ← need Cidr4.record.codec cidr⟩
    | _ => none
  proper := by decide
  length _ := rfl
  built n := by simp
  tame n := by simp

def Nic.record : Record Nic where
  fields := ["id", "network_id", "vm_id", "ip", "mac"]
  values n := [some (NicId.codec.write n.id), some (NetworkId.codec.write n.networkId), some (Codec.u32.write n.vmId),
    some (Ipv4Addr.codec.write n.ip), some ((Codec.u8.vector 6).write n.mac)]
  build
    | [id, networkId, vmId, ip, mac] => do
      pure ⟨← need NicId.codec id, ← need NetworkId.codec networkId, ← need .u32 vmId, ← need Ipv4Addr.codec ip,
        ← need (Codec.u8.vector 6) mac⟩
    | _ => none
  proper := by decide
  length _ := rfl
  built n := by simp
  tame n := by simp

def SecurityRule.record : Record SecurityRule where
  fields := ["direction", "proto", "port_min", "port_max", "cidr", "allow"]
  values r := [some (Direction.codec.write r.direction), some (L4Proto.codec.write r.proto),
    some (Codec.u16.write r.portMin), some (Codec.u16.write r.portMax), some (Cidr4.record.codec.write r.cidr),
    some (Codec.bool.write r.allow)]
  build
    | [direction, proto, portMin, portMax, cidr, allow] => do
      pure ⟨← need Direction.codec direction, ← need L4Proto.codec proto, ← need .u16 portMin, ← need .u16 portMax,
        ← need Cidr4.record.codec cidr, ← need .bool allow⟩
    | _ => none
  proper := by decide
  length _ := rfl
  built r := by simp
  tame r := by simp

def SecurityGroup.record : Record SecurityGroup where
  fields := ["id", "owner", "name", "rules"]
  values g := [some (SecurityGroupId.codec.write g.id), some (Codec.text.write g.owner), some (Codec.text.write g.name),
    some (SecurityRule.record.codec.list.write g.rules)]
  build
    | [id, owner, name, rules] => do
      pure ⟨← need SecurityGroupId.codec id, ← need .text owner, ← need .text name,
        ← need SecurityRule.record.codec.list rules⟩
    | _ => none
  proper := by decide
  length _ := rfl
  built g := by simp
  tame g := by simp

def LbBackend.record : Record LbBackend where
  fields := ["vm_id", "ip", "port"]
  values b := [some (Codec.u32.write b.vmId), some (Ipv4Addr.codec.write b.ip), some (Codec.u16.write b.port)]
  build
    | [vmId, ip, port] => do pure ⟨← need .u32 vmId, ← need Ipv4Addr.codec ip, ← need .u16 port⟩
    | _ => none
  proper := by decide
  length _ := rfl
  built b := by simp
  tame b := by simp

def LoadBalancer.record : Record LoadBalancer where
  fields := ["id", "owner", "name", "network_id", "vip", "frontend_port", "algo", "backends"]
  values l := [some (LoadBalancerId.codec.write l.id), some (Codec.text.write l.owner), some (Codec.text.write l.name),
    some (NetworkId.codec.write l.networkId), some (Ipv4Addr.codec.write l.vip), some (Codec.u16.write l.frontendPort),
    some (LbAlgo.codec.write l.algo), some (LbBackend.record.codec.list.write l.backends)]
  build
    | [id, owner, name, networkId, vip, frontendPort, algo, backends] => do
      pure ⟨← need LoadBalancerId.codec id, ← need .text owner, ← need .text name, ← need NetworkId.codec networkId,
        ← need Ipv4Addr.codec vip, ← need .u16 frontendPort, ← need LbAlgo.codec algo,
        ← need LbBackend.record.codec.list backends⟩
    | _ => none
  proper := by decide
  length _ := rfl
  built l := by simp
  tame l := by simp

/-! ## Operations and replies -/

/-- `#[serde(tag = "op", rename_all = "snake_case")]`. -/
def VmOp.tagged : Tagged VmOp where
  tag := "op"
  variants := [("create", ["label", "restart_policy", "image_path", "cpu_count", "memory_mib", "boot_blob_crc32c"]),
    ("start", ["vm_id"]), ("stop", ["vm_id"]), ("delete", ["vm_id"]), ("list", []),
    ("create_volume", ["name", "size_bytes"]), ("delete_volume", ["volume_id"]), ("list_volumes", []),
    ("attach_volume", ["vm_id", "volume_id", "mount_name"]), ("detach_volume", ["vm_id", "volume_id"]),
    ("read_volume", ["volume_id", "offset", "len"]), ("write_volume", ["volume_id", "offset", "bytes"]),
    ("create_snapshot", ["volume_id", "name"]), ("list_snapshots", ["volume_id"]),
    ("delete_snapshot", ["snapshot_id"]), ("restore_snapshot", ["snapshot_id"]), ("create_network", ["name", "cidr"]),
    ("delete_network", ["network_id"]), ("list_networks", []), ("attach_nic", ["network_id", "vm_id", "ip"]),
    ("detach_nic", ["nic_id"]), ("list_nics", []), ("create_security_group", ["name", "rules"]),
    ("delete_security_group", ["sg_id"]), ("list_security_groups", []),
    ("create_load_balancer", ["name", "network_id", "vip", "frontend_port", "algo", "backends"]),
    ("delete_load_balancer", ["lb_id"]), ("list_load_balancers", [])]
  name
    | .create .. => "create"
    | .start .. => "start"
    | .stop .. => "stop"
    | .delete .. => "delete"
    | .list => "list"
    | .createVolume .. => "create_volume"
    | .deleteVolume .. => "delete_volume"
    | .listVolumes => "list_volumes"
    | .attachVolume .. => "attach_volume"
    | .detachVolume .. => "detach_volume"
    | .readVolume .. => "read_volume"
    | .writeVolume .. => "write_volume"
    | .createSnapshot .. => "create_snapshot"
    | .listSnapshots .. => "list_snapshots"
    | .deleteSnapshot .. => "delete_snapshot"
    | .restoreSnapshot .. => "restore_snapshot"
    | .createNetwork .. => "create_network"
    | .deleteNetwork .. => "delete_network"
    | .listNetworks => "list_networks"
    | .attachNic .. => "attach_nic"
    | .detachNic .. => "detach_nic"
    | .listNics => "list_nics"
    | .createSecurityGroup .. => "create_security_group"
    | .deleteSecurityGroup .. => "delete_security_group"
    | .listSecurityGroups => "list_security_groups"
    | .createLoadBalancer .. => "create_load_balancer"
    | .deleteLoadBalancer .. => "delete_load_balancer"
    | .listLoadBalancers => "list_load_balancers"
  values
    | .create label restartPolicy imagePath cpuCount memoryMib bootBlobCrc32c => [some (Codec.text.write label),
      some (RestartPolicy.codec.write restartPolicy), skipNone .text imagePath, skipNone .u32 cpuCount,
      skipNone .u64 memoryMib, skipNone .u32 bootBlobCrc32c]
    | .start vmId => [some (Codec.u32.write vmId)]
    | .stop vmId => [some (Codec.u32.write vmId)]
    | .delete vmId => [some (Codec.u32.write vmId)]
    | .list => []
    | .createVolume name sizeBytes => [some (Codec.text.write name), some (Codec.u64.write sizeBytes)]
    | .deleteVolume volumeId => [some (VolumeId.codec.write volumeId)]
    | .listVolumes => []
    | .attachVolume vmId volumeId mountName => [some (Codec.u32.write vmId), some (VolumeId.codec.write volumeId),
      some (Codec.text.write mountName)]
    | .detachVolume vmId volumeId => [some (Codec.u32.write vmId), some (VolumeId.codec.write volumeId)]
    | .readVolume volumeId offset len => [some (VolumeId.codec.write volumeId), some (Codec.u64.write offset),
      some (Codec.u64.write len)]
    | .writeVolume volumeId offset bytes => [some (VolumeId.codec.write volumeId), some (Codec.u64.write offset),
      some (Codec.u8.list.write bytes)]
    | .createSnapshot volumeId name => [some (VolumeId.codec.write volumeId), some (Codec.text.write name)]
    | .listSnapshots volumeId => [some ((VolumeId.codec.option volumeId_write_ne_null).write volumeId)]
    | .deleteSnapshot snapshotId => [some (SnapshotId.codec.write snapshotId)]
    | .restoreSnapshot snapshotId => [some (SnapshotId.codec.write snapshotId)]
    | .createNetwork name cidr => [some (Codec.text.write name), some (Codec.text.write cidr)]
    | .deleteNetwork networkId => [some (NetworkId.codec.write networkId)]
    | .listNetworks => []
    | .attachNic networkId vmId ip => [some (NetworkId.codec.write networkId), some (Codec.u32.write vmId),
      some ((Codec.text.option text_write_ne_null).write ip)]
    | .detachNic nicId => [some (NicId.codec.write nicId)]
    | .listNics => []
    | .createSecurityGroup name rules => [some (Codec.text.write name),
      some (SecurityRule.record.codec.list.write rules)]
    | .deleteSecurityGroup sgId => [some (SecurityGroupId.codec.write sgId)]
    | .listSecurityGroups => []
    | .createLoadBalancer name networkId vip frontendPort algo backends => [some (Codec.text.write name),
      some (NetworkId.codec.write networkId), some (Codec.text.write vip), some (Codec.u16.write frontendPort),
      some (LbAlgo.codec.write algo), some (LbBackend.record.codec.list.write backends)]
    | .deleteLoadBalancer lbId => [some (LoadBalancerId.codec.write lbId)]
    | .listLoadBalancers => []
  build
    | "create", [label, restartPolicy, imagePath, cpuCount, memoryMib, bootBlobCrc32c] => do
      pure (.create (← need .text label) (← orElse RestartPolicy.codec .never restartPolicy)
        (← orElse (Codec.text.option text_write_ne_null) none imagePath)
        (← orElse (Codec.u32.option u32_write_ne_null) none cpuCount)
        (← orElse (Codec.u64.option u64_write_ne_null) none memoryMib)
        (← orElse (Codec.u32.option u32_write_ne_null) none bootBlobCrc32c))
    | "start", [vmId] => do
      pure (.start (← need .u32 vmId))
    | "stop", [vmId] => do
      pure (.stop (← need .u32 vmId))
    | "delete", [vmId] => do
      pure (.delete (← need .u32 vmId))
    | "list", [] => some .list
    | "create_volume", [name, sizeBytes] => do
      pure (.createVolume (← need .text name) (← need .u64 sizeBytes))
    | "delete_volume", [volumeId] => do
      pure (.deleteVolume (← need VolumeId.codec volumeId))
    | "list_volumes", [] => some .listVolumes
    | "attach_volume", [vmId, volumeId, mountName] => do
      pure (.attachVolume (← need .u32 vmId) (← need VolumeId.codec volumeId) (← need .text mountName))
    | "detach_volume", [vmId, volumeId] => do
      pure (.detachVolume (← need .u32 vmId) (← need VolumeId.codec volumeId))
    | "read_volume", [volumeId, offset, len] => do
      pure (.readVolume (← need VolumeId.codec volumeId) (← need .u64 offset) (← need .u64 len))
    | "write_volume", [volumeId, offset, bytes] => do
      pure (.writeVolume (← need VolumeId.codec volumeId) (← need .u64 offset) (← need Codec.u8.list bytes))
    | "create_snapshot", [volumeId, name] => do
      pure (.createSnapshot (← need VolumeId.codec volumeId) (← need .text name))
    | "list_snapshots", [volumeId] => do
      pure (.listSnapshots (← orElse (VolumeId.codec.option volumeId_write_ne_null) none volumeId))
    | "delete_snapshot", [snapshotId] => do
      pure (.deleteSnapshot (← need SnapshotId.codec snapshotId))
    | "restore_snapshot", [snapshotId] => do
      pure (.restoreSnapshot (← need SnapshotId.codec snapshotId))
    | "create_network", [name, cidr] => do
      pure (.createNetwork (← need .text name) (← need .text cidr))
    | "delete_network", [networkId] => do
      pure (.deleteNetwork (← need NetworkId.codec networkId))
    | "list_networks", [] => some .listNetworks
    | "attach_nic", [networkId, vmId, ip] => do
      pure (.attachNic (← need NetworkId.codec networkId) (← need .u32 vmId)
        (← orElse (Codec.text.option text_write_ne_null) none ip))
    | "detach_nic", [nicId] => do
      pure (.detachNic (← need NicId.codec nicId))
    | "list_nics", [] => some .listNics
    | "create_security_group", [name, rules] => do
      pure (.createSecurityGroup (← need .text name) (← need SecurityRule.record.codec.list rules))
    | "delete_security_group", [sgId] => do
      pure (.deleteSecurityGroup (← need SecurityGroupId.codec sgId))
    | "list_security_groups", [] => some .listSecurityGroups
    | "create_load_balancer", [name, networkId, vip, frontendPort, algo, backends] => do
      pure (.createLoadBalancer (← need .text name) (← need NetworkId.codec networkId) (← need .text vip)
        (← need .u16 frontendPort) (← orElse LbAlgo.codec .roundRobin algo)
        (← need LbBackend.record.codec.list backends))
    | "delete_load_balancer", [lbId] => do
      pure (.deleteLoadBalancer (← need LoadBalancerId.codec lbId))
    | "list_load_balancers", [] => some .listLoadBalancers
    | _, _ => none
  proper := by decide
  listed a := by cases a <;> exact ⟨_, rfl, rfl⟩
  built a := by cases a <;> simp
  tame a := by cases a <;> simp

/-- `#[serde(tag = "reply", rename_all = "snake_case")]`. -/
def VmOpReply.tagged : Tagged VmOpReply where
  tag := "reply"
  variants := [("created", ["vm_id"]), ("state", ["vm_id", "state"]), ("deleted", ["vm_id"]), ("listed", ["rows"]),
    ("volume_created", ["volume"]), ("volume_deleted", ["volume_id"]), ("volumes_listed", ["volumes"]),
    ("attachments", ["vm_id", "volumes"]), ("volume_data", ["volume_id", "bytes"]),
    ("volume_written", ["volume_id", "bytes_written"]), ("snapshot_created", ["snapshot"]),
    ("snapshots_listed", ["snapshots"]), ("snapshot_deleted", ["snapshot_id"]),
    ("snapshot_restored", ["snapshot_id"]), ("network_created", ["network"]), ("network_deleted", ["network_id"]),
    ("networks_listed", ["networks"]), ("nic_attached", ["nic"]), ("nic_detached", ["nic_id"]),
    ("nics_listed", ["nics"]), ("security_group_created", ["sg"]), ("security_group_deleted", ["sg_id"]),
    ("security_groups_listed", ["sgs"]), ("load_balancer_created", ["lb"]), ("load_balancer_deleted", ["lb_id"]),
    ("load_balancers_listed", ["lbs"])]
  name
    | .created .. => "created"
    | .state .. => "state"
    | .deleted .. => "deleted"
    | .listed .. => "listed"
    | .volumeCreated .. => "volume_created"
    | .volumeDeleted .. => "volume_deleted"
    | .volumesListed .. => "volumes_listed"
    | .attachments .. => "attachments"
    | .volumeData .. => "volume_data"
    | .volumeWritten .. => "volume_written"
    | .snapshotCreated .. => "snapshot_created"
    | .snapshotsListed .. => "snapshots_listed"
    | .snapshotDeleted .. => "snapshot_deleted"
    | .snapshotRestored .. => "snapshot_restored"
    | .networkCreated .. => "network_created"
    | .networkDeleted .. => "network_deleted"
    | .networksListed .. => "networks_listed"
    | .nicAttached .. => "nic_attached"
    | .nicDetached .. => "nic_detached"
    | .nicsListed .. => "nics_listed"
    | .securityGroupCreated .. => "security_group_created"
    | .securityGroupDeleted .. => "security_group_deleted"
    | .securityGroupsListed .. => "security_groups_listed"
    | .loadBalancerCreated .. => "load_balancer_created"
    | .loadBalancerDeleted .. => "load_balancer_deleted"
    | .loadBalancersListed .. => "load_balancers_listed"
  values
    | .created vmId => [some (Codec.u32.write vmId)]
    | .state vmId st => [some (Codec.u32.write vmId), some (Codec.text.write st)]
    | .deleted vmId => [some (Codec.u32.write vmId)]
    | .listed rows => [some (RemoteVm.record.codec.list.write rows)]
    | .volumeCreated volume => [some (VolumeMeta.record.codec.write volume)]
    | .volumeDeleted volumeId => [some (VolumeId.codec.write volumeId)]
    | .volumesListed volumes => [some (VolumeMeta.record.codec.list.write volumes)]
    | .attachments vmId volumes => [some (Codec.u32.write vmId),
      some (VolumeAttachment.record.codec.list.write volumes)]
    | .volumeData volumeId bytes => [some (VolumeId.codec.write volumeId), some (Codec.u8.list.write bytes)]
    | .volumeWritten volumeId bytesWritten => [some (VolumeId.codec.write volumeId),
      some (Codec.u64.write bytesWritten)]
    | .snapshotCreated snapshot => [some (SnapshotMeta.record.codec.write snapshot)]
    | .snapshotsListed snapshots => [some (SnapshotMeta.record.codec.list.write snapshots)]
    | .snapshotDeleted snapshotId => [some (SnapshotId.codec.write snapshotId)]
    | .snapshotRestored snapshotId => [some (SnapshotId.codec.write snapshotId)]
    | .networkCreated network => [some (VirtualNetwork.record.codec.write network)]
    | .networkDeleted networkId => [some (NetworkId.codec.write networkId)]
    | .networksListed networks => [some (VirtualNetwork.record.codec.list.write networks)]
    | .nicAttached nic => [some (Nic.record.codec.write nic)]
    | .nicDetached nicId => [some (NicId.codec.write nicId)]
    | .nicsListed nics => [some (Nic.record.codec.list.write nics)]
    | .securityGroupCreated sg => [some (SecurityGroup.record.codec.write sg)]
    | .securityGroupDeleted sgId => [some (SecurityGroupId.codec.write sgId)]
    | .securityGroupsListed sgs => [some (SecurityGroup.record.codec.list.write sgs)]
    | .loadBalancerCreated lb => [some (LoadBalancer.record.codec.write lb)]
    | .loadBalancerDeleted lbId => [some (LoadBalancerId.codec.write lbId)]
    | .loadBalancersListed lbs => [some (LoadBalancer.record.codec.list.write lbs)]
  build
    | "created", [vmId] => do
      pure (.created (← need .u32 vmId))
    | "state", [vmId, st] => do
      pure (.state (← need .u32 vmId) (← need .text st))
    | "deleted", [vmId] => do
      pure (.deleted (← need .u32 vmId))
    | "listed", [rows] => do
      pure (.listed (← need RemoteVm.record.codec.list rows))
    | "volume_created", [volume] => do
      pure (.volumeCreated (← need VolumeMeta.record.codec volume))
    | "volume_deleted", [volumeId] => do
      pure (.volumeDeleted (← need VolumeId.codec volumeId))
    | "volumes_listed", [volumes] => do
      pure (.volumesListed (← need VolumeMeta.record.codec.list volumes))
    | "attachments", [vmId, volumes] => do
      pure (.attachments (← need .u32 vmId) (← need VolumeAttachment.record.codec.list volumes))
    | "volume_data", [volumeId, bytes] => do
      pure (.volumeData (← need VolumeId.codec volumeId) (← need Codec.u8.list bytes))
    | "volume_written", [volumeId, bytesWritten] => do
      pure (.volumeWritten (← need VolumeId.codec volumeId) (← need .u64 bytesWritten))
    | "snapshot_created", [snapshot] => do
      pure (.snapshotCreated (← need SnapshotMeta.record.codec snapshot))
    | "snapshots_listed", [snapshots] => do
      pure (.snapshotsListed (← need SnapshotMeta.record.codec.list snapshots))
    | "snapshot_deleted", [snapshotId] => do
      pure (.snapshotDeleted (← need SnapshotId.codec snapshotId))
    | "snapshot_restored", [snapshotId] => do
      pure (.snapshotRestored (← need SnapshotId.codec snapshotId))
    | "network_created", [network] => do
      pure (.networkCreated (← need VirtualNetwork.record.codec network))
    | "network_deleted", [networkId] => do
      pure (.networkDeleted (← need NetworkId.codec networkId))
    | "networks_listed", [networks] => do
      pure (.networksListed (← need VirtualNetwork.record.codec.list networks))
    | "nic_attached", [nic] => do
      pure (.nicAttached (← need Nic.record.codec nic))
    | "nic_detached", [nicId] => do
      pure (.nicDetached (← need NicId.codec nicId))
    | "nics_listed", [nics] => do
      pure (.nicsListed (← need Nic.record.codec.list nics))
    | "security_group_created", [sg] => do
      pure (.securityGroupCreated (← need SecurityGroup.record.codec sg))
    | "security_group_deleted", [sgId] => do
      pure (.securityGroupDeleted (← need SecurityGroupId.codec sgId))
    | "security_groups_listed", [sgs] => do
      pure (.securityGroupsListed (← need SecurityGroup.record.codec.list sgs))
    | "load_balancer_created", [lb] => do
      pure (.loadBalancerCreated (← need LoadBalancer.record.codec lb))
    | "load_balancer_deleted", [lbId] => do
      pure (.loadBalancerDeleted (← need LoadBalancerId.codec lbId))
    | "load_balancers_listed", [lbs] => do
      pure (.loadBalancersListed (← need LoadBalancer.record.codec.list lbs))
    | _, _ => none
  proper := by decide
  listed a := by cases a <;> exact ⟨_, rfl, rfl⟩
  built a := by cases a <;> simp
  tame a := by cases a <;> simp

/-- `VmOpResult`: an object of one member, `ok` or `err`. -/
def resultCodec : Serde.Codec HostResult where
  write
    | .ok r => .obj [("ok".toList, VmOpReply.tagged.codec.write r)]
    | .error e => .obj [("err".toList, Codec.text.write e)]
  read
    | .obj [(k, v)] =>
      if k = "ok".toList then (VmOpReply.tagged.codec.read v).map .ok
      else if k = "err".toList then (Codec.text.read v).map .error
      else none
    | _ => none
  read_write r := by
    cases r with
    | ok r => simp
    | error e => simp
  tame r := by
    cases r with
    | ok r => exact ⟨plain_of_all (s := "ok".toList) (by decide), VmOpReply.tagged.codec.tame r, trivial⟩
    | error e => exact ⟨plain_of_all (s := "err".toList) (by decide), trivial, trivial⟩

/-! ## Frames -/

/-- `#[serde(tag = "kind", rename_all = "snake_case")]`. -/
def Payload.tagged : Tagged Payload where
  tag := "kind"
  variants := [("hello", ["node"]), ("sync", ["nodes", "vms"]), ("goodbye", []), ("request", ["req_id", "target", "op"]),
    ("response", ["req_id", "result"])]
  name
    | .hello .. => "hello"
    | .sync .. => "sync"
    | .goodbye => "goodbye"
    | .request .. => "request"
    | .response .. => "response"
  values
    | .hello node => [some (NodeInfo.record.codec.write node)]
    | .sync nodes vms => [some (NodeInfo.record.codec.list.write nodes), some (RemoteVm.record.codec.list.write vms)]
    | .goodbye => []
    | .request reqId target op => [some (Codec.u64.write reqId), some (Codec.text.write target),
      some (VmOp.tagged.codec.write op)]
    | .response reqId r => [some (Codec.u64.write reqId), some (resultCodec.write r)]
  build
    | "hello", [node] => do pure (.hello (← need NodeInfo.record.codec node))
    | "sync", [nodes, vms] => do
      pure (.sync (← need NodeInfo.record.codec.list nodes) (← need RemoteVm.record.codec.list vms))
    | "goodbye", [] => some .goodbye
    | "request", [reqId, target, op] => do
      pure (.request (← need .u64 reqId) (← need .text target) (← need VmOp.tagged.codec op))
    | "response", [reqId, r] => do pure (.response (← need .u64 reqId) (← need resultCodec r))
    | _, _ => none
  proper := by decide
  listed a := by cases a <;> exact ⟨_, rfl, rfl⟩
  built a := by cases a <;> simp
  tame a := by cases a <;> simp

/-! ## A payload is read by way of a tree -/

/-- What the codecs of ids, enums and addresses write is a text. -/
@[simp] theorem nodeId_held (i : NodeId) (n : Nat) : held (NodeId.codec.write i) n = true := rfl
@[simp] theorem volumeId_held (i : VolumeId) (n : Nat) : held (VolumeId.codec.write i) n = true := rfl
@[simp] theorem snapshotId_held (i : SnapshotId) (n : Nat) : held (SnapshotId.codec.write i) n = true := rfl
@[simp] theorem networkId_held (i : NetworkId) (n : Nat) : held (NetworkId.codec.write i) n = true := rfl
@[simp] theorem nicId_held (i : NicId) (n : Nat) : held (NicId.codec.write i) n = true := rfl
@[simp] theorem securityGroupId_held (i : SecurityGroupId) (n : Nat) : held (SecurityGroupId.codec.write i) n = true := rfl
@[simp] theorem loadBalancerId_held (i : LoadBalancerId) (n : Nat) : held (LoadBalancerId.codec.write i) n = true := rfl
@[simp] theorem nodeStatus_held (a : NodeStatus) (n : Nat) : held (NodeStatus.codec.write a) n = true := rfl
@[simp] theorem restartPolicy_held (a : RestartPolicy) (n : Nat) : held (RestartPolicy.codec.write a) n = true := rfl
@[simp] theorem direction_held (a : Direction) (n : Nat) : held (Direction.codec.write a) n = true := rfl
@[simp] theorem l4Proto_held (a : L4Proto) (n : Nat) : held (L4Proto.codec.write a) n = true := rfl
@[simp] theorem lbAlgo_held (a : LbAlgo) (n : Nat) : held (LbAlgo.codec.write a) n = true := rfl
@[simp] theorem ipv4Addr_held (a : Ipv4Addr) (n : Nat) : held (Ipv4Addr.codec.write a) n = true := rfl

@[simp] theorem nodeInfo_held (r : NodeInfo) (n : Nat) : held (NodeInfo.record.codec.write r) (n + 1) = true :=
  NodeInfo.record.held (fun r => by
    dsimp only [NodeInfo.record]
    simp) r

@[simp] theorem volumeAttachment_held (a : VolumeAttachment) (n : Nat) :
    held (VolumeAttachment.record.codec.write a) (n + 1) = true :=
  VolumeAttachment.record.held (fun a => by
    dsimp only [VolumeAttachment.record]
    simp) a

@[simp] theorem remoteVm_held (r : RemoteVm) (n : Nat) : held (RemoteVm.record.codec.write r) (n + 3) = true :=
  RemoteVm.record.held (fun r => by
    dsimp only [RemoteVm.record]
    simp) r

@[simp] theorem volumeMeta_held (m : VolumeMeta) (n : Nat) : held (VolumeMeta.record.codec.write m) (n + 1) = true :=
  VolumeMeta.record.held (fun m => by
    dsimp only [VolumeMeta.record]
    simp) m

@[simp] theorem snapshotMeta_held (m : SnapshotMeta) (n : Nat) : held (SnapshotMeta.record.codec.write m) (n + 1) = true :=
  SnapshotMeta.record.held (fun m => by
    dsimp only [SnapshotMeta.record]
    simp) m

@[simp] theorem cidr4_held (c : Cidr4) (n : Nat) : held (Cidr4.record.codec.write c) (n + 1) = true :=
  Cidr4.record.held (fun c => by
    dsimp only [Cidr4.record]
    simp) c

@[simp] theorem virtualNetwork_held (v : VirtualNetwork) (n : Nat) :
    held (VirtualNetwork.record.codec.write v) (n + 2) = true :=
  VirtualNetwork.record.held (fun v => by
    dsimp only [VirtualNetwork.record]
    simp) v

@[simp] theorem nic_held (i : Nic) (n : Nat) : held (Nic.record.codec.write i) (n + 2) = true :=
  Nic.record.held (fun i => by
    dsimp only [Nic.record]
    simp) i

@[simp] theorem securityRule_held (r : SecurityRule) (n : Nat) : held (SecurityRule.record.codec.write r) (n + 2) = true :=
  SecurityRule.record.held (fun r => by
    dsimp only [SecurityRule.record]
    simp) r

@[simp] theorem securityGroup_held (g : SecurityGroup) (n : Nat) :
    held (SecurityGroup.record.codec.write g) (n + 4) = true :=
  SecurityGroup.record.held (fun g => by
    dsimp only [SecurityGroup.record]
    simp) g

@[simp] theorem lbBackend_held (b : LbBackend) (n : Nat) : held (LbBackend.record.codec.write b) (n + 1) = true :=
  LbBackend.record.held (fun b => by
    dsimp only [LbBackend.record]
    simp) b

@[simp] theorem loadBalancer_held (l : LoadBalancer) (n : Nat) : held (LoadBalancer.record.codec.write l) (n + 3) = true :=
  LoadBalancer.record.held (fun l => by
    dsimp only [LoadBalancer.record]
    simp) l

@[simp] theorem op_held (o : VmOp) (n : Nat) : held (VmOp.tagged.codec.write o) (n + 4) = true :=
  VmOp.tagged.held (fun o => by cases o <;> dsimp only [VmOp.tagged] <;> simp) o

@[simp] theorem reply_held (r : VmOpReply) (n : Nat) : held (VmOpReply.tagged.codec.write r) (n + 6) = true :=
  VmOpReply.tagged.held (fun r => by cases r <;> dsimp only [VmOpReply.tagged] <;> simp) r

@[simp] theorem result_held (r : HostResult) (n : Nat) : held (resultCodec.write r) (n + 7) = true := by
  cases r with
  | ok r =>
    change (held (VmOpReply.tagged.codec.write r) (n + 6) && true) = true
    rw [reply_held]
    rfl
  | error e => rfl

theorem payload_held (p : Payload) (n : Nat) : held (Payload.tagged.codec.write p) (n + 8) = true :=
  Payload.tagged.held (fun p => by cases p <;> dsimp only [Payload.tagged] <;> simp) p

/-- What is left of the nesting limit of 128 inside the object of an envelope. -/
def payloadDepth : Nat := 126

theorem payload_kept (p : Payload) : held (Payload.tagged.codec.write p) payloadDepth = true := payload_held p 118

/-- The tag may come last, so the members are kept until it is there. -/
def Payload.codec : Serde.Codec Payload := Payload.tagged.codec.buffered payloadDepth payload_kept

theorem Payload.codec_read (v : Value) :
    Payload.codec.read v = if held v payloadDepth then Payload.tagged.codec.read v else none :=
  Codec.buffered_read v

def Envelope.record : Record Envelope where
  fields := ["magic", "version", "from", "cluster", "hlc", "payload"]
  values e := [some (Codec.text.write e.magic), some (Codec.u32.write e.version), some (Codec.text.write e.sender),
    some (Codec.text.write e.cluster), some (Codec.u64.write e.hlc), some (Payload.codec.write e.payload)]
  build
    | [magic, version, sender, cluster, hlc, payload] => do
      pure ⟨← need .text magic, ← need .u32 version, ← need .text sender, ← need .text cluster, ← need .u64 hlc,
        ← need Payload.codec payload⟩
    | _ => none
  proper := by decide
  length _ := rfl
  built e := by simp
  tame e := by simp

/-- `serde_json::to_vec` on what a frame may carry. -/
def serdeJson : OtherJson where
  op o := (VmOp.tagged.codec.write o).bytes
  reply r := (VmOpReply.tagged.codec.write r).bytes
  payload p := (Payload.tagged.codec.write p).bytes

/-- `serde_json::from_slice` into an `Envelope`. -/
def Envelope.fromSlice (bytes : List UInt8) : Option Envelope :=
  (Text.ofUtf8 bytes).bind (fun s => (Json.parse s.toList).bind Envelope.record.codec.read)

/-! ## The bytes of a frame -/

namespace MeshWire

theorem text_bytes (s : String) : (Codec.text.write s).bytes = FrameSize.text s := by
  change Value.bytes (.str s.toList) = _
  rw [bytes_str, bytesOf_toList, FrameSize.text]

theorem u64_bytes (n : UInt64) : (Codec.u64.write n).bytes = decimal n.toNat := bytes_num n.toNat

theorem u32_bytes (n : UInt32) : (Codec.u32.write n).bytes = decimal n.toNat := bytes_num n.toNat

theorem byteArray_bytes (bytes : List UInt8) : (Codec.u8.list.write bytes).bytes = FrameSize.byteArray bytes := by
  change Value.bytes (.arr (bytes.map Codec.u8.write)) = _
  rw [bytes_arr, List.map_map, FrameSize.byteArray]
  congr 1
  exact List.map_congr_left (fun b _ => bytes_num b.toNat)

theorem volumeId_bytes (v : VolumeId) : (VolumeId.codec.write v).bytes = FrameSize.text v.raw := text_bytes v.raw

theorem op_bytes (o : VmOp) : FrameSize.op serdeJson o = (VmOp.tagged.codec.write o).bytes := by
  cases o with
  | writeVolume volumeId offset bytes =>
    have hwrite : VmOp.tagged.codec.write (.writeVolume volumeId offset bytes) =
        .obj [("op".toList, .str "write_volume".toList), ("volume_id".toList, VolumeId.codec.write volumeId),
          ("offset".toList, Codec.u64.write offset), ("bytes".toList, Codec.u8.list.write bytes)] := rfl
    rw [hwrite, bytes_obj]
    simp only [List.map_cons, List.map_nil, bytes_str, volumeId_bytes, u64_bytes, byteArray_bytes,
      bytesOf_toList]
    rfl
  | _ => rfl

theorem reply_bytes (r : VmOpReply) : FrameSize.reply serdeJson r = (VmOpReply.tagged.codec.write r).bytes := by
  cases r with
  | volumeData volumeId bytes =>
    have hwrite : VmOpReply.tagged.codec.write (.volumeData volumeId bytes) =
        .obj [("reply".toList, .str "volume_data".toList), ("volume_id".toList, VolumeId.codec.write volumeId),
          ("bytes".toList, Codec.u8.list.write bytes)] := rfl
    rw [hwrite, bytes_obj]
    simp only [List.map_cons, List.map_nil, bytes_str, volumeId_bytes, byteArray_bytes, bytesOf_toList]
    rfl
  | _ => rfl

theorem result_bytes (r : HostResult) : FrameSize.result serdeJson r = (resultCodec.write r).bytes := by
  cases r with
  | ok r =>
    have hwrite : resultCodec.write (.ok r) = .obj [("ok".toList, VmOpReply.tagged.codec.write r)] := rfl
    rw [hwrite, bytes_obj]
    simp only [List.map_cons, List.map_nil, ← reply_bytes]
    rfl
  | error e =>
    have hwrite : resultCodec.write (.error e) = .obj [("err".toList, Codec.text.write e)] := rfl
    rw [hwrite, bytes_obj]
    simp only [List.map_cons, List.map_nil, text_bytes]
    rfl

theorem payload_bytes (p : Payload) : FrameSize.payload serdeJson p = (Payload.tagged.codec.write p).bytes := by
  cases p with
  | request reqId target op =>
    have hwrite : Payload.tagged.codec.write (.request reqId target op) =
        .obj [("kind".toList, .str "request".toList), ("req_id".toList, Codec.u64.write reqId),
          ("target".toList, Codec.text.write target), ("op".toList, VmOp.tagged.codec.write op)] := rfl
    rw [hwrite, bytes_obj]
    simp only [List.map_cons, List.map_nil, bytes_str, text_bytes, u64_bytes, ← op_bytes, bytesOf_toList]
    rfl
  | response reqId r =>
    have hwrite : Payload.tagged.codec.write (.response reqId r) =
        .obj [("kind".toList, .str "response".toList), ("req_id".toList, Codec.u64.write reqId),
          ("result".toList, resultCodec.write r)] := rfl
    rw [hwrite, bytes_obj]
    simp only [List.map_cons, List.map_nil, bytes_str, u64_bytes, ← result_bytes, bytesOf_toList]
    rfl
  | _ => rfl

/-- **The bytes of a frame are those of its JSON value.** -/
theorem encode_bytes (env : Envelope) : env.encode serdeJson = (Envelope.record.codec.write env).bytes := by
  have hwrite : Envelope.record.codec.write env =
      .obj [("magic".toList, Codec.text.write env.magic), ("version".toList, Codec.u32.write env.version),
        ("from".toList, Codec.text.write env.sender), ("cluster".toList, Codec.text.write env.cluster),
        ("hlc".toList, Codec.u64.write env.hlc), ("payload".toList, Payload.tagged.codec.write env.payload)] := rfl
  rw [hwrite, bytes_obj]
  simp only [List.map_cons, List.map_nil, text_bytes, u32_bytes, u64_bytes, ← payload_bytes]
  rfl

theorem fromSlice_encode (env : Envelope) : Envelope.fromSlice (env.encode serdeJson) = some env := by
  have hparse := parse_bytes (Envelope.record.codec.tame env)
  rw [encode_bytes, Envelope.fromSlice]
  cases hs : Text.ofUtf8 (Envelope.record.codec.write env).bytes with
  | none =>
    rw [hs] at hparse
    cases hparse
  | some s =>
    rw [hs, Option.bind_some] at hparse
    rw [Option.bind_some, hparse, Option.bind_some, Codec.read_write]

/-- **What is sent is what is received.**  Any envelope of this magic and version, whatever operation, reply, rows and
texts it carries, is decoded to itself from its frame; only a frame over the limit is dropped, for its size. -/
theorem envelope_decode_encode (env : Envelope) (hmagic : env.magic = Celium.magic) (hversion : env.version = protoVersion) :
    Envelope.decode Envelope.fromSlice (env.encode serdeJson) =
      if maxFrameBytes < (env.encode serdeJson).length then .error .tooLarge else .ok env := by
  by_cases hsize : maxFrameBytes < (env.encode serdeJson).length
  · rw [Envelope.decode, if_pos hsize, if_pos hsize]
  · rw [Envelope.decode, if_neg hsize, if_neg hsize, fromSlice_encode]
    simp only [hmagic, hversion, ne_eq, not_true_eq_false, if_false]

/-- A peer's two nodes and a VM of its own, with a disk and a boot blob. -/
def synced : Envelope :=
  ⟨"celmesh/1", 1, "node-a", "lab", 9, .sync
    [⟨⟨"node-a"⟩, "10.0.0.1:7777", 1, 9, .alive⟩, ⟨⟨"node-b"⟩, "10.0.0.2:7777", 4, 2, .suspect⟩]
    [⟨⟨"node-a"⟩, 3, "web \"1\"", "Running", some 12, 1, 8, true, .always, [⟨⟨"vol-1"⟩, "data"⟩], some "/img/web.elf",
      some 2, none, some 3735928559⟩]⟩

set_option maxRecDepth 10000 in
theorem envelope_decode_encode_sync : Envelope.decode Envelope.fromSlice (Envelope.encode serdeJson synced) = .ok synced := by
  rw [envelope_decode_encode synced rfl rfl, if_neg (by decide)]

/-! ## Peers of other versions -/

/-- The envelope's members, with another payload in its place. -/
def envelopeMembers (env : Envelope) (payload : Value) : List (List Char × Value) :=
  present Envelope.record.fields
    [some (Codec.text.write env.magic), some (Codec.u32.write env.version), some (Codec.text.write env.sender),
      some (Codec.text.write env.cluster), some (Codec.u64.write env.hlc), some payload]

theorem read_envelope {env : Envelope} {payload : Value} {ms : List (List Char × Value)}
    (h : SameMembers Envelope.record.fields ms (envelopeMembers env payload)) :
    Envelope.record.codec.read (.obj ms) = (Payload.codec.read payload).map fun p => { env with payload := p } := by
  rw [Envelope.record.read_congr h, envelopeMembers, Envelope.record.read_present rfl]
  simp only [List.map_cons, List.map_nil, Envelope.record, need_of, Option.bind_eq_bind, Option.bind_some]
  simp only [need, Slot.of, Option.pure_def]
  rw [Option.map_eq_bind]
  rfl

/-- **A newer peer is understood.**  A text of any layout that has the members of an envelope and of its payload is decoded
to that envelope, in whatever order they stand and whatever members of other names stand among them, exactly if the payload
can be kept: those of its members do not nest too deep and hold no number that overflows. -/
theorem decode_extended (env : Envelope) (bytes : List UInt8) (ms pms : List (List Char × Value))
    (hmagic : env.magic = Celium.magic) (hversion : env.version = protoVersion)
    (hsize : bytes.length ≤ maxFrameBytes)
    (hparse : (Text.ofUtf8 bytes).bind (fun s => Json.parse s.toList) = some (.obj ms))
    (hframe : SameMembers Envelope.record.fields ms (envelopeMembers env (.obj pms)))
    (hpayload : SameMembers Payload.tagged.names pms (Payload.tagged.members env.payload)) :
    Envelope.decode Envelope.fromSlice bytes =
      if held (.obj pms) payloadDepth then .ok env else .error .malformed := by
  have hread : Payload.tagged.codec.read (.obj pms) = some env.payload := by
    rw [Payload.tagged.read_congr hpayload]
    exact Payload.tagged.codec.read_write env.payload
  have hslice : Envelope.fromSlice bytes = if held (.obj pms) payloadDepth then some env else none := by
    rw [Envelope.fromSlice]
    cases hs : Text.ofUtf8 bytes with
    | none =>
      rw [hs] at hparse
      cases hparse
    | some s =>
      rw [hs, Option.bind_some] at hparse
      rw [Option.bind_some, hparse, Option.bind_some, read_envelope hframe, Payload.codec_read, hread]
      split
      · rfl
      · rfl
  rw [Envelope.decode, if_neg (Nat.not_lt.2 hsize), hslice]
  by_cases hheld : held (.obj pms) payloadDepth = true
  · rw [if_pos hheld, if_pos hheld]
    simp only [hmagic, hversion, ne_eq, not_true_eq_false, if_false]
  · rw [if_neg hheld, if_neg hheld]

/-- A write to a volume of another node. -/
def asked : Envelope :=
  ⟨"celmesh/1", 1, "node-a", "lab", 7, .request 5 "node-b" (.writeVolume ⟨"vol-1"⟩ 512 [1, 2, 255])⟩

def askedPayload : List (List Char × Value) :=
  ("deadline".toList, .arr [.num "250".toList, .null]) :: (Payload.tagged.members asked.payload).reverse

/-- The same from a newer peer: a member this version does not know in the envelope and one in the payload, and the rest of
both from the last to the first. -/
def fromNewerPeer : Value := .obj (("trace".toList, .null) :: (envelopeMembers asked (.obj askedPayload)).reverse)

theorem askedPayload_tame : Tame (.obj askedPayload) := by
  have hmembers : TameMembers (Payload.tagged.members asked.payload) := Payload.tagged.codec.tame asked.payload
  rw [tameMembers_iff] at hmembers
  rw [Tame, askedPayload, tameMembers_iff, List.forall_mem_cons]
  refine ⟨⟨plain_of_all (by decide), Codec.u64.tame 250, trivial, trivial⟩, fun m hm => ?_⟩
  exact hmembers m (List.mem_reverse.1 hm)

theorem fromNewerPeer_tame : Tame fromNewerPeer :=
  ⟨plain_of_all (s := "trace".toList) (by decide), trivial,
    plain_of_all (s := "payload".toList) (by decide), askedPayload_tame,
    plain_of_all (s := "hlc".toList) (by decide), Codec.u64.tame 7,
    plain_of_all (s := "cluster".toList) (by decide), trivial,
    plain_of_all (s := "from".toList) (by decide), trivial,
    plain_of_all (s := "version".toList) (by decide), Codec.u32.tame 1,
    plain_of_all (s := "magic".toList) (by decide), trivial, trivial⟩

set_option maxRecDepth 10000 in
theorem decode_extended_request :
    Envelope.decode Envelope.fromSlice fromNewerPeer.bytes = .ok asked := by
  rw [decode_extended asked fromNewerPeer.bytes _ askedPayload rfl rfl (by decide) (parse_bytes fromNewerPeer_tame)
    (.unknown (by decide) (.of_perm (List.reverse_perm _))) (.unknown (by decide) (.of_perm (List.reverse_perm _))),
    if_pos (by decide)]

end MeshWire

/-! ## Rows of older peers -/

/-- The fields of a row that the first senders did not know. -/
def RemoteVm.laterFields : List String :=
  ["owner_alive", "restart_policy", "volumes", "image_path", "cpu_count", "memory_mib", "boot_blob_crc32c"]

/-- A row as it is read from a sender that leaves out the fields `gone`. -/
def RemoteVm.without (gone : List String) (r : RemoteVm) : RemoteVm := { r with
  ownerAlive := if "owner_alive" ∈ gone then true else r.ownerAlive
  restartPolicy := if "restart_policy" ∈ gone then .never else r.restartPolicy
  volumes := if "volumes" ∈ gone then [] else r.volumes
  imagePath := if "image_path" ∈ gone then none else r.imagePath
  cpuCount := if "cpu_count" ∈ gone then none else r.cpuCount
  memoryMib := if "memory_mib" ∈ gone then none else r.memoryMib
  bootBlobCrc32c := if "boot_blob_crc32c" ∈ gone then none else r.bootBlobCrc32c }

namespace MeshWire

theorem not_mem_later {gone : List String} (h : ∀ n ∈ gone, n ∈ RemoteVm.laterFields) {n : String}
    (hn : n ∉ RemoteVm.laterFields) : n ∉ gone := fun hg => hn (h n hg)

/-- **An older peer's row is understood.**  Whichever of the later fields its sender does not know, in whatever order the
others stand and whatever members of other names stand among them, the row is read with the defaults in their places. -/
theorem read_older (r : RemoteVm) (gone : List String) (ms : List (List Char × Value))
    (hgone : ∀ n ∈ gone, n ∈ RemoteVm.laterFields)
    (h : SameMembers RemoteVm.record.fields ms (RemoteVm.record.membersWithout gone r)) :
    RemoteVm.record.codec.read (.obj ms) = some (r.without gone) := by
  rw [RemoteVm.record.read_without gone r h]
  have howner := not_mem_later hgone (n := "owner") (by decide)
  have hvmId := not_mem_later hgone (n := "vm_id") (by decide)
  have hlabel := not_mem_later hgone (n := "label") (by decide)
  have hstate := not_mem_later hgone (n := "state") (by decide)
  have hlastExit := not_mem_later hgone (n := "last_exit") (by decide)
  have hepoch := not_mem_later hgone (n := "epoch") (by decide)
  have hhlc := not_mem_later hgone (n := "hlc") (by decide)
  dsimp only [RemoteVm.record, List.zipWith, List.map]
  rw [if_neg howner, if_neg hvmId, if_neg hlabel, if_neg hstate, if_neg hlastExit, if_neg hepoch, if_neg hhlc]
  -- the fields every sender writes
  rw [need_of, need_of, need_of, need_of, needOption_of, need_of, need_of]
  -- and the later ones
  rw [orElse_dropped, orElse_dropped, orElse_dropped, orElse_skipNone_dropped, orElse_skipNone_dropped,
    orElse_skipNone_dropped, orElse_skipNone_dropped]
  rfl

/-- A row of a sender that knows no volumes and no restart policy. -/
theorem read_older_w11 :
    RemoteVm.record.codec.read (.obj (RemoteVm.record.membersWithout ["restart_policy", "volumes"]
      ⟨⟨"node-a"⟩, 1, "web", "running", none, 1, 2, true, .always, [⟨⟨"vol-1"⟩, "data"⟩], none, none, none, none⟩)) =
      some ⟨⟨"node-a"⟩, 1, "web", "running", none, 1, 2, true, .never, [], none, none, none, none⟩ :=
  read_older _ _ _ (by decide) (.of_perm (List.Perm.refl _))

end MeshWire

end Celium
