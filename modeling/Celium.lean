import Celium.Lib.Runs
import Celium.Lib.Forest
import Celium.Lib.Fixed
import Celium.Common
import Celium.Caps
import Celium.Quota
import Celium.Auth
import Celium.Tenant
import Celium.Store
import Celium.Lib.Assoc
import Celium.StoreSpec
import Celium.StoreTree
import Celium.StoreSubtree
import Celium.StoreReach
import Celium.StoreCharge
import Celium.StoreUproot
import Celium.StoreIndex
import Celium.StoreQuota
import Celium.StoreAtomic
import Celium.StoreDepth
import Celium.StoreSessions
import Celium.StoreLedger
import Celium.StoreShare
import Celium.StoreFile
import Celium.Lib.Text
import Celium.Lib.Lines
import Celium.Volume
import Celium.VolumeCalls
import Celium.VolumeHistory
import Celium.FileVolume
import Celium.VaultAgree
import Celium.VaultIsolation
import Celium.VaultCrash
import Celium.Network
import Celium.NetworkCalls
import Celium.NetworkCoherent
import Celium.NetworkReserved
import Celium.NetworkAlloc
import Celium.NetworkMac
import Celium.VmOp
import Celium.MemHost
import Celium.HostSections
import Celium.HyperHost
import Celium.HyperDropIn
import Celium.CapGate
import Celium.Lib.Posting
import Celium.Runtime
import Celium.RuntimeQuota
import Celium.RuntimeAudit
import Celium.AuditFile
import Celium.FrameSize
import Celium.SupervisorCut
import Celium.K8s
import Celium.K8sCreate
import Celium.K8sDestroy
import Celium.VmCreate
import Celium.VmExit
import Celium.ReplySize
import Celium.Exec
import Celium.Lib.Lww
import Celium.Membership
import Celium.MemberDetect
import Celium.Federation
import Celium.Mesh
import Celium.FederatedPath
import Celium.MeshSpec
import Celium.MeshConverge
import Celium.MeshDepart
import Celium.MeshMirror
import Celium.Lib.Gossip
import Celium.Cluster
import Celium.ClusterView
import Celium.ClusterMembers
import Celium.Supervisor
import Celium.SupervisorOnce
import Celium.Publish
import Celium.HyperWire
import Celium.SerialLink
import Celium.Lib.Hex
import Celium.Wire
import Celium.Boot
import Celium.Manager
import Celium.Bridge
import Celium.Loopback
import Celium.WireRequest
import Celium.Lib.JsonRead
import Celium.WireReply
import Celium.KernelRows
import Celium.ImageShip
import Celium.LoopbackKernel
import Celium.Staging
import Celium.Rpc
import Celium.Lib.Checked
import Celium.Lib.Bytes
import Celium.Lib.Blocks
import Celium.DiskImage
import Celium.Qcow2
import Celium.Qcow2Read
import Celium.Vmdk
import Celium.VmdkRead
import Celium.Vhdx
import Celium.VhdxRead
import Celium.VhdxOverflow
import Celium.ImagesOpen
import Celium.Controller
import Celium.ControllerBlob
import Celium.ControllerHistory
import Celium.VmPath
import Celium.Lib.Walk
import Celium.Ept
import Celium.EptWalk
import Celium.EptAlias
import Celium.Lib.Infix
import Celium.Admin
import Celium.VmRace
import Celium.Elf
import Celium.ElfBounds
import Celium.ElfLoad
import Celium.WireJson
import Celium.Lib.Crc
import Celium.Checksum
import Celium.ImageSum
import Celium.Lib.JsonWrite
import Celium.Lib.Serde
import Celium.MeshWire
import Celium.Lib.X86
import Celium.Jmp
import Celium.Trampoline
import Celium.GuestMemory
import Celium.GuestIsolation
import Celium.GuestBlob
import Celium.Lib.RoundRobin
import Celium.BringUp
import Celium.Lib.LineStream
import Celium.SerialIo
import Celium.SerialSession
import Celium.Lib.Ledger
import Celium.StoreLogin
