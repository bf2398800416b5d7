import Celium.Common
import Celium.Auth
import Celium.Lib.Assoc
import Celium.Lib.Fixed
import Celium.Lib.Text
import Mathlib.Data.String.Basic
/-!
# Network — virtual networks, NICs, security groups and load balancers

`celvault::network`: the address arithmetic of `Cidr4`, the records, and `MemNetworkStore`.  An address is its 32 bits;
`Ipv4Addr.parse` is the standard library's (four decimal octets without leading zeros).
-/
namespace Celium

open Fixed

@[ext] structure NetworkId where
  raw : String
deriving DecidableEq, Repr

@[ext] structure NicId where
  raw : String
deriving DecidableEq, Repr

@[ext] structure SecurityGroupId where
  raw : String
deriving DecidableEq, Repr

@[ext] structure LoadBalancerId where
  raw : String
deriving DecidableEq, Repr

def maxNicsPerNetwork : Nat := 256
def maxRulesPerGroup : Nat := 32
def maxBackendsPerLb : Nat := 32

/-! ## Addresses -/

structure Ipv4Addr where
  bits : UInt32
deriving DecidableEq, Repr

namespace Ipv4Addr

/-- One to three digits, without a leading zero, up to 255. -/
def octet (s : List Char) : Option UInt32 :=
  if s.isEmpty || s.length > 3 || (s.length > 1 && s.head? == some '0') then none
  else (Text.digitsFrom 255 0 s).map UInt32.ofNat

/-- `Ipv4Addr::from_str`. -/
def parse (s : String) : Option Ipv4Addr :=
  match s.toList.splitOn '.' with
  | [a, b, c, d] =>
    match octet a, octet b, octet c, octet d with
    | some a, some b, some c, some d => some ⟨a <<< 24 ||| b <<< 16 ||| c <<< 8 ||| d⟩
    | _, _, _, _ => none
  | _ => none

end Ipv4Addr

structure Cidr4 where
  base : Ipv4Addr
  prefixLen : UInt8
deriving DecidableEq, Repr

namespace Cidr4

/-- `!0u32 << (32 - prefix_len)`. -/
def mask (prefixLen : UInt8) : UInt32 := 0xffffffff <<< (32 - prefixLen.toUInt32)

def parse (s : String) : CelResult Cidr4 :=
  match Text.splitOnce '/' s.toList with
  | none => .error (.invalid "cidr: missing '/'")
  | some (ip, p) =>
    match Ipv4Addr.parse (String.ofList ip) with
    | none => .error (.invalid "cidr: bad ipv4")
    | some ip =>
      match Text.parseUnsigned 255 p with
      | none => .error (.invalid "cidr: bad prefix")
      | some n =>
        let prefixLen := UInt8.ofNat n
        if prefixLen = 0 ∨ prefixLen ≥ 32 then .error (.invalid "cidr: prefix must be in 1..32")
        else .ok ⟨⟨ip.bits &&& mask prefixLen⟩, prefixLen⟩

/-- The host addresses, without the network and the broadcast one. -/
def capacity (c : Cidr4) : UInt32 := satSub32 (1 <<< (32 - c.prefixLen.toUInt32)) 2

def nthHost (c : Cidr4) (n : UInt32) : Option Ipv4Addr :=
  if n = 0 ∨ n > c.capacity then none else some ⟨c.base.bits + n⟩

def contains (c : Cidr4) (addr : Ipv4Addr) : Bool :=
  let m := if c.prefixLen = 0 then 0 else mask c.prefixLen
  addr.bits &&& m == c.base.bits

end Cidr4

/-! ## Records -/

structure VirtualNetwork where
  id : NetworkId
  owner : String
  name : String
  cidr : Cidr4
deriving DecidableEq, Repr

structure Nic where
  id : NicId
  networkId : NetworkId
  vmId : UInt32
  ip : Ipv4Addr
  mac : Vector UInt8 6
deriving DecidableEq, Repr

inductive Direction where
  | ingress | egress
deriving DecidableEq, Repr

inductive L4Proto where
  | tcp | udp | icmp | any
deriving DecidableEq, Repr

structure SecurityRule where
  direction : Direction
  proto : L4Proto
  portMin : UInt16
  portMax : UInt16
  cidr : Cidr4
  allow : Bool
deriving DecidableEq, Repr

structure SecurityGroup where
  id : SecurityGroupId
  owner : String
  name : String
  rules : List SecurityRule
deriving DecidableEq, Repr

inductive LbAlgo where
  | roundRobin | leastConn
deriving DecidableEq, Repr

structure LbBackend where
  vmId : UInt32
  ip : Ipv4Addr
  port : UInt16
deriving DecidableEq, Repr

structure LoadBalancer where
  id : LoadBalancerId
  owner : String
  name : String
  networkId : NetworkId
  vip : Ipv4Addr
  frontendPort : UInt16
  algo : LbAlgo
  backends : List LbBackend
deriving DecidableEq, Repr

/-! ## The in-memory store -/

structure MemNetworkStore where
  nextNet : UInt64
  nextSg : UInt64
  nextLb : UInt64
  nextNic : AList (fun _ : NetworkId => UInt32)
  usedIps : AList (fun _ : NetworkId => AList (fun _ : Ipv4Addr => NicId))
  networks : AList (fun _ : NetworkId => VirtualNetwork)
  nics : AList (fun _ : NicId => Nic)
  sgs : AList (fun _ : SecurityGroupId => SecurityGroup)
  lbs : AList (fun _ : LoadBalancerId => LoadBalancer)
deriving DecidableEq

instance : Inhabited MemNetworkStore := ⟨⟨0, 0, 0, ∅, ∅, ∅, ∅, ∅, ∅⟩⟩

/-- The byte that stands `shift` bits up in a hash. -/
def hashByte (h : UInt64) (shift : UInt64) : UInt8 := ((h >>> shift) &&& 0xff).toUInt8

def makeMac (network : NetworkId) (idx : UInt32) : Vector UInt8 6 :=
  let h := (utf8 network.raw).foldl (fun (h : UInt64) b => (h ^^^ b.toUInt64) * 0x100000001b3) 0xcbf29ce484222325
  let h := (h ^^^ idx.toUInt64) * 0x100000001b3
  #v[0x02, hashByte h 32, hashByte h 24, hashByte h 16, hashByte h 8, hashByte h 0]

namespace MemNetworkStore

def validateName (name : String) : CelResult Unit :=
  if name.isEmpty then .error (.invalid "name: empty")
  else if name.utf8ByteSize > 64 then .error (.invalid "name: too long")
  else .ok ()

def createNetwork (s : MemNetworkStore) (owner name : String) (cidr : Cidr4) :
    CelResult VirtualNetwork × MemNetworkStore :=
  match validateName name with
  | .error e => (.error e, s)
  | .ok () =>
    let nextNet := satAdd64 s.nextNet 1
    let id : NetworkId := ⟨owner ++ "/n" ++ toString nextNet.toNat⟩
    let net : VirtualNetwork := { id, owner, name, cidr }
    (.ok net, { s with nextNet, networks := s.networks.insert id net, nextNic := s.nextNic.insert id 0,
                       usedIps := s.usedIps.insert id ∅ })

/-- Load balancers on the network go with it. -/
def deleteNetwork (s : MemNetworkStore) (id : NetworkId) : CelResult Unit × MemNetworkStore :=
  if (s.usedIps.lookup id).any (fun used => !used.entries.isEmpty) then
    (.error (.invalid "network: NICs still attached"), s)
  else
    let dropLbs := (s.lbs.entries.filter (fun e => e.2.networkId == id)).map (·.1)
    (.ok (), { s with networks := s.networks.erase id, nextNic := s.nextNic.erase id, usedIps := s.usedIps.erase id,
                      lbs := dropLbs.foldl (fun m k => m.erase k) s.lbs })

def listNetworks (s : MemNetworkStore) : List VirtualNetwork := Assoc.sorted (·.raw ≤ ·.raw) s.networks

def getNetwork (s : MemNetworkStore) (id : NetworkId) : Option VirtualNetwork := s.networks.lookup id

/-- The first unused host address from the `n`-th on; `left` more are tried. -/
def firstFree (cidr : Cidr4) (used : AList (fun _ : Ipv4Addr => NicId)) : Nat → UInt32 → Option Ipv4Addr
  | 0, _ => none
  | left + 1, n =>
    match cidr.nthHost n with
    | none => firstFree cidr used left (n + 1)
    | some addr => if (used.lookup addr).isNone then some addr else firstFree cidr used left (n + 1)

/-- The address of a new NIC: the one asked for, if it is free, or else the first free one. -/
def chooseIp (cidr : Cidr4) (used : AList (fun _ : Ipv4Addr => NicId)) : Option Ipv4Addr → CelResult Ipv4Addr
  | some req =>
    if !cidr.contains req then .error (.invalid "attach_nic: ip outside network")
    else if (used.lookup req).isSome then .error (.invalid "attach_nic: ip already in use")
    else .ok req
  | none =>
    match firstFree cidr used cidr.capacity.toNat 1 with
    | none => .error (.exhausted "attach_nic: CIDR exhausted")
    | some addr => .ok addr

def attachNic (s : MemNetworkStore) (networkId : NetworkId) (vmId : UInt32) (ip : Option Ipv4Addr) :
    CelResult Nic × MemNetworkStore :=
  match s.networks.lookup networkId with
  | none => (.error (.invalid "attach_nic: unknown network"), s)
  | some net =>
    let used := (s.usedIps.lookup networkId).getD ∅
    if used.entries.length ≥ maxNicsPerNetwork then (.error (.exhausted "attach_nic: per-network NIC cap"), s)
    else match chooseIp net.cidr used ip with
      | .error e => (.error e, s)
      | .ok chosen =>
        let counter := satAdd32 ((s.nextNic.lookup networkId).getD 0) 1
        let nicId : NicId := ⟨networkId.raw ++ "/nic" ++ toString counter.toNat⟩
        let nic : Nic := { id := nicId, networkId, vmId, ip := chosen, mac := makeMac networkId counter }
        (.ok nic, { s with nextNic := s.nextNic.insert networkId counter,
                           usedIps := s.usedIps.insert networkId (used.insert chosen nicId),
                           nics := s.nics.insert nicId nic })

def detachNic (s : MemNetworkStore) (id : NicId) : CelResult Unit × MemNetworkStore :=
  match s.nics.lookup id with
  | none => (.ok (), s)
  | some nic =>
    let usedIps := match s.usedIps.lookup nic.networkId with
      | none => s.usedIps
      | some used => s.usedIps.insert nic.networkId (used.erase nic.ip)
    (.ok (), { s with nics := s.nics.erase id, usedIps })

def listNics (s : MemNetworkStore) : List Nic := Assoc.sorted (·.raw ≤ ·.raw) s.nics

def createSecurityGroup (s : MemNetworkStore) (owner name : String) (rules : List SecurityRule) :
    CelResult SecurityGroup × MemNetworkStore :=
  match validateName name with
  | .error e => (.error e, s)
  | .ok () =>
    if rules.length > maxRulesPerGroup then (.error (.invalid "sg: too many rules"), s)
    else if rules.any (fun r => r.portMin > r.portMax) then (.error (.invalid "sg: port_min > port_max"), s)
    else
      let nextSg := satAdd64 s.nextSg 1
      let sg : SecurityGroup := { id := ⟨owner ++ "/sg" ++ toString nextSg.toNat⟩, owner, name, rules }
      (.ok sg, { s with nextSg, sgs := s.sgs.insert sg.id sg })

def deleteSecurityGroup (s : MemNetworkStore) (id : SecurityGroupId) : CelResult Unit × MemNetworkStore :=
  (.ok (), { s with sgs := s.sgs.erase id })

def listSecurityGroups (s : MemNetworkStore) : List SecurityGroup := Assoc.sorted (·.raw ≤ ·.raw) s.sgs

def createLoadBalancer (s : MemNetworkStore) (owner name : String) (networkId : NetworkId) (vip : Ipv4Addr)
    (frontendPort : UInt16) (algo : LbAlgo) (backends : List LbBackend) : CelResult LoadBalancer × MemNetworkStore :=
  match validateName name with
  | .error e => (.error e, s)
  | .ok () =>
    if backends.length > maxBackendsPerLb then (.error (.invalid "lb: too many backends"), s)
    else match s.networks.lookup networkId with
      | none => (.error (.invalid "lb: unknown network"), s)
      | some net =>
        if !net.cidr.contains vip then (.error (.invalid "lb: vip outside network"), s)
        else if backends.any (fun b => !net.cidr.contains b.ip) then
          (.error (.invalid "lb: backend ip outside network"), s)
        else
          let nextLb := satAdd64 s.nextLb 1
          let lb : LoadBalancer :=
            { id := ⟨owner ++ "/lb" ++ toString nextLb.toNat⟩, owner, name, networkId, vip, frontendPort, algo, backends }
          (.ok lb, { s with nextLb, lbs := s.lbs.insert lb.id lb })

def deleteLoadBalancer (s : MemNetworkStore) (id : LoadBalancerId) : CelResult Unit × MemNetworkStore :=
  (.ok (), { s with lbs := s.lbs.erase id })

def listLoadBalancers (s : MemNetworkStore) : List LoadBalancer := Assoc.sorted (·.raw ≤ ·.raw) s.lbs

end MemNetworkStore

end Celium
