import Celium.NetworkCoherent
/-!
# NetworkReserved — the addresses no NIC should have

A network's first and last address, and the virtual address of each of its load balancers.  The scan of `attach_nic` goes
over host addresses only and so passes the ends by, but it does not look at the load balancers; an address that is asked
for is checked against the block and the other NICs alone, and a load balancer's against the block alone.
-/
namespace Celium

open Fixed Runs

namespace MemNetworkStore

variable (s : MemNetworkStore)

/-- No NIC has an end of its network's block, or the address of a load balancer on its network. -/
structure Reserved : Prop where
  ends : ∀ id nic v, s.nics.lookup id = some nic → s.networks.lookup nic.networkId = some v →
    nic.ip ≠ v.cidr.base ∧ nic.ip ≠ v.cidr.broadcast
  vips : ∀ id nic id' lb, s.nics.lookup id = some nic → s.lbs.lookup id' = some lb → lb.networkId = nic.networkId →
    nic.ip ≠ lb.vip

/-- No load balancer on the network has the address. -/
def NoVip (net : NetworkId) (ip : Ipv4Addr) : Prop :=
  ∀ id lb, s.lbs.lookup id = some lb → lb.networkId = net → ip ≠ lb.vip

/-- The call puts no NIC on a reserved address, and reserves none that a NIC has. -/
def KeepsReserved : NetworkOp → Prop
  | .createNetwork owner name cidr => validateName name = .ok () →
    ∀ id nic, s.nics.lookup id = some nic → nic.networkId = s.newNetworkId owner →
      nic.ip ≠ cidr.cidr.base ∧ nic.ip ≠ cidr.cidr.broadcast
  | .attachNic net _ (some ip) => ∀ v, s.networks.lookup net = some v →
    (s.used net).entries.length < maxNicsPerNetwork → v.cidr.contains ip = true → (s.used net).lookup ip = none →
      ip ≠ v.cidr.base ∧ ip ≠ v.cidr.broadcast ∧ s.NoVip net ip
  | .attachNic net _ none => ∀ v, s.networks.lookup net = some v →
    (s.used net).entries.length < maxNicsPerNetwork → ∀ ip, v.cidr.LowestFree (s.used net) ip → s.NoVip net ip
  | .createLoadBalancer _ name net vip _ _ backends => s.LbOk name net vip backends →
    ∀ id nic, s.nics.lookup id = some nic → nic.networkId = net → nic.ip ≠ vip
  | _ => True

/-- Every block comes from `Cidr4::parse`. -/
def Parsed : Prop := ∀ net v, s.networks.lookup net = some v → ∃ text, Cidr4.parse text = .ok v.cidr

variable {s}

theorem Parsed.of_subset {t : MemNetworkStore} (h : s.Parsed)
    (hsub : ∀ net v, t.networks.lookup net = some v → s.networks.lookup net = some v) : t.Parsed :=
  fun net v hv => h net v (hsub net v hv)

theorem networks_apply (s : MemNetworkStore) (op : NetworkOp) :
    (s.apply op).2.networks = s.networks ∨ (∃ owner name cidr, op = .createNetwork owner name cidr ∧
      (s.apply op).2 = s.withNetwork owner name cidr.cidr) ∨ ∃ net, (s.apply op).2 = s.withoutNetwork net := by
  cases op with
  | createNetwork owner name cidr =>
    rcases s.createNetwork_cases owner name cidr.cidr with ⟨⟨e, he⟩, -⟩ | ⟨-, hok⟩
    · exact .inl (by simp only [apply, answer, he])
    · exact .inr (.inl ⟨owner, name, cidr, rfl, by simp only [apply, answer, hok]⟩)
  | deleteNetwork id =>
    rcases s.deleteNetwork_cases id with ⟨⟨e, he⟩, -⟩ | ⟨-, hok⟩
    · exact .inl (by simp only [apply, answer, he])
    · exact .inr (.inr ⟨id, by simp only [apply, answer, hok]⟩)
  | attachNic net vmId ip =>
    rcases s.attachNic_cases net vmId ip with ⟨⟨e, he⟩, -⟩ | ⟨v, addr, -, -, -, hok⟩
    · exact .inl (by simp only [apply, answer, he])
    · exact .inl (by simp only [apply, answer, hok, withNic])
  | detachNic id =>
    refine .inl ?_
    simp only [apply, answer, detachNic]
    split <;> rfl
  | createSecurityGroup owner name rules =>
    rcases s.createSecurityGroup_cases owner name rules with ⟨⟨e, he⟩, -⟩ | ⟨sg, -, hok⟩
    · exact .inl (by simp only [apply, answer, he])
    · exact .inl (by simp only [apply, answer, hok])
  | createLoadBalancer owner name net vip frontendPort algo backends =>
    rcases s.createLoadBalancer_cases owner name net vip frontendPort algo backends with
      ⟨⟨e, he⟩, -⟩ | ⟨lb, -, -, -, -, hok⟩
    · exact .inl (by simp only [apply, answer, he])
    · exact .inl (by simp only [apply, answer, hok])
  | listNetworks | getNetwork id | listNics | deleteSecurityGroup id | listSecurityGroups | deleteLoadBalancer id
  | listLoadBalancers => exact .inl rfl

theorem parsed_apply (s : MemNetworkStore) (op : NetworkOp) (h : s.Parsed) : (s.apply op).2.Parsed := by
  rcases s.networks_apply op with hsame | ⟨owner, name, cidr, -, hnew⟩ | ⟨net, hdel⟩
  · exact h.of_subset (fun net v hv => hsame ▸ hv)
  · intro net v hv
    have hv' : (s.networks.insert (s.newNetworkId owner) ⟨s.newNetworkId owner, owner, name, cidr.cidr⟩).lookup net =
        some v := by rwa [hnew] at hv
    rw [Assoc.lookup_insert_ite] at hv'
    split at hv'
    · obtain rfl := Option.some.inj hv'
      exact cidr.parsed
    · exact h net v hv'
  · refine h.of_subset (fun net' v hv => ?_)
    have hv' : (s.networks.erase net).lookup net' = some v := by rwa [hdel] at hv
    rw [Assoc.lookup_erase_ite] at hv'
    split at hv'
    · cases hv'
    · exact hv'

/-- A store with fewer NICs, networks and load balancers. -/
theorem Reserved.of_subset {t : MemNetworkStore} (h : s.Reserved)
    (hnics : ∀ id nic, t.nics.lookup id = some nic → s.nics.lookup id = some nic)
    (hnets : ∀ net v, t.networks.lookup net = some v → s.networks.lookup net = some v)
    (hlbs : ∀ id lb, t.lbs.lookup id = some lb → s.lbs.lookup id = some lb) : t.Reserved :=
  ⟨fun id nic v hnic hv => h.ends id nic v (hnics id nic hnic) (hnets _ v hv),
    fun id nic id' lb hnic hlb => h.vips id nic id' lb (hnics id nic hnic) (hlbs id' lb hlb)⟩

theorem withNetwork_reserved (h : s.Reserved) {owner name : String} {cidr : ParsedCidr}
    (hname : validateName name = .ok ()) :
    (s.withNetwork owner name cidr.cidr).Reserved ↔ s.KeepsReserved (.createNetwork owner name cidr) := by
  have hlookup : ∀ net, (s.withNetwork owner name cidr.cidr).networks.lookup net =
      if net = s.newNetworkId owner then some ⟨s.newNetworkId owner, owner, name, cidr.cidr⟩
      else s.networks.lookup net := fun net => Assoc.lookup_insert_ite _ _ _ _
  constructor
  · intro h' _ id nic hnic hnet
    exact h'.ends id nic _ hnic (by rw [hlookup, if_pos hnet])
  · intro hkeep
    refine ⟨fun id nic v hnic hv => ?_, h.vips⟩
    rw [hlookup] at hv
    split at hv
    · rename_i hnet
      obtain rfl := Option.some.inj hv
      exact hkeep hname id nic hnic hnet
    · exact h.ends id nic v hnic hv

theorem withNic_reserved (h : s.Reserved) {net : NetworkId} {v : VirtualNetwork} (hv : s.networks.lookup net = some v)
    (vmId : UInt32) (ip : Ipv4Addr) :
    (s.withNic net vmId ip).Reserved ↔ ip ≠ v.cidr.base ∧ ip ≠ v.cidr.broadcast ∧ s.NoVip net ip := by
  have hlookup : ∀ id, (s.withNic net vmId ip).nics.lookup id =
      if id = nicId net (satAdd32 (s.nicCounter net) 1) then some ⟨nicId net (satAdd32 (s.nicCounter net) 1), net, vmId, ip,
        makeMac net (satAdd32 (s.nicCounter net) 1)⟩ else s.nics.lookup id := fun id => Assoc.lookup_insert_ite _ _ _ _
  constructor
  · intro h'
    have hnew := hlookup (nicId net (satAdd32 (s.nicCounter net) 1))
    rw [if_pos rfl] at hnew
    obtain ⟨hbase, hbroadcast⟩ := h'.ends _ _ v hnew hv
    exact ⟨hbase, hbroadcast, fun id lb hlb hnet => h'.vips _ _ id lb hnew hlb hnet⟩
  · rintro ⟨hbase, hbroadcast, hvip⟩
    constructor
    · intro id nic v' hnic hv'
      rw [hlookup] at hnic
      split at hnic
      · obtain rfl := Option.some.inj hnic
        obtain rfl := Option.some.inj (hv.symm.trans hv')
        exact ⟨hbase, hbroadcast⟩
      · exact h.ends id nic v' hnic hv'
    · intro id nic id' lb hnic hlb hnet
      rw [hlookup] at hnic
      split at hnic
      · obtain rfl := Option.some.inj hnic
        exact hvip id' lb hlb hnet
      · exact h.vips id nic id' lb hnic hlb hnet

/-- The addresses an `attach_nic` can give are those its condition speaks of. -/
theorem keepsReserved_attachNic (hp : s.Parsed) {net : NetworkId} {vmId : UInt32} {req : Option Ipv4Addr} :
    s.KeepsReserved (.attachNic net vmId req) ↔ ∀ v, s.networks.lookup net = some v →
      (s.used net).entries.length < maxNicsPerNetwork → ∀ ip, chooseIp v.cidr (s.used net) req = .ok ip →
        ip ≠ v.cidr.base ∧ ip ≠ v.cidr.broadcast ∧ s.NoVip net ip := by
  simp only [chooseIp_ok]
  cases req with
  | some ip =>
    refine forall₃_congr (fun v hv hroom => ?_)
    constructor
    · rintro hkeep _ ⟨hfree, ⟨⟨⟩, hin⟩ | ⟨⟨⟩, -⟩⟩
      exact hkeep hin hfree
    · exact fun hall hin hfree => hall ip ⟨hfree, .inl ⟨rfl, hin⟩⟩
  | none =>
    refine forall₃_congr (fun v hv hroom => ?_)
    constructor
    · rintro hkeep ip ⟨-, ⟨⟨⟩, -⟩ | ⟨-, hlowest⟩⟩
      have ⟨n, hhost, _⟩ := hlowest
      obtain ⟨hbase, hbroadcast⟩ := Cidr4.nthHost_ne (hp net v hv) hhost
      exact ⟨hbase, hbroadcast, hkeep ip hlowest⟩
    · intro hall ip hlowest
      have hfree : (s.used net).lookup ip = none := hlowest.choose_spec.2.1
      exact (hall ip ⟨hfree, .inr ⟨rfl, hlowest⟩⟩).2.2

/-- **One call** keeps the reserved addresses free exactly if it meets its condition. -/
theorem apply_reserved (hp : s.Parsed) (h : s.Reserved) (op : NetworkOp) :
    (s.apply op).2.Reserved ↔ s.KeepsReserved op := by
  cases op with
  | createNetwork owner name cidr =>
    rcases s.createNetwork_cases owner name cidr.cidr with ⟨⟨e, he⟩, hname⟩ | ⟨hname, hok⟩
    · simp only [apply, answer, he]
      exact iff_of_true h (fun hok => absurd hok hname)
    · simp only [apply, answer, hok]
      exact withNetwork_reserved h hname
  | deleteNetwork id =>
    rcases s.deleteNetwork_cases id with ⟨⟨e, he⟩, -⟩ | ⟨-, hok⟩
    · simp only [apply, answer, he]
      exact iff_of_true h trivial
    · simp only [apply, answer, hok]
      refine iff_of_true (h.of_subset (fun _ _ hnic => hnic) (fun net v hv => ?_) (fun _ _ hlb => (mem_dropLbs.1 hlb).1))
        trivial
      have hv' : (s.networks.erase id).lookup net = some v := hv
      rw [Assoc.lookup_erase_ite] at hv'
      split at hv'
      · cases hv'
      · exact hv'
  | attachNic net vmId req =>
    rw [keepsReserved_attachNic hp]
    rcases s.attachNic_cases net vmId req with ⟨⟨e, he⟩, hno⟩ | ⟨v, ip, hv, hroom, hip, hok⟩
    · simp only [apply, answer, he]
      exact iff_of_true h (fun v hv hroom ip hip => absurd hip (hno v hv hroom ip))
    · simp only [apply, answer, hok]
      rw [withNic_reserved h hv]
      constructor
      · rintro hnew v' hv' - ip' hip'
        obtain rfl := Option.some.inj (hv.symm.trans hv')
        obtain rfl := Except.ok.inj (hip.symm.trans hip')
        exact hnew
      · exact fun hall => hall v hv hroom ip hip
  | detachNic id =>
    simp only [apply, answer, detachNic]
    split
    · exact iff_of_true h trivial
    · refine iff_of_true (h.of_subset (fun id' nic hnic => ?_) (fun _ _ hv => hv) (fun _ _ hlb => hlb)) trivial
      rw [Assoc.lookup_erase_ite] at hnic
      split at hnic
      · cases hnic
      · exact hnic
  | createSecurityGroup owner name rules =>
    rcases s.createSecurityGroup_cases owner name rules with ⟨⟨e, he⟩, -⟩ | ⟨sg, -, hok⟩
    · simp only [apply, answer, he]
      exact iff_of_true h trivial
    · simp only [apply, answer, hok]
      exact iff_of_true ⟨h.ends, h.vips⟩ trivial
  | createLoadBalancer owner name net vip frontendPort algo backends =>
    rcases s.createLoadBalancer_cases owner name net vip frontendPort algo backends with
      ⟨⟨e, he⟩, hno⟩ | ⟨lb, hlbOk, rfl, rfl, rfl, hok⟩
    · simp only [apply, answer, he]
      exact iff_of_true h (fun hlbOk => absurd hlbOk hno)
    · simp only [apply, answer, hok]
      constructor
      · rintro h' - id nic hnic hnet
        exact h'.vips id nic lb.id lb hnic (AList.lookup_insert _) hnet.symm
      · refine fun hkeep => ⟨h.ends, fun id nic id' lb' hnic hlb' hnet => ?_⟩
        rw [Assoc.lookup_insert_ite] at hlb'
        split at hlb'
        · obtain rfl := Option.some.inj hlb'
          exact hkeep hlbOk id nic hnic hnet.symm
        · exact h.vips id nic id' lb' hnic hlb' hnet
  | deleteLoadBalancer id =>
    refine iff_of_true (h.of_subset (fun _ _ hnic => hnic) (fun _ _ hv => hv) (fun id' lb hlb => ?_)) trivial
    have hlb' : (s.lbs.erase id).lookup id' = some lb := hlb
    rw [Assoc.lookup_erase_ite] at hlb'
    split at hlb'
    · cases hlb'
    · exact hlb'
  | deleteSecurityGroup id => exact iff_of_true ⟨h.ends, h.vips⟩ trivial
  | listNetworks | getNetwork id | listNics | listSecurityGroups | listLoadBalancers => exact iff_of_true h trivial

theorem new_reserved : new.Reserved := ⟨fun _ _ _ h => (by cases h), fun _ _ _ _ h => (by cases h)⟩

theorem new_parsed : new.Parsed := fun _ _ h => (by cases h)

end MemNetworkStore

open MemNetworkStore in
/-- **The reserved addresses stay free along a run exactly if every call that places an address keeps them.** -/
theorem network_reserved_iff (ops : List NetworkOp) :
    (∀ s ∈ states MemNetworkStore.apply .new ops, s.Reserved) ↔ Along MemNetworkStore.apply KeepsReserved .new ops :=
  states_iff_along (I := Parsed) parsed_apply (fun _ op hp h => apply_reserved hp h op) new_parsed new_reserved ops

/-- A NIC that asks for the network address, and one that the scan puts on a load balancer's. -/
def takenAddresses : List NetworkOp :=
  [.createNetwork "n1" "net" tenNet, .attachNic ⟨"n1/n1"⟩ 0 (some ⟨0x0a000000⟩),
    .createLoadBalancer "n1" "web" ⟨"n1/n1"⟩ ⟨0x0a000001⟩ 80 .roundRobin [], .attachNic ⟨"n1/n1"⟩ 1 none]

/-- **`attach_nic` gives out the network address where it is asked for, and then a load balancer's by itself.** -/
theorem taken_addresses_not_reserved :
    ((run MemNetworkStore.apply .new takenAddresses).nics.lookup ⟨"n1/n1/nic1"⟩).map (fun nic => (nic.networkId, nic.ip)) =
      some (⟨"n1/n1"⟩, tenNet.cidr.base) ∧
    ((run MemNetworkStore.apply .new takenAddresses).nics.lookup ⟨"n1/n1/nic2"⟩).map (fun nic => (nic.networkId, nic.ip)) =
      some (⟨"n1/n1"⟩, ⟨0x0a000001⟩) ∧
    ((run MemNetworkStore.apply .new takenAddresses).lbs.lookup ⟨"n1/lb1"⟩).map (fun lb => (lb.networkId, lb.vip)) =
      some (⟨"n1/n1"⟩, ⟨0x0a000001⟩) ∧
    ¬ ∀ s ∈ states MemNetworkStore.apply .new takenAddresses, s.Reserved := by
  have hnic : ((run MemNetworkStore.apply .new takenAddresses).nics.lookup ⟨"n1/n1/nic2"⟩).map
      (fun nic => (nic.networkId, nic.ip)) = some (⟨"n1/n1"⟩, ⟨0x0a000001⟩) := by decide +kernel
  have hlb : ((run MemNetworkStore.apply .new takenAddresses).lbs.lookup ⟨"n1/lb1"⟩).map
      (fun lb => (lb.networkId, lb.vip)) = some (⟨"n1/n1"⟩, ⟨0x0a000001⟩) := by decide +kernel
  refine ⟨by decide +kernel, hnic, hlb, fun h => ?_⟩
  obtain ⟨nic, hnic, hnicAt⟩ := Option.map_eq_some_iff.1 hnic
  obtain ⟨lb, hlb, hlbAt⟩ := Option.map_eq_some_iff.1 hlb
  obtain ⟨hnet, hip⟩ := Prod.mk.inj hnicAt
  obtain ⟨hnet', hvip⟩ := Prod.mk.inj hlbAt
  exact (h _ (run_mem_states _ _)).vips _ nic _ lb hnic hlb (hnet'.trans hnet.symm) (hip.trans hvip.symm)

end Celium
