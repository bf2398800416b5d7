import Celium.NetworkIds
/-!
# NetworkCoherent — the two indexes of the NICs, and what hangs on a network

`used_ips` and `nics` say the same of every NIC, every NIC and every load balancer is on a network that is there, with its
addresses inside the block, and a network is deleted exactly if it has no NIC.  That a NIC is told apart from every other
is a matter of the counters; the one call that can upset the indexes is a create that gives out the id of a network with
NICs once more, which takes a counter that is used up: `2 ^ 64` networks of one store.
-/
namespace Celium

open Fixed Runs

namespace MemNetworkStore

variable (s : MemNetworkStore)

/-- What the maps of a store say agrees. -/
structure Coherent : Prop where
  index : ∀ net ip id, ((s.usedIps.lookup net).getD ∅).lookup ip = some id ↔
    ∃ nic, s.nics.lookup id = some nic ∧ nic.networkId = net ∧ nic.ip = ip
  nic : ∀ id nic, s.nics.lookup id = some nic →
    ∃ v, s.networks.lookup nic.networkId = some v ∧ v.cidr.contains nic.ip = true
  loadBalancer : ∀ id lb, s.lbs.lookup id = some lb →
    ∃ v, s.networks.lookup lb.networkId = some v ∧ v.cidr.contains lb.vip = true ∧
      ∀ b ∈ lb.backends, v.cidr.contains b.ip = true
  unique : ∀ id id' nic nic', s.nics.lookup id = some nic → s.nics.lookup id' = some nic' →
    nic.networkId = nic'.networkId → nic.ip = nic'.ip → id = id'
  cap : ∀ net, (s.nics.entries.filter (fun e => e.2.networkId == net)).length ≤ 256
  delete_fails : ∀ net, (∃ e, (s.deleteNetwork net).1 = .error e) ↔
    ∃ id nic, s.nics.lookup id = some nic ∧ nic.networkId = net
  failure : ∀ op e, (s.apply op).1 = .error e → (s.apply op).2 = s

/-- No network is created with the id of one that has NICs, or load balancers with addresses outside the new block. -/
def FreshNetwork : NetworkOp → Prop
  | .createNetwork owner name cidr => validateName name = .ok () →
    (∀ id nic, s.nics.lookup id = some nic → nic.networkId ≠ s.newNetworkId owner) ∧
    ∀ id lb, s.lbs.lookup id = some lb → lb.networkId = s.newNetworkId owner →
      cidr.cidr.contains lb.vip = true ∧ ∀ b ∈ lb.backends, cidr.cidr.contains b.ip = true
  | _ => True

/-- A NIC that is attached has a counter of its own. -/
def CounterLeft : NetworkOp → Prop
  | .attachNic net vmId ip => (∃ nic, (s.attachNic net vmId ip).1 = .ok nic) → (s.nicCounter net).toNat < u32Max
  | _ => True

/-- The first three of them. -/
structure Linked : Prop where
  index : ∀ net ip id, (s.used net).lookup ip = some id ↔
    ∃ nic, s.nics.lookup id = some nic ∧ nic.networkId = net ∧ nic.ip = ip
  nic : ∀ id nic, s.nics.lookup id = some nic →
    ∃ v, s.networks.lookup nic.networkId = some v ∧ v.cidr.contains nic.ip = true
  loadBalancer : ∀ id lb, s.lbs.lookup id = some lb →
    ∃ v, s.networks.lookup lb.networkId = some v ∧ v.cidr.contains lb.vip = true ∧
      ∀ b ∈ lb.backends, v.cidr.contains b.ip = true

/-- The first of these alone. -/
def Indexed : Prop :=
  ∀ net ip id, (s.used net).lookup ip = some id ↔ ∃ nic, s.nics.lookup id = some nic ∧ nic.networkId = net ∧ nic.ip = ip

/-- What the calls rely on besides. -/
structure Counted : Prop where
  parsed : ∀ net v, s.networks.lookup net = some v → ∃ text, Cidr4.parse text = .ok v.cidr
  room : ∀ net, (s.used net).entries.length ≤ maxNicsPerNetwork
  counter : ∀ id nic, s.nics.lookup id = some nic →
    ∃ k, id = nicId nic.networkId k ∧ k.toNat ≤ (s.nicCounter nic.networkId).toNat

variable {s}

/-! ## What follows from the links -/

theorem Indexed.unique (h : s.Indexed) {id id' : NicId} {nic nic' : Nic} (hnic : s.nics.lookup id = some nic)
    (hnic' : s.nics.lookup id' = some nic') (hnet : nic.networkId = nic'.networkId) (hip : nic.ip = nic'.ip) : id = id' := by
  have hused := (h nic.networkId nic.ip id).2 ⟨nic, hnic, rfl, rfl⟩
  have hused' := (h nic.networkId nic.ip id').2 ⟨nic', hnic', hnet.symm, hip.symm⟩
  exact Option.some.inj (hused.symm.trans hused')

theorem Linked.unique (h : s.Linked) {id id' : NicId} {nic nic' : Nic} (hnic : s.nics.lookup id = some nic)
    (hnic' : s.nics.lookup id' = some nic') (hnet : nic.networkId = nic'.networkId) (hip : nic.ip = nic'.ip) : id = id' :=
  Indexed.unique h.index hnic hnic' hnet hip

/-- A network's NICs are as many as its addresses in use, at most. -/
theorem Linked.cap (h : s.Linked) (net : NetworkId) :
    (s.nics.entries.filter (fun e => e.2.networkId == net)).length ≤ (s.used net).entries.length := by
  have hnodup : ((s.nics.entries.filter (fun e => e.2.networkId == net)).map (fun e => e.2.ip)).Nodup := by
    refine List.Nodup.map_on ?_ ((Assoc.nodup_entries s.nics).filter _)
    rintro ⟨id, nic⟩ hmem ⟨id', nic'⟩ hmem' hip
    simp only [List.mem_filter, beq_iff_eq] at hmem hmem'
    have hnic : s.nics.lookup id = some nic := AList.mem_lookup_iff.2 hmem.1
    have hnic' : s.nics.lookup id' = some nic' := AList.mem_lookup_iff.2 hmem'.1
    exact Assoc.eq_of_mem_entries s.nics hmem.1 hmem'.1 (h.unique hnic hnic' (hmem.2.trans hmem'.2.symm) hip)
  have hsub : (s.nics.entries.filter (fun e => e.2.networkId == net)).map (fun e => e.2.ip) ⊆
      (s.used net).entries.map (·.1) := by
    intro ip hip
    obtain ⟨⟨id, nic⟩, hmem, rfl⟩ := List.mem_map.1 hip
    simp only [List.mem_filter, beq_iff_eq] at hmem
    have hused := (h.index net nic.ip id).2 ⟨nic, AList.mem_lookup_iff.2 hmem.1, hmem.2, rfl⟩
    exact List.mem_map.2 ⟨⟨nic.ip, id⟩, AList.mem_lookup_iff.1 hused, rfl⟩
  have hle := (List.subperm_of_subset hnodup hsub).length_le
  simpa using hle

theorem Linked.delete_fails (h : s.Linked) (net : NetworkId) :
    (∃ e, (s.deleteNetwork net).1 = .error e) ↔ ∃ id nic, s.nics.lookup id = some nic ∧ nic.networkId = net := by
  rcases s.deleteNetwork_cases net with ⟨⟨e, he⟩, hne⟩ | ⟨hnil, hok⟩
  · refine iff_of_true ⟨e, by rw [he]⟩ ?_
    obtain ⟨⟨ip, id⟩, hmem⟩ := List.exists_mem_of_ne_nil _ hne
    obtain ⟨nic, hnic, hnet, -⟩ := (h.index net ip id).1 (AList.mem_lookup_iff.2 hmem)
    exact ⟨id, nic, hnic, hnet⟩
  · refine iff_of_false ?_ ?_
    · rintro ⟨e, he⟩
      rw [hok] at he
      cases he
    · rintro ⟨id, nic, hnic, hnet⟩
      have hused := (h.index net nic.ip id).2 ⟨nic, hnic, hnet, rfl⟩
      have hmem := AList.mem_lookup_iff.1 hused
      rw [hnil] at hmem
      cases hmem

theorem Coherent.linked (h : s.Coherent) : s.Linked := ⟨h.index, h.nic, h.loadBalancer⟩

theorem Linked.coherent (h : s.Linked) (hc : s.Counted) : s.Coherent where
  index := h.index
  nic := h.nic
  loadBalancer := h.loadBalancer
  unique := fun _ _ _ _ => h.unique
  cap := fun net => (h.cap net).trans (hc.room net)
  delete_fails := h.delete_fails
  failure := fun _ _ => s.apply_error

/-! ## One call and the index -/

theorem indexed_withNic (h : s.Indexed) {net : NetworkId} {vmId : UInt32} {ip : Ipv4Addr}
    (hfree : (s.used net).lookup ip = none) (hnew : s.nics.lookup (nicId net (satAdd32 (s.nicCounter net) 1)) = none) :
    (s.withNic net vmId ip).Indexed := by
  have hlookup : ∀ id, (s.withNic net vmId ip).nics.lookup id =
      if id = nicId net (satAdd32 (s.nicCounter net) 1) then
        some ⟨nicId net (satAdd32 (s.nicCounter net) 1), net, vmId, ip, makeMac net (satAdd32 (s.nicCounter net) 1)⟩
      else s.nics.lookup id := fun id => Assoc.lookup_insert_ite _ _ _ _
  have hunused : ∀ net' ip', (s.used net').lookup ip' ≠ some (nicId net (satAdd32 (s.nicCounter net) 1)) := by
    intro net' ip' hused
    obtain ⟨nic, hnic, -⟩ := (h _ _ _).1 hused
    rw [hnew] at hnic
    cases hnic
  intro net' ip' id
  rw [used_withNic, hlookup]
  by_cases hid : id = nicId net (satAdd32 (s.nicCounter net) 1)
  · rw [if_pos hid, hid]
    by_cases hnet : net' = net
    · rw [if_pos hnet, Assoc.lookup_insert_ite, hnet]
      by_cases hip : ip' = ip
      · rw [if_pos hip, hip]
        exact iff_of_true rfl ⟨_, rfl, rfl, rfl⟩
      · rw [if_neg hip]
        refine iff_of_false (hunused _ _) ?_
        rintro ⟨nic, ⟨⟩, -, rfl⟩
        exact hip rfl
    · rw [if_neg hnet]
      refine iff_of_false (hunused _ _) ?_
      rintro ⟨nic, ⟨⟩, rfl, -⟩
      exact hnet rfl
  · rw [if_neg hid, ← h net' ip' id]
    by_cases hnet : net' = net
    · rw [if_pos hnet, Assoc.lookup_insert_ite, hnet]
      by_cases hip : ip' = ip
      · rw [if_pos hip, hip, hfree]
        exact iff_of_false (fun heq => hid (Option.some.inj heq).symm) nofun
      · rw [if_neg hip]
    · rw [if_neg hnet]

theorem indexed_detachNic (h : s.Indexed) (id : NicId) : (s.detachNic id).2.Indexed := by
  cases hnic : s.nics.lookup id with
  | none =>
    rw [s.detachNic_absent hnic]
    exact h
  | some nic =>
    intro net ip id'
    rw [s.used_detachNic hnic, s.nics_detachNic hnic, Assoc.lookup_erase_ite]
    by_cases hid : id' = id
    · rw [if_pos hid, hid]
      have hgone : ¬ ∃ nic : Nic, none = some nic ∧ nic.networkId = net ∧ nic.ip = ip := by
        rintro ⟨_, hnone, -⟩
        cases hnone
      refine iff_of_false ?_ hgone
      split
      · rw [Assoc.lookup_erase_ite]
        split
        · intro hused
          cases hused
        · rename_i hip
          intro hused
          obtain ⟨nic', hnic', -, rfl⟩ := (h _ _ _).1 hused
          exact hip (by rw [Option.some.inj (hnic.symm.trans hnic')])
      · rename_i hnet
        intro hused
        obtain ⟨nic', hnic', rfl, -⟩ := (h _ _ _).1 hused
        exact hnet (by rw [Option.some.inj (hnic.symm.trans hnic')])
    · rw [if_neg hid, ← h net ip id']
      split
      · rename_i hnet
        rw [Assoc.lookup_erase_ite]
        split
        · rename_i hip
          refine iff_of_false (fun hnone => by cases hnone) fun hused => ?_
          obtain ⟨nic', hnic', hnet', hip'⟩ := (h _ _ _).1 hused
          exact hid (h.unique hnic' hnic (hnet'.trans hnet) (hip'.trans hip))
        · rfl
      · rfl

theorem indexed_withNetwork (h : s.Indexed) {owner name : String} {cidr : Cidr4}
    (hnics : ∀ id nic, s.nics.lookup id = some nic → nic.networkId ≠ s.newNetworkId owner) :
    (s.withNetwork owner name cidr).Indexed := by
  intro net ip id
  rw [used_withNetwork]
  split
  · rename_i heq
    refine iff_of_false nofun ?_
    rintro ⟨nic, hnic, hnet, -⟩
    exact hnics id nic hnic (hnet.trans heq)
  · exact h net ip id

/-- A network that is deleted has no NIC. -/
theorem Indexed.no_nic (h : s.Indexed) {net : NetworkId} (hnil : (s.used net).entries = []) {id : NicId} {nic : Nic}
    (hnic : s.nics.lookup id = some nic) : nic.networkId ≠ net := by
  rintro rfl
  have hmem := AList.mem_lookup_iff.1 ((h nic.networkId nic.ip id).2 ⟨nic, hnic, rfl, rfl⟩)
  rw [hnil] at hmem
  cases hmem

theorem indexed_withoutNetwork (h : s.Indexed) {net : NetworkId} (hnil : (s.used net).entries = []) :
    (s.withoutNetwork net).Indexed := by
  intro net' ip id
  rw [used_withoutNetwork]
  split
  · rename_i heq
    refine iff_of_false nofun ?_
    rintro ⟨nic, hnic, hnet, -⟩
    exact h.no_nic hnil hnic (hnet.trans heq)
  · exact h net' ip id

/-! ## One call -/

/-- A NIC's id is not that of the next one. -/
theorem Counted.fresh (hc : s.Counted) {net : NetworkId} (hroom : (s.nicCounter net).toNat < u32Max) {id : NicId} {nic : Nic}
    (hnic : s.nics.lookup id = some nic) : id ≠ nicId net (satAdd32 (s.nicCounter net) 1) := by
  obtain ⟨k, rfl, hle⟩ := hc.counter id nic hnic
  intro heq
  obtain ⟨rfl, hk⟩ := nicId_inj heq
  rw [hk, toNat_satAdd32] at hle
  simp at hle
  omega

theorem withNic_linked (h : s.Linked) (hc : s.Counted) {net : NetworkId} (vmId : UInt32) {req : Option Ipv4Addr}
    {ip : Ipv4Addr} {v : VirtualNetwork} (hv : s.networks.lookup net = some v)
    (hchoose : chooseIp v.cidr (s.used net) req = .ok ip) (hroom : (s.nicCounter net).toNat < u32Max) :
    (s.withNic net vmId ip).Linked := by
  obtain ⟨hfree, hreq⟩ := chooseIp_ok.1 hchoose
  have hin : v.cidr.contains ip = true := by
    rcases hreq with ⟨-, hin⟩ | ⟨-, n, hn, -⟩
    · exact hin
    · exact Cidr4.contains_nthHost (hc.parsed net v hv) hn
  have hlookup : ∀ id, (s.withNic net vmId ip).nics.lookup id =
      if id = nicId net (satAdd32 (s.nicCounter net) 1) then
        some ⟨nicId net (satAdd32 (s.nicCounter net) 1), net, vmId, ip, makeMac net (satAdd32 (s.nicCounter net) 1)⟩
      else s.nics.lookup id := fun id => Assoc.lookup_insert_ite _ _ _ _
  constructor
  · refine indexed_withNic h.index hfree ?_
    rw [Option.eq_none_iff_forall_ne_some]
    intro nic hnic
    exact hc.fresh hroom hnic rfl
  · intro id nic hnic
    rw [hlookup] at hnic
    split at hnic
    · obtain rfl := Option.some.inj hnic
      exact ⟨v, hv, hin⟩
    · exact h.nic id nic hnic
  · exact h.loadBalancer

theorem withNic_counted (hc : s.Counted) {net : NetworkId} (vmId : UInt32) (ip : Ipv4Addr)
    (hcap : (s.used net).entries.length < maxNicsPerNetwork) : (s.withNic net vmId ip).Counted := by
  have hcounter : ∀ net', (s.withNic net vmId ip).nicCounter net' =
      if net' = net then satAdd32 (s.nicCounter net) 1 else s.nicCounter net' := by
    intro net'
    simp only [nicCounter, withNic, Assoc.lookup_insert_ite]
    split
    · rfl
    · rfl
  constructor
  · exact hc.parsed
  · intro net'
    rw [used_withNic]
    split
    · have hlen := Assoc.length_insert_le (s.used net) ip (nicId net (satAdd32 (s.nicCounter net) 1))
      omega
    · exact hc.room net'
  · intro id nic hnic
    rw [hcounter]
    have hlookup : s.nics.lookup id = some nic ∨ id = nicId net (satAdd32 (s.nicCounter net) 1) ∧ nic.networkId = net := by
      have hnic' : (s.nics.insert (nicId net (satAdd32 (s.nicCounter net) 1)) _).lookup id = some nic := hnic
      rw [Assoc.lookup_insert_ite] at hnic'
      split at hnic'
      · rename_i heq
        obtain rfl := Option.some.inj hnic'
        exact .inr ⟨heq, rfl⟩
      · exact .inl hnic'
    rcases hlookup with hold | ⟨rfl, hnet⟩
    · obtain ⟨k, hid, hle⟩ := hc.counter id nic hold
      refine ⟨k, hid, ?_⟩
      split
      · rename_i heq
        rw [heq] at hle
        have hmax := le_u32Max k
        rw [toNat_satAdd32]
        omega
      · exact hle
    · refine ⟨_, by rw [hnet], ?_⟩
      rw [if_pos hnet]

theorem detachNic_linked (h : s.Linked) (id : NicId) : (s.detachNic id).2.Linked := by
  cases hnic : s.nics.lookup id with
  | none =>
    rw [s.detachNic_absent hnic]
    exact h
  | some nic =>
    obtain ⟨hnetworks, hlbs, -⟩ := s.detachNic_frame id
    constructor
    · exact indexed_detachNic h.index id
    · intro id' nic' hnic'
      rw [s.nics_detachNic hnic, Assoc.lookup_erase_ite] at hnic'
      split at hnic'
      · cases hnic'
      · rw [hnetworks]
        exact h.nic id' nic' hnic'
    · rw [hnetworks, hlbs]
      exact h.loadBalancer

theorem detachNic_counted (hc : s.Counted) (id : NicId) : (s.detachNic id).2.Counted := by
  cases hnic : s.nics.lookup id with
  | none =>
    rw [s.detachNic_absent hnic]
    exact hc
  | some nic =>
    obtain ⟨hnetworks, -, hcounters⟩ := s.detachNic_frame id
    constructor
    · rw [hnetworks]
      exact hc.parsed
    · intro net
      rw [s.used_detachNic hnic]
      split
      · exact (Assoc.length_erase_le _ _).trans (hc.room net)
      · exact hc.room net
    · intro id' nic' hnic'
      rw [s.nics_detachNic hnic, Assoc.lookup_erase_ite] at hnic'
      rw [nicCounter, hcounters]
      split at hnic'
      · cases hnic'
      · exact hc.counter id' nic' hnic'

theorem withNetwork_linked (h : s.Linked) {owner name : String} {cidr : ParsedCidr} (hname : validateName name = .ok ()) :
    (s.withNetwork owner name cidr.cidr).Linked ↔ s.FreshNetwork (.createNetwork owner name cidr) := by
  have hlookup : ∀ net, (s.withNetwork owner name cidr.cidr).networks.lookup net =
      if net = s.newNetworkId owner then some ⟨s.newNetworkId owner, owner, name, cidr.cidr⟩
      else s.networks.lookup net := fun net => Assoc.lookup_insert_ite _ _ _ _
  constructor
  · intro h' _
    constructor
    · intro id nic hnic hnet
      have hused := (h'.index nic.networkId nic.ip id).2 ⟨nic, hnic, rfl, rfl⟩
      rw [used_withNetwork, if_pos hnet] at hused
      cases hused
    · intro id lb hlb hnet
      obtain ⟨v, hv, hin⟩ := h'.loadBalancer id lb hlb
      rw [hlookup, if_pos hnet] at hv
      obtain rfl := Option.some.inj hv
      exact hin
  · intro hfresh
    obtain ⟨hnics, hlbs⟩ := hfresh hname
    constructor
    · exact indexed_withNetwork h.index hnics
    · intro id nic hnic
      rw [hlookup, if_neg (hnics id nic hnic)]
      exact h.nic id nic hnic
    · intro id lb hlb
      rw [hlookup]
      split
      · rename_i heq
        exact ⟨_, rfl, hlbs id lb hlb heq⟩
      · exact h.loadBalancer id lb hlb

theorem withNetwork_counted (hc : s.Counted) {owner name : String} {cidr : ParsedCidr}
    (hname : validateName name = .ok ()) (hfresh : s.FreshNetwork (.createNetwork owner name cidr)) :
    (s.withNetwork owner name cidr.cidr).Counted := by
  obtain ⟨hnics, -⟩ := hfresh hname
  constructor
  · intro net v hv
    have hv' : (s.networks.insert (s.newNetworkId owner) ⟨s.newNetworkId owner, owner, name, cidr.cidr⟩).lookup net =
        some v := hv
    rw [Assoc.lookup_insert_ite] at hv'
    split at hv'
    · obtain rfl := Option.some.inj hv'
      exact cidr.parsed
    · exact hc.parsed net v hv'
  · intro net
    rw [used_withNetwork]
    split
    · exact Nat.zero_le _
    · exact hc.room net
  · intro id nic hnic
    have hcounter : (s.withNetwork owner name cidr.cidr).nicCounter nic.networkId = s.nicCounter nic.networkId := by
      have hne : nic.networkId ≠ s.newNetworkId owner := hnics id nic hnic
      simp only [nicCounter, withNetwork, Assoc.lookup_insert_ite, if_neg hne]
    rw [hcounter]
    exact hc.counter id nic hnic

theorem withoutNetwork_linked (h : s.Linked) {net : NetworkId} (hnil : (s.used net).entries = []) :
    (s.withoutNetwork net).Linked := by
  have hlookup : ∀ net', (s.withoutNetwork net).networks.lookup net' =
      if net' = net then none else s.networks.lookup net' := fun net' => Assoc.lookup_erase_ite _ _ _
  constructor
  · exact indexed_withoutNetwork h.index hnil
  · intro id nic hnic
    rw [hlookup, if_neg (Indexed.no_nic h.index hnil hnic)]
    exact h.nic id nic hnic
  · intro id lb hlb
    obtain ⟨hlb, hne⟩ := mem_dropLbs.1 hlb
    rw [hlookup, if_neg hne]
    exact h.loadBalancer id lb hlb

theorem withoutNetwork_counted (h : s.Linked) (hc : s.Counted) {net : NetworkId} (hnil : (s.used net).entries = []) :
    (s.withoutNetwork net).Counted := by
  constructor
  · intro net' v hv
    have hv' : (s.networks.erase net).lookup net' = some v := hv
    rw [Assoc.lookup_erase_ite] at hv'
    split at hv'
    · cases hv'
    · exact hc.parsed net' v hv'
  · intro net'
    rw [used_withoutNetwork]
    split
    · exact Nat.zero_le _
    · exact hc.room net'
  · intro id nic hnic
    have hcounter : (s.withoutNetwork net).nicCounter nic.networkId = s.nicCounter nic.networkId := by
      simp only [nicCounter, withoutNetwork, Assoc.lookup_erase_ite, if_neg (Indexed.no_nic h.index hnil hnic)]
    rw [hcounter]
    exact hc.counter id nic hnic

/-- **One call.**  It keeps the links exactly if it does not create a network over another one. -/
theorem apply_linked (h : s.Linked) (hc : s.Counted) {op : NetworkOp} (hleft : s.CounterLeft op) :
    ((s.apply op).2.Linked ↔ s.FreshNetwork op) ∧ (s.FreshNetwork op → (s.apply op).2.Counted) := by
  have hsame : ∀ {t : MemNetworkStore}, t = s → s.FreshNetwork op →
      (t.Linked ↔ s.FreshNetwork op) ∧ (s.FreshNetwork op → t.Counted) := by
    rintro t rfl hfresh
    exact ⟨iff_of_true h hfresh, fun _ => hc⟩
  cases op with
  | createNetwork owner name cidr =>
    rcases s.createNetwork_cases owner name cidr.cidr with ⟨⟨e, he⟩, hname⟩ | ⟨hname, hok⟩
    · refine hsame ?_ (fun hok => absurd hok hname)
      simp only [apply, answer, he]
    · simp only [apply, answer, hok]
      exact ⟨withNetwork_linked h hname, withNetwork_counted hc hname⟩
  | deleteNetwork id =>
    rcases s.deleteNetwork_cases id with ⟨⟨e, he⟩, -⟩ | ⟨hnil, hok⟩
    · refine hsame ?_ trivial
      simp only [apply, answer, he]
    · simp only [apply, answer, hok]
      exact ⟨iff_of_true (withoutNetwork_linked h hnil) trivial, fun _ => withoutNetwork_counted h hc hnil⟩
  | attachNic net vmId ip =>
    rcases s.attachNic_cases net vmId ip with ⟨⟨e, he⟩, -⟩ | ⟨v, addr, hv, hcap, hchoose, hok⟩
    · refine hsame ?_ trivial
      simp only [apply, answer, he]
    · have hroom := hleft ⟨_, congrArg Prod.fst hok⟩
      simp only [apply, answer, hok]
      exact ⟨iff_of_true (withNic_linked h hc vmId hv hchoose hroom) trivial, fun _ => withNic_counted hc vmId addr hcap⟩
  | detachNic id => exact ⟨iff_of_true (detachNic_linked h id) trivial, fun _ => detachNic_counted hc id⟩
  | createSecurityGroup owner name rules =>
    rcases s.createSecurityGroup_cases owner name rules with ⟨⟨e, he⟩, -⟩ | ⟨sg, -, hok⟩
    · refine hsame ?_ trivial
      simp only [apply, answer, he]
    · simp only [apply, answer, hok]
      exact ⟨iff_of_true ⟨h.index, h.nic, h.loadBalancer⟩ trivial, fun _ => ⟨hc.parsed, hc.room, hc.counter⟩⟩
  | deleteSecurityGroup id =>
    exact ⟨iff_of_true ⟨h.index, h.nic, h.loadBalancer⟩ trivial, fun _ => ⟨hc.parsed, hc.room, hc.counter⟩⟩
  | createLoadBalancer owner name net vip frontendPort algo backends =>
    rcases s.createLoadBalancer_cases owner name net vip frontendPort algo backends with
      ⟨⟨e, he⟩, -⟩ | ⟨lb, ⟨-, -, v, hv, hvip, hbackends⟩, rfl, rfl, rfl, hok⟩
    · refine hsame ?_ trivial
      simp only [apply, answer, he]
    · simp only [apply, answer, hok]
      refine ⟨iff_of_true ⟨h.index, h.nic, fun id lb' hlb' => ?_⟩ trivial, fun _ => ⟨hc.parsed, hc.room, hc.counter⟩⟩
      rw [Assoc.lookup_insert_ite] at hlb'
      split at hlb'
      · obtain rfl := Option.some.inj hlb'
        exact ⟨v, hv, hvip, hbackends⟩
      · exact h.loadBalancer id lb' hlb'
  | deleteLoadBalancer id =>
    refine ⟨iff_of_true ⟨h.index, h.nic, fun id' lb hlb => ?_⟩ trivial, fun _ => ⟨hc.parsed, hc.room, hc.counter⟩⟩
    have hlb' : (s.lbs.erase id).lookup id' = some lb := hlb
    rw [Assoc.lookup_erase_ite] at hlb'
    split at hlb'
    · cases hlb'
    · exact h.loadBalancer id' lb hlb'
  | listNetworks | getNetwork id | listNics | listSecurityGroups | listLoadBalancers => exact hsame rfl trivial

/-! ## Whole runs -/

/-- The answer to an `attach_nic` on the network that went through. -/
def isAttached (net : NetworkId) : CelResult NetworkReply → Bool
  | .ok (.nic nic) => nic.networkId == net
  | _ => false

/-- A network's counter grows by its NICs and is set back by a create or a delete only. -/
theorem nicCounter_le (s : MemNetworkStore) (op : NetworkOp) (net : NetworkId) :
    ((s.apply op).2.nicCounter net).toNat ≤ (s.nicCounter net).toNat + if isAttached net (s.apply op).1 then 1 else 0 := by
  have hsame : ∀ {t : MemNetworkStore} {n : Nat}, t.nextNic = s.nextNic →
      (t.nicCounter net).toNat ≤ (s.nicCounter net).toNat + n := by
    intro t n ht
    rw [nicCounter, ht]
    exact Nat.le_add_right _ _
  cases op with
  | createNetwork owner name cidr =>
    rcases s.createNetwork_cases owner name cidr.cidr with ⟨⟨e, he⟩, -⟩ | ⟨-, hok⟩
    · exact hsame (by simp only [apply, answer, he])
    · simp only [apply, answer, hok, nicCounter, withNetwork, Assoc.lookup_insert_ite]
      split
      · exact Nat.zero_le _
      · exact Nat.le_add_right _ _
  | deleteNetwork id =>
    rcases s.deleteNetwork_cases id with ⟨⟨e, he⟩, -⟩ | ⟨-, hok⟩
    · exact hsame (by simp only [apply, answer, he])
    · simp only [apply, answer, hok, nicCounter, withoutNetwork, Assoc.lookup_erase_ite]
      split
      · exact Nat.zero_le _
      · exact Nat.le_add_right _ _
  | attachNic net' vmId ip =>
    rcases s.attachNic_cases net' vmId ip with ⟨⟨e, he⟩, -⟩ | ⟨v, addr, -, -, -, hok⟩
    · exact hsame (by simp only [apply, answer, he])
    · simp only [apply, answer, hok, nicCounter, withNic, Assoc.lookup_insert_ite]
      split
      · rename_i heq
        have hattached : isAttached net ((Except.ok ⟨nicId net' (satAdd32 (s.nicCounter net') 1), net', vmId, addr,
            makeMac net' (satAdd32 (s.nicCounter net') 1)⟩ : CelResult Nic).map NetworkReply.nic) = true := by
          simp [isAttached, Except.map, heq]
        rw [← nicCounter, hattached, Option.getD_some, toNat_satAdd32, heq]
        exact Nat.min_le_left _ _
      · exact Nat.le_add_right _ _
  | detachNic id =>
    refine hsame ?_
    simp only [apply, answer, detachNic]
    split <;> rfl
  | createSecurityGroup owner name rules =>
    rcases s.createSecurityGroup_cases owner name rules with ⟨⟨e, he⟩, -⟩ | ⟨sg, -, hok⟩
    · exact hsame (by simp only [apply, answer, he])
    · exact hsame (by simp only [apply, answer, hok])
  | createLoadBalancer owner name net' vip frontendPort algo backends =>
    rcases s.createLoadBalancer_cases owner name net' vip frontendPort algo backends with
      ⟨⟨e, he⟩, -⟩ | ⟨lb, -, -, -, -, hok⟩
    · exact hsame (by simp only [apply, answer, he])
    · exact hsame (by simp only [apply, answer, hok])
  | listNetworks | getNetwork id | listNics | deleteSecurityGroup id | listSecurityGroups | deleteLoadBalancer id
  | listLoadBalancers => exact hsame rfl

/-- Where fewer than `2 ^ 32 - 1` NICs are attached to a network, each of them has a counter of its own. -/
theorem counter_along (ops : List NetworkOp) (s : MemNetworkStore)
    (h : ∀ net, (s.nicCounter net).toNat + (answers apply s ops).countP (isAttached net) < 2 ^ 32 - 1) :
    Along apply CounterLeft s ops := by
  induction ops generalizing s with
  | nil => trivial
  | cons op ops ih =>
    simp only [answers, List.countP_cons] at h
    refine ⟨?_, ih _ fun net => ?_⟩
    · cases op with
      | attachNic net vmId ip =>
        rintro ⟨nic, hnic⟩
        have := h net
        unfold u32Max
        omega
      | createNetwork owner name cidr | deleteNetwork id | listNetworks | getNetwork id | detachNic id | listNics
      | createSecurityGroup owner name rules | deleteSecurityGroup id | listSecurityGroups
      | createLoadBalancer owner name net vip frontendPort algo backends | deleteLoadBalancer id | listLoadBalancers =>
        trivial
    · have hstep := nicCounter_le s op net
      have hnet := h net
      omega

theorem new_linked : new.Linked :=
  ⟨fun _ _ _ => iff_of_false nofun (fun ⟨_, h, _⟩ => by cases h), fun _ _ h => (by cases h), fun _ _ h => (by cases h)⟩

theorem new_counted : new.Counted :=
  ⟨fun _ _ h => (by cases h), fun _ => Nat.zero_le _, fun _ _ h => (by cases h)⟩

/-- A network whose counter is its own is created over no other one. -/
theorem Issued.freshNetwork {s : MemNetworkStore} (hi : s.Issued) {op : NetworkOp} (hleft : s.NetworkLeft op) :
    s.FreshNetwork op := by
  cases op with
  | createNetwork owner name cidr =>
    intro hname
    have hnew := not_gaveOut_new (hleft.room hname) owner
    exact ⟨fun id nic hnic heq => hnew (heq ▸ (hi.nic id nic hnic).1),
      fun id lb hlb heq => absurd (heq ▸ (hi.lb id lb hlb).1) hnew⟩
  | deleteNetwork id | listNetworks | getNetwork id | attachNic net vmId ip | detachNic id | listNics
  | createSecurityGroup owner name rules | deleteSecurityGroup id | listSecurityGroups
  | createLoadBalancer owner name net vip frontendPort algo backends | deleteLoadBalancer id | listLoadBalancers => trivial

/-- Where fewer than `2 ^ 32 - 1` NICs are ever attached to one network, the maps agree in every state of a run exactly if
every step keeps clear of the networks in use. -/
theorem coherent_iff_along (ops : List NetworkOp) (h : ∀ net, (answers apply new ops).countP (isAttached net) < 2 ^ 32 - 1) :
    (∀ s ∈ states apply new ops, s.Coherent) ↔ Along apply FreshNetwork new ops := by
  refine states_iff_along_while (I := Counted) (D := CounterLeft) ?_ new_counted (new_linked.coherent new_counted)
    (counter_along ops .new fun net => ?_)
  · intro s op hc hs hleft
    obtain ⟨hiff, hnext⟩ := apply_linked hs.linked hc hleft
    refine ⟨⟨fun h' => hiff.1 h'.linked, fun hfresh => (hiff.2 hfresh).coherent (hnext hfresh)⟩, hnext⟩
  · have hzero : (MemNetworkStore.new.nicCounter net).toNat = 0 := rfl
    rw [hzero, Nat.zero_add]
    exact h net

/-- **Where fewer than `2 ^ 64` networks are created none is created over another.** -/
theorem freshNetwork_along {ops : List NetworkOp} (h : (answers apply new ops).countP isNetwork < 2 ^ 64) :
    Along apply FreshNetwork new ops := by
  refine along_of_states (fun s op hi hleft => hi.freshNetwork hleft) (issued_states ops) (networkLeft_along ops new ?_)
  have hzero : new.nextNet.toNat = 0 := rfl
  rwa [hzero, Nat.zero_add]

end MemNetworkStore

open MemNetworkStore in
/-- **Where fewer than `2 ^ 32 - 1` NICs are ever attached to one network, the maps of the store agree in every state of a
run** in which fewer than `2 ^ 64` networks are created; in any run they do exactly if no network is created over one that
has NICs or load balancers outside the new block. -/
theorem network_coherent_iff (ops : List NetworkOp)
    (h : ∀ net, (answers MemNetworkStore.apply .new ops).countP (isAttached net) < 2 ^ 32 - 1) :
    ((answers MemNetworkStore.apply .new ops).countP isNetwork < 2 ^ 64 →
      ∀ s ∈ states MemNetworkStore.apply .new ops, s.Coherent) ∧
    ((∀ s ∈ states MemNetworkStore.apply .new ops, s.Coherent) ↔
      Along MemNetworkStore.apply FreshNetwork .new ops) := by
  have hiff : (∀ s ∈ states MemNetworkStore.apply .new ops, s.Coherent) ↔
      Along MemNetworkStore.apply FreshNetwork .new ops := coherent_iff_along ops h
  exact ⟨fun hnets => hiff.2 (freshNetwork_along hnets), hiff⟩

/-- No more NICs are attached than the run has calls for it. -/
theorem attached_le (net : NetworkId) (ops : List NetworkOp) (s : MemNetworkStore) :
    (answers MemNetworkStore.apply s ops).countP (MemNetworkStore.isAttached net) ≤ ops.countP NetworkOp.isAttach := by
  induction ops generalizing s with
  | nil => exact Nat.le_refl _
  | cons op ops ih =>
    have hone : MemNetworkStore.isAttached net (s.apply op).1 = true → op.isAttach = true := by
      cases op with
      | attachNic net' vmId ip => exact fun _ => rfl
      | createNetwork owner name cidr =>
        simp only [MemNetworkStore.apply, MemNetworkStore.answer]
        cases (s.createNetwork owner name cidr.cidr).1 <;> intro h <;> cases h
      | deleteNetwork id =>
        simp only [MemNetworkStore.apply, MemNetworkStore.answer]
        cases (s.deleteNetwork id).1 <;> intro h <;> cases h
      | detachNic id =>
        simp only [MemNetworkStore.apply, MemNetworkStore.answer]
        cases (s.detachNic id).1 <;> intro h <;> cases h
      | createSecurityGroup owner name rules =>
        simp only [MemNetworkStore.apply, MemNetworkStore.answer]
        cases (s.createSecurityGroup owner name rules).1 <;> intro h <;> cases h
      | createLoadBalancer owner name net vip frontendPort algo backends =>
        simp only [MemNetworkStore.apply, MemNetworkStore.answer]
        cases (s.createLoadBalancer owner name net vip frontendPort algo backends).1 <;> intro h <;> cases h
      | listNetworks | getNetwork id | listNics | deleteSecurityGroup id | listSecurityGroups | deleteLoadBalancer id
      | listLoadBalancers =>
        intro h
        cases h
    have hrest := ih (s.apply op).2
    rw [answers, List.countP_cons, List.countP_cons]
    split
    · rename_i hattached
      rw [if_pos (hone hattached)]
      omega
    · omega

/-- The block `10.0.0.0/24`. -/
def tenNet : ParsedCidr := ⟨⟨⟨0x0a000000⟩, 24⟩, "10.0.0.0/24", by decide +kernel⟩

/-- A network with two NICs, one of which goes again. -/
def twoNics : List NetworkOp :=
  [.createNetwork "n1" "net" tenNet, .attachNic ⟨"n1/n1"⟩ 0 none, .attachNic ⟨"n1/n1"⟩ 1 (some ⟨0x0a000005⟩),
    .detachNic ⟨"n1/n1/nic1"⟩]

theorem two_nics_coherent :
    (∀ net, (answers MemNetworkStore.apply .new twoNics).countP (MemNetworkStore.isAttached net) < 2 ^ 32 - 1) ∧
    (answers MemNetworkStore.apply .new twoNics).countP MemNetworkStore.isNetwork < 2 ^ 64 ∧
    ∀ s ∈ states MemNetworkStore.apply .new twoNics, s.Coherent := by
  have hfew : ∀ net, (answers MemNetworkStore.apply .new twoNics).countP (MemNetworkStore.isAttached net) < 2 ^ 32 - 1 :=
    fun net => Nat.lt_of_le_of_lt (attached_le net twoNics .new) (by decide)
  have hnets : (answers MemNetworkStore.apply .new twoNics).countP MemNetworkStore.isNetwork < 2 ^ 64 :=
    Nat.lt_of_le_of_lt List.countP_le_length (by rw [length_answers]; decide)
  exact ⟨hfew, hnets, (network_coherent_iff twoNics hfew).1 hnets⟩

/-- So many networks for one node. -/
def createTimes (k : Nat) : List NetworkOp := List.replicate k (.createNetwork "n1" "net" tenNet)

theorem apply_createTen (s : MemNetworkStore) :
    (s.apply (.createNetwork "n1" "net" tenNet)).2 = s.withNetwork "n1" "net" tenNet.cidr := by
  rcases s.createNetwork_cases "n1" "net" tenNet.cidr with ⟨-, hname⟩ | ⟨-, hok⟩
  · exact absurd (by decide +kernel) hname
  · rw [MemNetworkStore.apply, MemNetworkStore.answer, hok]

theorem nextNet_createTimes {k : Nat} {s : MemNetworkStore} (h : s.nextNet.toNat + k ≤ u64Max) :
    (run MemNetworkStore.apply s (createTimes k)).nextNet.toNat = s.nextNet.toNat + k := by
  induction k generalizing s with
  | zero => rfl
  | succ k ih =>
    have hnext : (s.apply (.createNetwork "n1" "net" tenNet)).2.nextNet.toNat = s.nextNet.toNat + 1 := by
      rw [apply_createTen, MemNetworkStore.withNetwork, toNat_satAdd64]
      simp
      omega
    rw [createTimes, List.replicate_succ, run]
    change (run MemNetworkStore.apply (s.apply (.createNetwork "n1" "net" tenNet)).2 (createTimes k)).nextNet.toNat = _
    rw [ih (by omega), hnext]
    omega

/-- **A store with a NIC on the network whose id is given out next is upset by that create.** -/
theorem not_coherent_of_reuse {s : MemNetworkStore} {id : NicId} {nic : Nic} (hnic : s.nics.lookup id = some nic)
    (hnet : nic.networkId = s.newNetworkId "n1") : ¬ (s.apply (.createNetwork "n1" "net" tenNet)).2.Coherent := by
  rw [apply_createTen]
  intro h
  have hused := (h.linked.index nic.networkId nic.ip id).2 ⟨nic, hnic, rfl, rfl⟩
  rw [MemNetworkStore.used_withNetwork, if_pos hnet] at hused
  cases hused

/-- A store whose network counter is used up, with a network of the last id. -/
theorem last_network : ∃ s, run MemNetworkStore.apply .new (createTimes (2 ^ 64 - 1)) =
    MemNetworkStore.withNetwork s "n1" "net" tenNet.cidr ∧ satAdd64 s.nextNet 1 = 18446744073709551615 := by
  have hsplit : createTimes (2 ^ 64 - 1) = createTimes (2 ^ 64 - 2) ++ [.createNetwork "n1" "net" tenNet] :=
    List.replicate_succ'
  have hzero : MemNetworkStore.new.nextNet.toNat = 0 := rfl
  have hnext := nextNet_createTimes (k := 2 ^ 64 - 2) (s := .new) (by rw [hzero]; unfold u64Max; omega)
  refine ⟨run MemNetworkStore.apply .new (createTimes (2 ^ 64 - 2)), ?_, ?_⟩
  · rw [hsplit, run_append]
    exact apply_createTen _
  · apply UInt64.toNat_inj.1
    rw [toNat_satAdd64, hnext, hzero]
    decide

/-- **Once every counter is given out, a create empties the addresses of the last network while its NIC stays.** -/
theorem reused_network_incoherent :
    ∃ ops : List NetworkOp,
      (∀ net, (answers MemNetworkStore.apply .new ops).countP (MemNetworkStore.isAttached net) < 2 ^ 32 - 1) ∧
      ∃ s ∈ states MemNetworkStore.apply .new ops, ¬ s.Coherent := by
  obtain ⟨s, hs, hlast⟩ := last_network
  have hid : s.newNetworkId "n1" = MemNetworkStore.networkId "n1" 18446744073709551615 := by
    rw [MemNetworkStore.newNetworkId, hlast]
  let net := MemNetworkStore.networkId "n1" 18446744073709551615
  refine ⟨createTimes (2 ^ 64 - 1) ++ [.attachNic net 0 none, .createNetwork "n1" "net" tenNet], fun n => ?_, _,
    run_mem_states _ _, ?_⟩
  · refine Nat.lt_of_le_of_lt (attached_le n _ .new) ?_
    rw [List.countP_append, createTimes, List.countP_replicate]
    decide
  · rw [run_append, hs]
    have hnetwork : (s.withNetwork "n1" "net" tenNet.cidr).networks.lookup net = some ⟨net, "n1", "net", tenNet.cidr⟩ := by
      rw [MemNetworkStore.withNetwork, hid, AList.lookup_insert]
    have hused : (s.withNetwork "n1" "net" tenNet.cidr).used net = ∅ := by
      rw [MemNetworkStore.used_withNetwork, if_pos hid.symm]
    have hfull : satAdd64 (s.withNetwork "n1" "net" tenNet.cidr).nextNet 1 = 18446744073709551615 := by
      change satAdd64 (satAdd64 s.nextNet 1) 1 = _
      rw [hlast]
      decide
    generalize s.withNetwork "n1" "net" tenNet.cidr = t at *
    rcases t.attachNic_cases net 0 none with ⟨⟨e, he⟩, -⟩ | ⟨v, ip, -, -, -, hok⟩
    · exfalso
      have hchoose : MemNetworkStore.chooseIp tenNet.cidr ∅ none = .ok ⟨0x0a000001⟩ := by decide +kernel
      rw [MemNetworkStore.used] at hused
      simp only [MemNetworkStore.attachNic, hnetwork, hused, hchoose] at he
      cases congrArg Prod.fst he
    · have happly : (t.apply (.attachNic net 0 none)).2 = t.withNic net 0 ip := by
        rw [MemNetworkStore.apply, MemNetworkStore.answer, hok]
      change ¬ ((t.apply (.attachNic net 0 none)).2.apply (.createNetwork "n1" "net" tenNet)).2.Coherent
      rw [happly]
      refine not_coherent_of_reuse (AList.lookup_insert _) ?_
      change net = MemNetworkStore.networkId "n1" (satAdd64 t.nextNet 1)
      rw [hfull]

end Celium
