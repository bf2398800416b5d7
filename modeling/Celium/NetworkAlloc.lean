import Celium.NetworkReserved
/-!
# NetworkAlloc — the address a NIC gets when it asks for none

The host addresses of a block are numbered from its base on, so the linear scan of `attach_nic` gives out the numerically
lowest one that no NIC of the network has, and fails where the cap or the block is full.  The scan reads `used_ips`, and
what it says of the NICs is right as long as every NIC and every network gets an id that no other has: the counters
saturate, and after the last id a detach frees one address of the two that were given out under it.
-/
namespace Celium

open Fixed Runs

/-! ## The numbers of the host addresses -/

namespace Cidr4

/-- From one above the base to `capacity` above it. -/
def IsHost (c : Cidr4) (addr : Ipv4Addr) : Prop :=
  c.base.bits.toNat + 1 ≤ addr.bits.toNat ∧ addr.bits.toNat ≤ c.base.bits.toNat + c.capacity.toNat

/-- The arithmetic of a block comes out as in the integers: both shifts are by 1 to 31 places, the shifted one and the
subtraction of two lose nothing, and no host address exceeds 32 bits. -/
structure Exact (c : Cidr4) : Prop where
  places : 1 ≤ 32 - c.prefixLen.toNat ∧ 32 - c.prefixLen.toNat < 32
  capacity : c.capacity.toNat = 2 ^ (32 - c.prefixLen.toNat) - 2
  block : 2 ^ (32 - c.prefixLen.toNat) ∣ c.base.bits.toNat
  last : c.base.bits.toNat + c.capacity.toNat < 2 ^ 32
  host : ∀ n addr, c.nthHost n = some addr ↔
    1 ≤ n.toNat ∧ n.toNat ≤ c.capacity.toNat ∧ addr.bits.toNat = c.base.bits.toNat + n.toNat

/-- **The additions and shifts of a block that `parse` gives out never overflow.** -/
theorem exact_of_parse {c : Cidr4} (hc : ∃ text, parse text = .ok c) : c.Exact := by
  obtain ⟨text, htext⟩ := hc
  obtain ⟨hpos, hlt, hbase⟩ := parse_ok htext
  have hcap := toNat_capacity hpos hlt
  have hblock := congrArg UInt32.toNat hbase
  rw [toNat_and_mask _ hpos hlt] at hblock
  have hdvd : 2 ^ (32 - c.prefixLen.toNat) ∣ c.base.bits.toNat := ⟨_, by rw [Nat.mul_comm]; exact hblock.symm⟩
  have hlast : c.base.bits.toNat + 2 ^ (32 - c.prefixLen.toNat) ≤ 2 ^ 32 := by
    have hwhole : 2 ^ (32 - c.prefixLen.toNat) ∣ 2 ^ 32 := Nat.pow_dvd_pow 2 (by omega)
    have hsize := c.base.bits.toNat_lt
    obtain ⟨r, hr⟩ := hwhole
    obtain ⟨q, hq⟩ := hdvd
    rw [hq, hr] at hsize ⊢
    rw [← Nat.mul_succ]
    exact Nat.mul_le_mul_left _ (Nat.lt_of_mul_lt_mul_left hsize)
  have hpow : 0 < 2 ^ (32 - c.prefixLen.toNat) := Nat.two_pow_pos _
  refine ⟨⟨by omega, by omega⟩, hcap, hdvd, by omega, fun n addr => ?_⟩
  unfold nthHost
  constructor
  · intro h
    split at h
    · cases h
    · rename_i hn
      obtain rfl := Option.some.inj h
      simp only [not_or, gt_iff_lt, UInt32.not_lt, UInt32.le_iff_toNat_le] at hn
      have hn0 : n.toNat ≠ 0 := fun h0 => hn.1 (UInt32.toNat_inj.1 h0)
      refine ⟨by omega, hn.2, ?_⟩
      rw [UInt32.toNat_add, Nat.mod_eq_of_lt (by omega)]
  · rintro ⟨hone, hle, haddr⟩
    have hn0 : n ≠ 0 := by
      rintro rfl
      exact absurd hone (by decide)
    rw [if_neg (by simp only [not_or, gt_iff_lt, UInt32.not_lt, UInt32.le_iff_toNat_le]; exact ⟨hn0, hle⟩)]
    have hbits : c.base.bits + n = addr.bits := by
      apply UInt32.toNat_inj.1
      rw [UInt32.toNat_add, Nat.mod_eq_of_lt (by omega), haddr]
    rw [hbits]

theorem Exact.isHost_iff {c : Cidr4} (h : c.Exact) {addr : Ipv4Addr} :
    c.IsHost addr ↔ ∃ n, c.nthHost n = some addr := by
  constructor
  · rintro ⟨hlo, hhi⟩
    have hsize := addr.bits.toNat_lt
    refine ⟨UInt32.ofNat (addr.bits.toNat - c.base.bits.toNat), (h.host _ _).2 ?_⟩
    rw [UInt32.toNat_ofNat_of_lt' (show _ < UInt32.size by unfold UInt32.size; omega)]
    omega
  · rintro ⟨n, hn⟩
    obtain ⟨hone, hle, haddr⟩ := (h.host _ _).1 hn
    exact ⟨by omega, by omega⟩

/-- The scan's order is that of the addresses. -/
theorem Exact.lowestFree_iff {c : Cidr4} (h : c.Exact) {used : AList (fun _ : Ipv4Addr => NicId)} {addr : Ipv4Addr} :
    c.LowestFree used addr ↔ c.IsHost addr ∧ used.lookup addr = none ∧
      ∀ a, c.IsHost a → used.lookup a = none → addr.bits ≤ a.bits := by
  constructor
  · rintro ⟨n, hn, hfree, hbelow⟩
    refine ⟨h.isHost_iff.2 ⟨n, hn⟩, hfree, fun a ha hfree' => ?_⟩
    obtain ⟨k, hk⟩ := h.isHost_iff.1 ha
    have hnk : ¬ k < n := by
      intro hlt
      have := hbelow k hlt a hk
      rw [hfree'] at this
      cases this
    obtain ⟨-, -, haddr⟩ := (h.host _ _).1 hn
    obtain ⟨-, -, haddr'⟩ := (h.host _ _).1 hk
    rw [UInt32.not_lt, UInt32.le_iff_toNat_le] at hnk
    rw [UInt32.le_iff_toNat_le]
    omega
  · rintro ⟨hhost, hfree, hleast⟩
    obtain ⟨n, hn⟩ := h.isHost_iff.1 hhost
    refine ⟨n, hn, hfree, fun j hj a ha => ?_⟩
    by_contra hnone
    have hle := hleast a (h.isHost_iff.2 ⟨j, ha⟩) (by simpa using hnone)
    obtain ⟨-, -, haddr⟩ := (h.host _ _).1 hn
    obtain ⟨-, -, haddr'⟩ := (h.host _ _).1 ha
    rw [UInt32.lt_iff_toNat_lt] at hj
    rw [UInt32.le_iff_toNat_le] at hle
    omega

/-- Where a host address is free there is a lowest one. -/
theorem Exact.exists_lowestFree {c : Cidr4} (h : c.Exact) {used : AList (fun _ : Ipv4Addr => NicId)} {a : Ipv4Addr}
    (ha : c.IsHost a) (hfree : used.lookup a = none) : ∃ addr, c.LowestFree used addr := by
  classical
  have hex : ∃ k, ∃ a, c.IsHost a ∧ used.lookup a = none ∧ a.bits.toNat = k := ⟨_, a, ha, hfree, rfl⟩
  obtain ⟨addr, hhost, hnone, hk⟩ := Nat.find_spec hex
  refine ⟨addr, h.lowestFree_iff.2 ⟨hhost, hnone, fun b hb hbfree => ?_⟩⟩
  rw [UInt32.le_iff_toNat_le, hk]
  exact Nat.find_min' hex ⟨b, hb, hbfree, rfl⟩

end Cidr4

namespace MemNetworkStore

variable (s : MemNetworkStore)

/-- A NIC of the network has the address. -/
def Held (net : NetworkId) (ip : Ipv4Addr) : Prop :=
  ∃ id nic, s.nics.lookup id = some nic ∧ nic.networkId = net ∧ nic.ip = ip

/-- The NICs of a network. -/
def nicsOn (net : NetworkId) : List (Sigma (fun _ : NicId => Nic)) := s.nics.entries.filter (fun e => e.2.networkId == net)

/-- Nothing is left to give out: 256 NICs, or every host address held by one. -/
def Full (net : NetworkId) (v : VirtualNetwork) : Prop :=
  (s.nicsOn net).length = maxNicsPerNetwork ∨ ∀ a, v.cidr.IsHost a → s.Held net a

/-- What `attach_nic` answers to a NIC that asks for no address, on every network that is there. -/
structure AllocatesLowest : Prop where
  exhausted : ∀ net v vmId, s.networks.lookup net = some v →
    ((∃ m, (s.attachNic net vmId none).1 = .error (.exhausted m)) ↔ s.Full net v)
  lowest : ∀ net v vmId, s.networks.lookup net = some v → ¬ s.Full net v →
    ∃ nic, (s.attachNic net vmId none).1 = .ok nic ∧ v.cidr.IsHost nic.ip ∧ ¬ s.Held net nic.ip ∧
      ∀ a, v.cidr.IsHost a → ¬ s.Held net a → nic.ip.bits ≤ a.bits

/-- A NIC or a network that is made gets an id that no NIC has, or is on. -/
def FreshIds : NetworkOp → Prop
  | .createNetwork owner name _ => validateName name = .ok () →
    ∀ id nic, s.nics.lookup id = some nic → nic.networkId ≠ s.newNetworkId owner
  | .attachNic net vmId ip => (∃ nic, (s.attachNic net vmId ip).1 = .ok nic) →
    s.nics.lookup (nicId net (satAdd32 (s.nicCounter net) 1)) = none
  | _ => True

/-- What the scan relies on. -/
structure Scannable : Prop where
  index : s.Indexed
  room : ∀ net, (s.used net).entries.length ≤ maxNicsPerNetwork
  parsed : s.Parsed

variable {s}

/-! ## The index and the NICs -/

theorem Scannable.held_iff (h : s.Scannable) {net : NetworkId} {ip : Ipv4Addr} :
    s.Held net ip ↔ (s.used net).lookup ip ≠ none := by
  rw [Option.ne_none_iff_exists']
  exact exists_congr fun id => (h.index net ip id).symm

/-- There are as many addresses in use as there are NICs. -/
theorem Scannable.length_nicsOn (h : s.Scannable) (net : NetworkId) :
    (s.nicsOn net).length = (s.used net).entries.length := by
  have hids : ((s.nicsOn net).map (·.1)).Nodup :=
    s.nics.keys_nodup.sublist (List.filter_sublist.map _)
  have hback : ((s.used net).entries.map (·.2)).Nodup := by
    refine List.Nodup.map_on ?_ (Assoc.nodup_entries _)
    rintro ⟨ip, id⟩ hmem ⟨ip', id'⟩ hmem' heq
    obtain rfl : id = id' := heq
    obtain ⟨nic, hnic, -, rfl⟩ := (h.index net ip id).1 (AList.mem_lookup_iff.2 hmem)
    obtain ⟨nic', hnic', -, rfl⟩ := (h.index net ip' id).1 (AList.mem_lookup_iff.2 hmem')
    rw [Option.some.inj (hnic.symm.trans hnic')]
  have hperm : ((s.nicsOn net).map (·.1)).Perm ((s.used net).entries.map (·.2)) := by
    rw [List.perm_ext_iff_of_nodup hids hback]
    intro id
    simp only [nicsOn, List.mem_map, List.mem_filter, beq_iff_eq]
    constructor
    · rintro ⟨⟨id, nic⟩, ⟨hmem, hnet⟩, rfl⟩
      have hused := (h.index net nic.ip id).2 ⟨nic, AList.mem_lookup_iff.2 hmem, hnet, rfl⟩
      exact ⟨⟨nic.ip, id⟩, AList.mem_lookup_iff.1 hused, rfl⟩
    · rintro ⟨⟨ip, id⟩, hmem, rfl⟩
      obtain ⟨nic, hnic, hnet, -⟩ := (h.index net ip id).1 (AList.mem_lookup_iff.2 hmem)
      exact ⟨⟨id, nic⟩, ⟨AList.mem_lookup_iff.1 hnic, hnet⟩, rfl⟩
  simpa using hperm.length_eq

/-! ## One call -/

/-- **What an `attach_nic` without an address answers**, by the index alone. -/
theorem attachNic_none (s : MemNetworkStore) {net : NetworkId} {v : VirtualNetwork} (hv : s.networks.lookup net = some v)
    (vmId : UInt32) :
    (maxNicsPerNetwork ≤ (s.used net).entries.length ∧
        (s.attachNic net vmId none).1 = .error (.exhausted "attach_nic: per-network NIC cap")) ∨
      ((s.used net).entries.length < maxNicsPerNetwork ∧ (∀ addr, ¬ v.cidr.LowestFree (s.used net) addr) ∧
        (s.attachNic net vmId none).1 = .error (.exhausted "attach_nic: CIDR exhausted")) ∨
      ((s.used net).entries.length < maxNicsPerNetwork ∧ ∃ nic, (s.attachNic net vmId none).1 = .ok nic ∧
        v.cidr.LowestFree (s.used net) nic.ip) := by
  unfold attachNic
  simp only [hv]
  split
  · rename_i hcap
    exact .inl ⟨hcap, rfl⟩
  · rename_i hcap
    have hroom : (s.used net).entries.length < maxNicsPerNetwork := Nat.not_le.1 hcap
    simp only [chooseIp]
    cases hfirst : firstFree v.cidr ((s.usedIps.lookup net).getD ∅) v.cidr.capacity.toNat 1 with
    | none =>
      refine .inr (.inl ⟨hroom, fun addr hlow => ?_, rfl⟩)
      rw [used, ← firstFree_eq_some, hfirst] at hlow
      cases hlow
    | some addr => exact .inr (.inr ⟨hroom, _, rfl, firstFree_eq_some.1 hfirst⟩)

theorem Scannable.allocatesLowest (h : s.Scannable) : s.AllocatesLowest := by
  have hfree : ∀ net a, (s.used net).lookup a = none ↔ ¬ s.Held net a := by
    intro net a
    rw [h.held_iff, not_not]
  have hlow : ∀ net v, s.networks.lookup net = some v → ∀ addr, v.cidr.LowestFree (s.used net) addr ↔
      v.cidr.IsHost addr ∧ ¬ s.Held net addr ∧ ∀ a, v.cidr.IsHost a → ¬ s.Held net a → addr.bits ≤ a.bits := by
    intro net v hv addr
    simp only [(Cidr4.exact_of_parse (h.parsed net v hv)).lowestFree_iff, hfree]
  have hcap : ∀ net, (s.nicsOn net).length = maxNicsPerNetwork ↔ maxNicsPerNetwork ≤ (s.used net).entries.length := by
    intro net
    have := h.room net
    rw [h.length_nicsOn]
    omega
  have hall : ∀ net v, s.networks.lookup net = some v → (∀ addr, ¬ v.cidr.LowestFree (s.used net) addr) →
      ∀ a, v.cidr.IsHost a → s.Held net a := by
    intro net v hv hno a ha
    by_contra hnot
    obtain ⟨addr, hlowest⟩ := (Cidr4.exact_of_parse (h.parsed net v hv)).exists_lowestFree ha ((hfree net a).2 hnot)
    exact hno addr hlowest
  constructor
  · intro net v vmId hv
    rcases attachNic_none s hv vmId with ⟨hfull, he⟩ | ⟨hroom, hno, he⟩ | ⟨hroom, nic, hok, hlowest⟩
    · exact iff_of_true ⟨_, he⟩ (.inl ((hcap net).2 hfull))
    · exact iff_of_true ⟨_, he⟩ (.inr (hall net v hv hno))
    · refine iff_of_false ?_ ?_
      · rintro ⟨m, he⟩
        rw [hok] at he
        cases he
      · obtain ⟨hhost, hnot, -⟩ := (hlow net v hv nic.ip).1 hlowest
        rintro (hfull | hall)
        · exact absurd ((hcap net).1 hfull) (Nat.not_le.2 hroom)
        · exact hnot (hall nic.ip hhost)
  · intro net v vmId hv hnotfull
    rcases attachNic_none s hv vmId with ⟨hfull, -⟩ | ⟨-, hno, -⟩ | ⟨-, nic, hok, hlowest⟩
    · exact absurd (.inl ((hcap net).2 hfull)) hnotfull
    · exact absurd (.inr (hall net v hv hno)) hnotfull
    · exact ⟨nic, hok, (hlow net v hv nic.ip).1 hlowest⟩

theorem apply_scannable (h : s.Scannable) {op : NetworkOp} (hfresh : s.FreshIds op) : (s.apply op).2.Scannable := by
  have hparsed := parsed_apply s op h.parsed
  cases op with
  | createNetwork owner name cidr =>
    rcases s.createNetwork_cases owner name cidr.cidr with ⟨⟨e, he⟩, -⟩ | ⟨hname, hok⟩
    · simpa only [apply, answer, he] using h
    · simp only [apply, answer, hok] at hparsed ⊢
      refine ⟨indexed_withNetwork h.index (hfresh hname), fun net => ?_, hparsed⟩
      rw [used_withNetwork]
      split
      · exact Nat.zero_le _
      · exact h.room net
  | deleteNetwork id =>
    rcases s.deleteNetwork_cases id with ⟨⟨e, he⟩, -⟩ | ⟨hnil, hok⟩
    · simpa only [apply, answer, he] using h
    · simp only [apply, answer, hok] at hparsed ⊢
      refine ⟨indexed_withoutNetwork h.index hnil, fun net => ?_, hparsed⟩
      rw [used_withoutNetwork]
      split
      · exact Nat.zero_le _
      · exact h.room net
  | attachNic net vmId ip =>
    rcases s.attachNic_cases net vmId ip with ⟨⟨e, he⟩, -⟩ | ⟨v, addr, -, hcap, hchoose, hok⟩
    · simpa only [apply, answer, he] using h
    · have hnew := hfresh ⟨_, congrArg Prod.fst hok⟩
      simp only [apply, answer, hok] at hparsed ⊢
      refine ⟨indexed_withNic h.index (chooseIp_ok.1 hchoose).1 hnew, fun net' => ?_, hparsed⟩
      rw [used_withNic]
      split
      · exact (Assoc.length_insert_le _ _ _).trans hcap
      · exact h.room net'
  | detachNic id =>
    refine ⟨indexed_detachNic h.index id, fun net => ?_, hparsed⟩
    change ((s.detachNic id).2.used net).entries.length ≤ _
    cases hnic : s.nics.lookup id with
    | none =>
      rw [detachNic_absent s hnic]
      exact h.room net
    | some nic =>
      rw [used_detachNic s hnic]
      split
      · exact (Assoc.length_erase_le _ _).trans (h.room net)
      · exact h.room net
  | createSecurityGroup owner name rules =>
    rcases s.createSecurityGroup_cases owner name rules with ⟨⟨e, he⟩, -⟩ | ⟨sg, -, hok⟩
    · simpa only [apply, answer, he] using h
    · simp only [apply, answer, hok]
      exact ⟨h.index, h.room, h.parsed⟩
  | createLoadBalancer owner name net vip frontendPort algo backends =>
    rcases s.createLoadBalancer_cases owner name net vip frontendPort algo backends with
      ⟨⟨e, he⟩, -⟩ | ⟨lb, -, -, -, -, hok⟩
    · simpa only [apply, answer, he] using h
    · simp only [apply, answer, hok]
      exact ⟨h.index, h.room, h.parsed⟩
  | deleteSecurityGroup id | deleteLoadBalancer id => exact ⟨h.index, h.room, h.parsed⟩
  | listNetworks | getNetwork id | listNics | listSecurityGroups | listLoadBalancers => exact h

theorem new_scannable : new.Scannable := ⟨new_linked.index, fun _ => Nat.zero_le _, new_parsed⟩

end MemNetworkStore

open MemNetworkStore in
/-- **In a run that gives every NIC and every network an id of its own, an `attach_nic` without an address gives out the
lowest host address that no NIC has in every state, and fails exactly at the cap or with the block full**; and the
arithmetic of the blocks is exact. -/
theorem automatic_allocation (ops : List NetworkOp) (h : Along MemNetworkStore.apply FreshIds .new ops) :
    (∀ s ∈ states MemNetworkStore.apply .new ops, s.AllocatesLowest) ∧
      ∀ c, (∃ text, Cidr4.parse text = .ok c) → c.Exact :=
  ⟨fun s hs => (of_along (I := Scannable) (fun _ _ hs => apply_scannable hs) new_scannable h s hs).allocatesLowest,
    fun _ => Cidr4.exact_of_parse⟩

/-- A network with two NICs, the first of which goes: its address is given out again. -/
theorem automatic_allocation_hole : (∀ s ∈ states MemNetworkStore.apply .new twoNics, s.AllocatesLowest) ∧
    ∀ c, (∃ text, Cidr4.parse text = .ok c) → c.Exact :=
  automatic_allocation twoNics
    ⟨fun _ id nic hnic => (by cases hnic), fun _ => by decide +kernel, fun _ => by decide +kernel, trivial, trivial⟩

/-! ## A NIC counter that is used up -/

/-- The network the NICs below are on. -/
def lastNet : NetworkId := ⟨"n1/n1"⟩

/-- The network is there with no address in use, and has given out `k` ids. -/
structure MemNetworkStore.Idle (k : Nat) (s : MemNetworkStore) : Prop where
  network : s.networks.lookup lastNet = some ⟨lastNet, "n1", "net", tenNet.cidr⟩
  used : s.used lastNet = ∅
  counter : (s.nicCounter lastNet).toNat = k
  nics : ∀ id nic, s.nics.lookup id = some nic → False

/-- One NIC comes and goes. -/
def comeAndGo (k : Nat) : List NetworkOp :=
  [.attachNic lastNet 0 none, .detachNic (MemNetworkStore.nicId lastNet (UInt32.ofNat (k + 1)))]

namespace MemNetworkStore

theorem chooseIp_ten : chooseIp tenNet.cidr ∅ none = .ok ⟨0x0a000001⟩ := by decide +kernel

variable {s : MemNetworkStore}

theorem Idle.attach {k : Nat} (h : s.Idle k) (vmId : UInt32) :
    (s.apply (.attachNic lastNet vmId none)).2 = s.withNic lastNet vmId ⟨0x0a000001⟩ := by
  rcases s.attachNic_cases lastNet vmId none with ⟨-, hno⟩ | ⟨v, ip, hv, -, hchoose, hok⟩
  · refine absurd ?_ (hno _ h.network (by rw [h.used]; decide) ⟨0x0a000001⟩)
    rw [h.used]
    exact chooseIp_ten
  · obtain rfl := Option.some.inj (h.network.symm.trans hv)
    rw [h.used, chooseIp_ten] at hchoose
    obtain rfl := Except.ok.inj hchoose
    rw [apply, answer, hok]

theorem Idle.comeAndGo {k : Nat} (h : s.Idle k) (hk : k + 1 ≤ u32Max) :
    (run MemNetworkStore.apply s (comeAndGo k)).Idle (k + 1) := by
  have hcounter : satAdd32 (s.nicCounter lastNet) 1 = UInt32.ofNat (k + 1) := by
    apply UInt32.toNat_inj.1
    rw [toNat_satAdd32, h.counter, UInt32.toNat_ofNat_of_lt' (show _ < UInt32.size by unfold UInt32.size u32Max at *; omega)]
    exact Nat.min_eq_left hk
  change (((s.apply (.attachNic lastNet 0 none)).2.detachNic (nicId lastNet (UInt32.ofNat (k + 1)))).2).Idle (k + 1)
  rw [h.attach, ← hcounter]
  have hnic : (s.withNic lastNet 0 ⟨0x0a000001⟩).nics.lookup (nicId lastNet (satAdd32 (s.nicCounter lastNet) 1)) =
      some ⟨nicId lastNet (satAdd32 (s.nicCounter lastNet) 1), lastNet, 0, ⟨0x0a000001⟩,
        makeMac lastNet (satAdd32 (s.nicCounter lastNet) 1)⟩ := AList.lookup_insert _
  constructor
  · rw [(detachNic_frame _ _).1]
    exact h.network
  · rw [used_detachNic _ hnic, if_pos rfl, used_withNic, if_pos rfl, h.used]
    apply AList.ext
    change List.kerase (⟨0x0a000001⟩ : Ipv4Addr)
      [⟨⟨0x0a000001⟩, nicId lastNet (satAdd32 (s.nicCounter lastNet) 1)⟩] = []
    exact List.kerase_cons_eq rfl
  · simp only [detachNic, nicCounter, withNic, AList.lookup_insert, Option.getD_some]
    rw [← nicCounter, hcounter, UInt32.toNat_ofNat_of_lt' (show _ < UInt32.size by unfold UInt32.size u32Max at *; omega)]
  · intro id nic hid
    rw [nics_detachNic _ hnic, Assoc.lookup_erase_ite] at hid
    split at hid
    · cases hid
    · rename_i hne
      have hid' : (s.nics.insert (nicId lastNet (satAdd32 (s.nicCounter lastNet) 1)) _).lookup id = some nic := hid
      rw [Assoc.lookup_insert_ite, if_neg hne] at hid'
      exact h.nics id nic hid'

/-- After `k` of them, none of which is left. -/
theorem idle_after {k : Nat} (hk : k ≤ u32Max) :
    (run MemNetworkStore.apply .new
      (.createNetwork "n1" "net" tenNet :: (List.range k).flatMap Celium.comeAndGo)).Idle k := by
  induction k with
  | zero =>
    rw [List.range_zero, List.flatMap_nil, run, run, apply_createTen]
    exact ⟨by decide +kernel, rfl, rfl, fun _ _ hnic => (by cases hnic)⟩
  | succ k ih =>
    rw [List.range_succ, List.flatMap_append, List.flatMap_singleton, ← List.cons_append, run_append]
    exact (ih (by omega)).comeAndGo hk

end MemNetworkStore

open MemNetworkStore in
/-- **A store without a NIC that has the first host address in use does not give out the lowest free one.** -/
theorem not_allocatesLowest_of_leak {s : MemNetworkStore} {net : NetworkId} {v : VirtualNetwork}
    (hv : s.networks.lookup net = some v) (hnics : ∀ id nic, s.nics.lookup id = some nic → False) {first : Ipv4Addr}
    (hfirst : first.bits.toNat = v.cidr.base.bits.toNat + 1) (hcap : 1 ≤ v.cidr.capacity.toNat)
    (hused : (s.used net).lookup first ≠ none) : ¬ s.AllocatesLowest := by
  intro hlow
  have hfree : ∀ a, ¬ s.Held net a := by
    rintro a ⟨id, nic, hnic, -⟩
    exact hnics id nic hnic
  have hhost : v.cidr.IsHost first := ⟨by omega, by omega⟩
  have hnotfull : ¬ s.Full net v := by
    rintro (hlen | hall)
    · have hnil : s.nicsOn net = [] := by
        rw [List.eq_nil_iff_forall_not_mem]
        rintro ⟨id, nic⟩ hmem
        exact hnics id nic (AList.mem_lookup_iff.2 (List.mem_filter.1 hmem).1)
      rw [hnil] at hlen
      cases hlen
    · exact hfree first (hall first hhost)
  obtain ⟨nic, hok, hip, -, hleast⟩ := hlow.lowest net v 0 hv hnotfull
  have heq : nic.ip.bits = first.bits := by
    have hle := UInt32.le_iff_toNat_le.1 (hleast first hhost (hfree first))
    have hge := hip.1
    apply UInt32.toNat_inj.1
    omega
  rcases attachNic_none s hv 0 with ⟨-, he⟩ | ⟨-, -, he⟩ | ⟨-, nic', hok', n, -, hnone, -⟩
  · rw [hok] at he
    cases he
  · rw [hok] at he
    cases he
  · obtain rfl := Except.ok.inj (hok.symm.trans hok')
    have hsame : nic.ip = first := congrArg Ipv4Addr.mk heq
    rw [hsame] at hnone
    exact hused hnone

namespace MemNetworkStore

variable {s : MemNetworkStore}

/-- Two NICs with the last id, and a detach of it. -/
def lastIdTwice : List NetworkOp :=
  [.attachNic lastNet 0 none, .attachNic lastNet 1 (some ⟨0x0a000002⟩), .detachNic (nicId lastNet 4294967295)]

/-- The first of them is no more, and its address stays in use. -/
theorem Idle.lastIdTwice {k : Nat} (h : s.Idle k) (hk : k + 1 = u32Max) :
    ¬ (run MemNetworkStore.apply s lastIdTwice).AllocatesLowest := by
  have hcounter : satAdd32 (s.nicCounter lastNet) 1 = 4294967295 := by
    apply UInt32.toNat_inj.1
    rw [toNat_satAdd32, h.counter, UInt32.toNat_one, hk, Nat.min_self]
    rfl
  -- The first NIC, with the last id.
  have hfirst := h.attach 0
  have hnetwork : (s.withNic lastNet 0 ⟨0x0a000001⟩).networks.lookup lastNet =
      some ⟨lastNet, "n1", "net", tenNet.cidr⟩ := h.network
  have hused : (s.withNic lastNet 0 ⟨0x0a000001⟩).used lastNet =
      AList.insert ⟨0x0a000001⟩ (nicId lastNet 4294967295) ∅ := by
    rw [used_withNic, if_pos rfl, hcounter, h.used]
  have hnext : satAdd32 ((s.withNic lastNet 0 ⟨0x0a000001⟩).nicCounter lastNet) 1 = 4294967295 := by
    rw [nicCounter, withNic, AList.lookup_insert, hcounter]
    decide
  have hnics : ∀ id nic, (s.withNic lastNet 0 ⟨0x0a000001⟩).nics.lookup id = some nic → id = nicId lastNet 4294967295 := by
    intro id nic hid
    rw [withNic, hcounter, Assoc.lookup_insert_ite] at hid
    split at hid
    · assumption
    · exact absurd hid (h.nics id nic)
  have hrun : run MemNetworkStore.apply s MemNetworkStore.lastIdTwice =
      (((s.apply (.attachNic lastNet 0 none)).2.apply (.attachNic lastNet 1 (some ⟨0x0a000002⟩))).2.detachNic
        (nicId lastNet 4294967295)).2 := rfl
  rw [hrun, hfirst]
  generalize s.withNic lastNet 0 ⟨0x0a000001⟩ = t at hused hnext hnetwork hnics
  -- The second one takes its place in `nics`.
  have hsecond : (t.apply (.attachNic lastNet 1 (some ⟨0x0a000002⟩))).2 = t.withNic lastNet 1 ⟨0x0a000002⟩ := by
    have hchoose : chooseIp tenNet.cidr (t.used lastNet) (some ⟨0x0a000002⟩) = .ok ⟨0x0a000002⟩ := by
      refine chooseIp_ok.2 ⟨?_, .inl ⟨rfl, by decide +kernel⟩⟩
      rw [hused, Assoc.lookup_insert_ite]
      rfl
    rcases t.attachNic_cases lastNet 1 (some ⟨0x0a000002⟩) with ⟨-, hno⟩ | ⟨v, ip, hv, -, hok, heq⟩
    · refine absurd hchoose (hno _ hnetwork ?_ _)
      rw [hused]
      exact Nat.lt_of_le_of_lt (Assoc.length_insert_le _ _ _) (by decide)
    · obtain rfl := Option.some.inj (hnetwork.symm.trans hv)
      obtain rfl := Except.ok.inj (hchoose.symm.trans hok)
      rw [apply, answer, heq]
  rw [hsecond]
  have hnic : (t.withNic lastNet 1 ⟨0x0a000002⟩).nics.lookup (nicId lastNet 4294967295) =
      some ⟨nicId lastNet 4294967295, lastNet, 1, ⟨0x0a000002⟩, makeMac lastNet 4294967295⟩ := by
    rw [withNic, hnext]
    exact AList.lookup_insert _
  refine @not_allocatesLowest_of_leak _ lastNet ⟨lastNet, "n1", "net", tenNet.cidr⟩ ?_ ?_ ⟨0x0a000001⟩ (by decide)
    (by decide) ?_
  · rw [(detachNic_frame _ _).1]
    exact hnetwork
  · intro id nic hid
    rw [nics_detachNic _ hnic, Assoc.lookup_erase_ite] at hid
    split at hid
    · cases hid
    · rename_i hne
      rw [withNic, hnext, Assoc.lookup_insert_ite, if_neg hne] at hid
      exact hne (hnics id nic hid)
  · rw [used_detachNic _ hnic, if_pos rfl, used_withNic, if_pos rfl, hused, hnext, Assoc.lookup_erase_ite,
      if_neg (by decide), Assoc.lookup_insert_ite, if_neg (by decide), AList.lookup_insert]
    exact Option.some_ne_none _

end MemNetworkStore

/-- **After the last id a detach frees one address of two**, and the next NIC gets a higher one than the lowest free. -/
theorem last_id_leaks :
    ¬ ∀ ops : List NetworkOp, ∀ s ∈ states MemNetworkStore.apply .new ops, s.AllocatesLowest := by
  intro hall
  have hidle := MemNetworkStore.idle_after (k := u32Max - 1) (Nat.sub_le _ _)
  refine hidle.lastIdTwice (Nat.sub_add_cancel (by decide)) ?_
  rw [← run_append]
  exact hall _ _ (run_mem_states _ _)

end Celium
