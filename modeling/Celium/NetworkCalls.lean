import Celium.Network
/-!
# NetworkCalls — the calls of a network store, and its addresses

The trait `NetworkStore` as one type of calls with their replies and `MemNetworkStore` as a step on them, the blocks of
new networks being ones that `Cidr4::parse` gave out.  Below that what the address arithmetic comes to for such a block:
the host addresses lie in it, strictly between its first and its last, and the linear scan of `attach_nic` finds the
lowest one that is free.
-/
namespace Celium

open Fixed

/-! ## Calls -/

/-- A block that `Cidr4::parse` gave out. -/
structure ParsedCidr where
  cidr : Cidr4
  parsed : ∃ text, Cidr4.parse text = .ok cidr

inductive NetworkOp where
  | createNetwork (owner name : String) (cidr : ParsedCidr)
  | deleteNetwork (id : NetworkId)
  | listNetworks
  | getNetwork (id : NetworkId)
  | attachNic (networkId : NetworkId) (vmId : UInt32) (ip : Option Ipv4Addr)
  | detachNic (id : NicId)
  | listNics
  | createSecurityGroup (owner name : String) (rules : List SecurityRule)
  | deleteSecurityGroup (id : SecurityGroupId)
  | listSecurityGroups
  | createLoadBalancer (owner name : String) (networkId : NetworkId) (vip : Ipv4Addr) (frontendPort : UInt16)
      (algo : LbAlgo) (backends : List LbBackend)
  | deleteLoadBalancer (id : LoadBalancerId)
  | listLoadBalancers

def NetworkOp.isAttach : NetworkOp → Bool
  | .attachNic .. => true
  | _ => false

inductive NetworkReply where
  | done
  | network (net : VirtualNetwork)
  | networks (nets : List VirtualNetwork)
  | found (net : Option VirtualNetwork)
  | nic (nic : Nic)
  | nics (nics : List Nic)
  | securityGroup (sg : SecurityGroup)
  | securityGroups (sgs : List SecurityGroup)
  | loadBalancer (lb : LoadBalancer)
  | loadBalancers (lbs : List LoadBalancer)
deriving DecidableEq

namespace MemNetworkStore

def new : MemNetworkStore := default

/-- A method's answer as a reply. -/
def answer {α : Type} (reply : α → NetworkReply) (p : CelResult α × MemNetworkStore) :
    CelResult NetworkReply × MemNetworkStore :=
  (p.1.map reply, p.2)

def apply (s : MemNetworkStore) : NetworkOp → CelResult NetworkReply × MemNetworkStore
  | .createNetwork owner name cidr => answer .network (s.createNetwork owner name cidr.cidr)
  | .deleteNetwork id => answer (fun _ => .done) (s.deleteNetwork id)
  | .listNetworks => (.ok (.networks s.listNetworks), s)
  | .getNetwork id => (.ok (.found (s.getNetwork id)), s)
  | .attachNic networkId vmId ip => answer .nic (s.attachNic networkId vmId ip)
  | .detachNic id => answer (fun _ => .done) (s.detachNic id)
  | .listNics => (.ok (.nics s.listNics), s)
  | .createSecurityGroup owner name rules => answer .securityGroup (s.createSecurityGroup owner name rules)
  | .deleteSecurityGroup id => answer (fun _ => .done) (s.deleteSecurityGroup id)
  | .listSecurityGroups => (.ok (.securityGroups s.listSecurityGroups), s)
  | .createLoadBalancer owner name networkId vip frontendPort algo backends =>
    answer .loadBalancer (s.createLoadBalancer owner name networkId vip frontendPort algo backends)
  | .deleteLoadBalancer id => answer (fun _ => .done) (s.deleteLoadBalancer id)
  | .listLoadBalancers => (.ok (.loadBalancers s.listLoadBalancers), s)

end MemNetworkStore

/-! ## Blocks -/

namespace Cidr4

/-- The last address of a block. -/
def broadcast (c : Cidr4) : Ipv4Addr := ⟨c.base.bits + ((1 <<< (32 - c.prefixLen.toUInt32)) - 1)⟩

/-- The lowest host address that is not used. -/
def LowestFree (c : Cidr4) (used : AList (fun _ : Ipv4Addr => NicId)) (addr : Ipv4Addr) : Prop :=
  ∃ n, c.nthHost n = some addr ∧ used.lookup addr = none ∧
    ∀ j < n, ∀ a, c.nthHost j = some a → (used.lookup a).isSome

/-- What `parse` promises of a block: a length from 1 to 31, and no bit of the base below it. -/
theorem parse_ok {text : String} {c : Cidr4} (h : parse text = .ok c) :
    0 < c.prefixLen.toNat ∧ c.prefixLen.toNat < 32 ∧ c.base.bits &&& mask c.prefixLen = c.base.bits := by
  unfold parse at h
  split at h
  · cases h
  · split at h
    · cases h
    · split at h
      · cases h
      · dsimp only at h
        split at h
        · cases h
        · rename_i hlen
          obtain rfl := Except.ok.inj h
          simp only [not_or, ge_iff_le, UInt8.not_le] at hlen
          obtain ⟨hpos, hlt⟩ := hlen
          refine ⟨?_, UInt8.lt_iff_toNat_lt.1 hlt, ?_⟩
          · exact Nat.pos_of_ne_zero fun h0 => hpos (UInt8.toNat_inj.1 h0)
          · rw [UInt32.and_assoc, UInt32.and_self]

theorem toNat_hostBits {p : UInt8} (h : p.toNat < 32) : (32 - p.toUInt32).toNat = 32 - p.toNat := by
  have hle : p.toUInt32 ≤ 32 := by
    rw [UInt32.le_iff_toNat_le, UInt8.toNat_toUInt32]
    exact Nat.le_of_lt h
  rw [UInt32.toNat_sub_of_le _ _ hle, UInt8.toNat_toUInt32]
  rfl

theorem toNat_one_shiftLeft {k : UInt32} (h : k.toNat < 32) : ((1 : UInt32) <<< k).toNat = 2 ^ k.toNat := by
  rw [UInt32.toNat_shiftLeft, Nat.mod_eq_of_lt h, UInt32.toNat_one, Nat.one_shiftLeft]
  exact Nat.mod_eq_of_lt (Nat.pow_lt_pow_right (by decide) h)

theorem toNat_and_mask (x : UInt32) {p : UInt8} (hpos : 0 < p.toNat) (h : p.toNat < 32) :
    (x &&& mask p).toNat = x.toNat / 2 ^ (32 - p.toNat) * 2 ^ (32 - p.toNat) := by
  have hk : (32 - p.toUInt32).toNat % 32 = 32 - p.toNat := by
    rw [toNat_hostBits h]
    omega
  rw [mask, UInt32.toNat_and, UInt32.toNat_shiftLeft, hk, ← Nat.shiftRight_eq_div_pow, ← Nat.shiftLeft_eq]
  apply Nat.eq_of_testBit_eq
  intro i
  have hx : ∀ j, 32 ≤ j → x.toNat.testBit j = false := by
    intro j hj
    exact Nat.testBit_lt_two_pow (Nat.lt_of_lt_of_le x.toNat_lt (Nat.pow_le_pow_right (by decide) hj))
  have hones : ∀ j, (4294967295 : UInt32).toNat.testBit j = decide (j < 32) := by
    intro j
    exact Nat.testBit_two_pow_sub_one 32 j
  rw [Nat.testBit_and, Nat.testBit_mod_two_pow, Nat.testBit_shiftLeft, Nat.testBit_shiftLeft, Nat.testBit_shiftRight, hones]
  by_cases hi : 32 - p.toNat ≤ i
  · have hsum : 32 - p.toNat + (i - (32 - p.toNat)) = i := by omega
    rw [hsum]
    by_cases hbig : 32 ≤ i
    · simp [hx i hbig]
    · simp [hi, Nat.not_le.1 hbig, show i - (32 - p.toNat) < 32 by omega]
  · simp [hi]

theorem contains_iff {c : Cidr4} (hpos : 0 < c.prefixLen.toNat) (hlt : c.prefixLen.toNat < 32) {addr : Ipv4Addr} :
    c.contains addr = true ↔
      addr.bits.toNat / 2 ^ (32 - c.prefixLen.toNat) * 2 ^ (32 - c.prefixLen.toNat) = c.base.bits.toNat := by
  have hne : c.prefixLen ≠ 0 := by
    intro h0
    rw [h0] at hpos
    exact absurd hpos (by decide)
  rw [contains, if_neg hne, beq_iff_eq, ← UInt32.toNat_inj, toNat_and_mask _ hpos hlt]

theorem toNat_capacity {c : Cidr4} (hpos : 0 < c.prefixLen.toNat) (hlt : c.prefixLen.toNat < 32) :
    c.capacity.toNat = 2 ^ (32 - c.prefixLen.toNat) - 2 := by
  have hbits := toNat_hostBits hlt
  rw [capacity, toNat_satSub32, toNat_one_shiftLeft (by omega), hbits]
  rfl

/-- **A host address lies in its block.** -/
theorem contains_nthHost {c : Cidr4} (hc : ∃ text, parse text = .ok c) {n : UInt32} {addr : Ipv4Addr}
    (h : c.nthHost n = some addr) : c.contains addr = true := by
  obtain ⟨text, htext⟩ := hc
  obtain ⟨hpos, hlt, hbase⟩ := parse_ok htext
  unfold nthHost at h
  split at h
  · cases h
  · rename_i hn
    obtain rfl := Option.some.inj h
    simp only [not_or, gt_iff_lt, UInt32.not_lt, UInt32.le_iff_toNat_le, toNat_capacity hpos hlt] at hn
    have hblock := congrArg UInt32.toNat hbase
    rw [toNat_and_mask _ hpos hlt] at hblock
    rw [contains_iff hpos hlt]
    have hwhole : ∃ r, 2 ^ 32 = r * 2 ^ (32 - c.prefixLen.toNat) := by
      refine ⟨2 ^ c.prefixLen.toNat, ?_⟩
      rw [← Nat.pow_add]
      congr 1
      omega
    have hsize := c.base.bits.toNat_lt
    generalize 2 ^ (32 - c.prefixLen.toNat) = b at *
    obtain ⟨r, hr⟩ := hwhole
    generalize hq : c.base.bits.toNat / b = q at hblock
    have hn0 : n.toNat ≠ 0 := fun h0 => hn.1 (UInt32.toNat_inj.1 h0)
    have hqr : q + 1 ≤ r := by
      by_contra hle
      have : r * b ≤ q * b := Nat.mul_le_mul_right b (by omega)
      omega
    have hroom : (q + 1) * b ≤ r * b := Nat.mul_le_mul_right b hqr
    rw [Nat.add_mul, Nat.one_mul] at hroom
    have hadd : (c.base.bits + n).toNat = n.toNat + b * q := by
      rw [UInt32.toNat_add, Nat.mod_eq_of_lt (by omega), ← hblock, Nat.mul_comm b q, Nat.add_comm]
    rw [hadd, Nat.add_mul_div_left _ _ (by omega), Nat.div_eq_of_lt (by omega), Nat.zero_add]
    exact hblock

/-- **A host address is neither the first nor the last of its block.** -/
theorem nthHost_ne {c : Cidr4} (hc : ∃ text, parse text = .ok c) {n : UInt32} {addr : Ipv4Addr}
    (h : c.nthHost n = some addr) : addr ≠ c.base ∧ addr ≠ c.broadcast := by
  obtain ⟨text, htext⟩ := hc
  obtain ⟨hpos, hlt, -⟩ := parse_ok htext
  unfold nthHost at h
  split at h
  · cases h
  · rename_i hn
    obtain rfl := Option.some.inj h
    simp only [not_or, gt_iff_lt, UInt32.not_lt, UInt32.le_iff_toNat_le, toNat_capacity hpos hlt] at hn
    have hn0 : n.toNat ≠ 0 := fun h0 => hn.1 (UInt32.toNat_inj.1 h0)
    constructor
    · intro heq
      have hbits : c.base.bits + n = c.base.bits := congrArg Ipv4Addr.bits heq
      exact hn.1 (by simpa using hbits)
    · intro heq
      have hbits : c.base.bits + n = c.base.bits + ((1 <<< (32 - c.prefixLen.toUInt32)) - 1) := congrArg Ipv4Addr.bits heq
      have hlast := congrArg UInt32.toNat ((UInt32.add_right_inj _).1 hbits)
      have hone : ((1 : UInt32) <<< (32 - c.prefixLen.toUInt32)).toNat = 2 ^ (32 - c.prefixLen.toNat) := by
        have hbits := toNat_hostBits hlt
        rw [toNat_one_shiftLeft (by omega), hbits]
      have hle : (1 : UInt32) ≤ 1 <<< (32 - c.prefixLen.toUInt32) := by
        rw [UInt32.le_iff_toNat_le, hone]
        exact Nat.one_le_two_pow
      rw [UInt32.toNat_sub_of_le _ _ hle, hone, UInt32.toNat_one] at hlast
      omega

theorem nthHost_some {c : Cidr4} {n : UInt32} {addr : Ipv4Addr} (h : c.nthHost n = some addr) : n ≠ 0 ∧ n ≤ c.capacity := by
  unfold nthHost at h
  split at h
  · cases h
  · rename_i hn
    simp only [not_or, gt_iff_lt, UInt32.not_lt] at hn
    exact hn

theorem capacity_lt (c : Cidr4) : c.capacity.toNat < 2 ^ 32 - 1 := by
  have := ((1 : UInt32) <<< (32 - c.prefixLen.toUInt32)).toNat_lt
  rw [capacity, toNat_satSub32, show (2 : UInt32).toNat = 2 from rfl]
  omega

end Cidr4

/-! ## The address of a new NIC -/

namespace MemNetworkStore

/-- What the scan finds from `n` on. -/
theorem firstFree_iff {c : Cidr4} {used : AList (fun _ : Ipv4Addr => NicId)} {addr : Ipv4Addr} :
    ∀ (left : Nat) (n : UInt32), n.toNat + left < 2 ^ 32 → (firstFree c used left n = some addr ↔
      ∃ k, n ≤ k ∧ k.toNat < n.toNat + left ∧ c.nthHost k = some addr ∧ used.lookup addr = none ∧
        ∀ j, n ≤ j → j < k → ∀ a, c.nthHost j = some a → (used.lookup a).isSome)
  | 0, n, _ => by
    refine iff_of_false nofun ?_
    rintro ⟨k, hle, hlt, -⟩
    rw [UInt32.le_iff_toNat_le] at hle
    omega
  | left + 1, n, hroom => by
    have hnext : (n + 1).toNat = n.toNat + 1 := by
      rw [UInt32.toNat_add, UInt32.toNat_one, Nat.mod_eq_of_lt (by omega)]
    have ih : firstFree c used left (n + 1) = some addr ↔ _ := firstFree_iff left (n + 1) (by omega)
    -- The scan goes on exactly if the `n`-th host is none or is used.
    have hskip : (∀ a, c.nthHost n = some a → (used.lookup a).isSome) →
        ((∃ k, n + 1 ≤ k ∧ k.toNat < (n + 1).toNat + left ∧ c.nthHost k = some addr ∧ used.lookup addr = none ∧
          ∀ j, n + 1 ≤ j → j < k → ∀ a, c.nthHost j = some a → (used.lookup a).isSome) ↔
        ∃ k, n ≤ k ∧ k.toNat < n.toNat + (left + 1) ∧ c.nthHost k = some addr ∧ used.lookup addr = none ∧
          ∀ j, n ≤ j → j < k → ∀ a, c.nthHost j = some a → (used.lookup a).isSome) := by
      intro hused
      simp only [UInt32.le_iff_toNat_le, UInt32.lt_iff_toNat_lt, hnext]
      constructor
      · rintro ⟨k, hle, hlt, hk, hfree, hbelow⟩
        refine ⟨k, by omega, by omega, hk, hfree, fun j hj hjk => ?_⟩
        by_cases hjn : j = n
        · rw [hjn]
          exact hused
        · have hne : j.toNat ≠ n.toNat := fun heq => hjn (UInt32.toNat_inj.1 heq)
          exact hbelow j (by omega) hjk
      · rintro ⟨k, hle, hlt, hk, hfree, hbelow⟩
        have hne : k.toNat ≠ n.toNat := by
          intro heq
          rw [UInt32.toNat_inj.1 heq] at hk
          have := hused addr hk
          rw [hfree] at this
          cases this
        exact ⟨k, by omega, by omega, hk, hfree, fun j hj hjk => hbelow j (by omega) hjk⟩
    rw [firstFree]
    cases hhost : c.nthHost n with
    | none => exact ih.trans (hskip (by rw [hhost]; nofun))
    | some a =>
      simp only
      split
      · rename_i hfree
        constructor
        · rintro ⟨⟩
          refine ⟨n, UInt32.le_refl n, by omega, hhost, Option.isNone_iff_eq_none.1 hfree, fun j hj hjn => ?_⟩
          rw [UInt32.le_iff_toNat_le] at hj
          rw [UInt32.lt_iff_toNat_lt] at hjn
          omega
        · rintro ⟨k, hle, -, hk, -, hbelow⟩
          by_cases hkn : k = n
          · rw [hkn, hhost] at hk
            exact hk
          · have hlt : n < k := UInt32.lt_of_le_of_ne hle (Ne.symm hkn)
            have := hbelow n (UInt32.le_refl n) hlt a hhost
            rw [Option.isNone_iff_eq_none.1 hfree] at this
            cases this
      · rename_i hused
        refine ih.trans (hskip ?_)
        intro a' ha'
        obtain rfl := Option.some.inj (hhost.symm.trans ha')
        exact Option.isSome_iff_ne_none.2 (by simpa using hused)

/-- **The scan finds the lowest free host address.** -/
theorem firstFree_eq_some {c : Cidr4} {used : AList (fun _ : Ipv4Addr => NicId)} {addr : Ipv4Addr} :
    firstFree c used c.capacity.toNat 1 = some addr ↔ c.LowestFree used addr := by
  have hcapacity := c.capacity_lt
  rw [firstFree_iff _ _ (by rw [UInt32.toNat_one]; omega), Cidr4.LowestFree]
  constructor
  · rintro ⟨k, -, -, hk, hfree, hbelow⟩
    refine ⟨k, hk, hfree, fun j hj a ha => hbelow j ?_ hj a ha⟩
    have := (Cidr4.nthHost_some ha).1
    rw [UInt32.le_iff_toNat_le]
    exact Nat.pos_of_ne_zero fun h0 => this (UInt32.toNat_inj.1 h0)
  · rintro ⟨k, hk, hfree, hbelow⟩
    obtain ⟨hne, hle⟩ := Cidr4.nthHost_some hk
    rw [UInt32.le_iff_toNat_le] at hle
    refine ⟨k, ?_, ?_, hk, hfree, fun j _ hj => hbelow j hj⟩
    · rw [UInt32.le_iff_toNat_le]
      exact Nat.pos_of_ne_zero fun h0 => hne (UInt32.toNat_inj.1 h0)
    · rw [UInt32.toNat_one]
      omega

/-- **A NIC gets an address that no NIC has**: the one it asks for, within the block, or else the lowest free one. -/
theorem chooseIp_ok {c : Cidr4} {used : AList (fun _ : Ipv4Addr => NicId)} {req : Option Ipv4Addr} {addr : Ipv4Addr} :
    chooseIp c used req = .ok addr ↔ used.lookup addr = none ∧
      ((req = some addr ∧ c.contains addr = true) ∨ (req = none ∧ c.LowestFree used addr)) := by
  cases req with
  | some ip =>
    simp only [chooseIp, Option.some.injEq, reduceCtorEq, false_and, or_false]
    split
    · rename_i hout
      refine iff_of_false nofun ?_
      rintro ⟨-, rfl, hin⟩
      simp [hin] at hout
    · rename_i hin
      split
      · rename_i hused
        refine iff_of_false nofun ?_
        rintro ⟨hnone, rfl, -⟩
        simp [hnone] at hused
      · rename_i hfree
        simp only [Except.ok.injEq]
        constructor
        · rintro rfl
          exact ⟨by simpa using hfree, rfl, by simpa using hin⟩
        · rintro ⟨-, rfl, -⟩
          rfl
  | none =>
    simp only [chooseIp, reduceCtorEq, false_and, true_and, false_or]
    rw [← firstFree_eq_some]
    cases hfirst : firstFree c used c.capacity.toNat 1 with
    | none => simp
    | some a =>
      simp only [Except.ok.injEq, Option.some.injEq]
      constructor
      · rintro rfl
        obtain ⟨n, -, hfree, -⟩ := firstFree_eq_some.1 hfirst
        exact ⟨hfree, rfl⟩
      · rintro ⟨-, rfl⟩
        rfl

/-! ## What a call can do -/

/-- The id of the `n`-th network, for the node `owner`. -/
def networkId (owner : String) (n : UInt64) : NetworkId := ⟨owner ++ "/n" ++ toString n.toNat⟩

/-- The id of the `n`-th NIC of a network. -/
def nicId (network : NetworkId) (n : UInt32) : NicId := ⟨network.raw ++ "/nic" ++ toString n.toNat⟩

/-- **A NIC's network and counter can be read off its id.** -/
theorem nicId_inj {net net' : NetworkId} {n m : UInt32} (h : nicId net n = nicId net' m) : net = net' ∧ n = m := by
  have hlist := congrArg (fun id => id.raw.toList) h
  have hsplit : (net.raw.toList ++ ['/', 'n']) ++ 'i' :: 'c' :: (toString n.toNat).toList =
      (net'.raw.toList ++ ['/', 'n']) ++ 'i' :: 'c' :: (toString m.toNat).toList := by
    simpa [nicId] using hlist
  obtain ⟨hnet, hcounter⟩ := Text.counted_inj (by decide) hsplit
  exact ⟨NetworkId.ext (String.toList_inj.1 (List.append_cancel_right hnet)), UInt32.toNat_inj.1 hcounter⟩

variable (s : MemNetworkStore)

/-- The addresses of a network that are taken. -/
def used (net : NetworkId) : AList (fun _ : Ipv4Addr => NicId) := (s.usedIps.lookup net).getD ∅

/-- The counter of a network's latest NIC. -/
def nicCounter (net : NetworkId) : UInt32 := (s.nextNic.lookup net).getD 0

/-- A NIC more. -/
def withNic (net : NetworkId) (vmId : UInt32) (ip : Ipv4Addr) : MemNetworkStore :=
  let counter := satAdd32 (s.nicCounter net) 1
  { s with nextNic := s.nextNic.insert net counter
           usedIps := s.usedIps.insert net ((s.used net).insert ip (nicId net counter))
           nics := s.nics.insert (nicId net counter) ⟨nicId net counter, net, vmId, ip, makeMac net counter⟩ }

theorem attachNic_cases (net : NetworkId) (vmId : UInt32) (req : Option Ipv4Addr) :
    ((∃ e, s.attachNic net vmId req = (.error e, s)) ∧
      ∀ v, s.networks.lookup net = some v → (s.used net).entries.length < maxNicsPerNetwork →
        ∀ ip, chooseIp v.cidr (s.used net) req ≠ .ok ip) ∨
      ∃ v ip, s.networks.lookup net = some v ∧ (s.used net).entries.length < maxNicsPerNetwork ∧
        chooseIp v.cidr (s.used net) req = .ok ip ∧
        s.attachNic net vmId req =
          (.ok ⟨nicId net (satAdd32 (s.nicCounter net) 1), net, vmId, ip, makeMac net (satAdd32 (s.nicCounter net) 1)⟩,
            s.withNic net vmId ip) := by
  unfold attachNic
  cases hnet : s.networks.lookup net with
  | none => exact .inl ⟨⟨_, rfl⟩, nofun⟩
  | some v =>
    simp only
    split
    · rename_i hcap
      exact .inl ⟨⟨_, rfl⟩, fun _ _ hroom => absurd hroom (Nat.not_lt.2 hcap)⟩
    · rename_i hcap
      cases hip : chooseIp v.cidr ((s.usedIps.lookup net).getD ∅) req with
      | error e =>
        refine .inl ⟨⟨e, rfl⟩, ?_⟩
        rintro _ ⟨⟩ - ip hok
        cases hip.symm.trans hok
      | ok ip => exact .inr ⟨v, ip, rfl, Nat.not_le.1 hcap, hip, rfl⟩

/-- The id that the next network gets. -/
def newNetworkId (owner : String) : NetworkId := networkId owner (satAdd64 s.nextNet 1)

/-- A network more. -/
def withNetwork (owner name : String) (cidr : Cidr4) : MemNetworkStore :=
  { s with nextNet := satAdd64 s.nextNet 1
           networks := s.networks.insert (s.newNetworkId owner) ⟨s.newNetworkId owner, owner, name, cidr⟩
           nextNic := s.nextNic.insert (s.newNetworkId owner) 0
           usedIps := s.usedIps.insert (s.newNetworkId owner) ∅ }

theorem createNetwork_cases (owner name : String) (cidr : Cidr4) :
    ((∃ e, s.createNetwork owner name cidr = (.error e, s)) ∧ validateName name ≠ .ok ()) ∨
      (validateName name = .ok () ∧ s.createNetwork owner name cidr =
        (.ok ⟨s.newNetworkId owner, owner, name, cidr⟩, s.withNetwork owner name cidr)) := by
  unfold createNetwork
  cases hname : validateName name with
  | error e => exact .inl ⟨⟨e, rfl⟩, nofun⟩
  | ok u => exact .inr ⟨rfl, rfl⟩

/-- A network less, with its load balancers. -/
def withoutNetwork (net : NetworkId) : MemNetworkStore :=
  { s with networks := s.networks.erase net
           nextNic := s.nextNic.erase net
           usedIps := s.usedIps.erase net
           lbs := ((s.lbs.entries.filter (fun e => e.2.networkId == net)).map (·.1)).foldl (fun m k => m.erase k) s.lbs }

theorem deleteNetwork_cases (net : NetworkId) :
    ((∃ e, s.deleteNetwork net = (.error e, s)) ∧ (s.used net).entries ≠ []) ∨
      ((s.used net).entries = [] ∧ s.deleteNetwork net = (.ok (), s.withoutNetwork net)) := by
  unfold deleteNetwork used
  cases hused : s.usedIps.lookup net with
  | none => exact .inr ⟨rfl, rfl⟩
  | some used =>
    simp only [Option.any_some, Option.getD_some]
    split
    · rename_i hne
      exact .inl ⟨⟨_, rfl⟩, by simpa using hne⟩
    · rename_i hnil
      exact .inr ⟨by simpa using hnil, rfl⟩

theorem mem_dropLbs {s : MemNetworkStore} {net : NetworkId} {id : LoadBalancerId} {lb : LoadBalancer} :
    (s.withoutNetwork net).lbs.lookup id = some lb ↔ s.lbs.lookup id = some lb ∧ lb.networkId ≠ net := by
  have hmem : id ∈ (s.lbs.entries.filter (fun e => e.2.networkId == net)).map (·.1) ↔
      ∃ lb, s.lbs.lookup id = some lb ∧ lb.networkId = net := by
    simp only [List.mem_map, List.mem_filter, beq_iff_eq]
    constructor
    · rintro ⟨⟨id', lb⟩, ⟨hmem, hnet⟩, rfl⟩
      exact ⟨lb, AList.mem_lookup_iff.2 hmem, hnet⟩
    · rintro ⟨lb, hlb, hnet⟩
      exact ⟨⟨id, lb⟩, ⟨AList.mem_lookup_iff.1 hlb, hnet⟩, rfl⟩
  simp only [withoutNetwork, Assoc.lookup_foldl_erase, hmem]
  constructor
  · intro h
    split at h
    · cases h
    · rename_i hkeep
      exact ⟨h, fun hnet => hkeep ⟨lb, h, hnet⟩⟩
  · rintro ⟨h, hne⟩
    rw [if_neg]
    · exact h
    · rintro ⟨lb', hlb', hnet⟩
      exact hne (Option.some.inj (h.symm.trans hlb') ▸ hnet)

/-- The name and the backends are within their limits, and the addresses inside the network's block. -/
def LbOk (name : String) (net : NetworkId) (vip : Ipv4Addr) (backends : List LbBackend) : Prop :=
  validateName name = .ok () ∧ backends.length ≤ maxBackendsPerLb ∧
    ∃ v, s.networks.lookup net = some v ∧ v.cidr.contains vip = true ∧ ∀ b ∈ backends, v.cidr.contains b.ip = true

theorem createLoadBalancer_cases (owner name : String) (net : NetworkId) (vip : Ipv4Addr) (frontendPort : UInt16)
    (algo : LbAlgo) (backends : List LbBackend) :
    ((∃ e, s.createLoadBalancer owner name net vip frontendPort algo backends = (.error e, s)) ∧
      ¬ s.LbOk name net vip backends) ∨
      ∃ lb, s.LbOk name net vip backends ∧ lb.networkId = net ∧ lb.vip = vip ∧ lb.backends = backends ∧
        s.createLoadBalancer owner name net vip frontendPort algo backends =
          (.ok lb, { s with nextLb := satAdd64 s.nextLb 1, lbs := s.lbs.insert lb.id lb }) := by
  unfold createLoadBalancer
  split
  · rename_i e hname
    refine .inl ⟨⟨_, rfl⟩, ?_⟩
    rintro ⟨hok, -⟩
    cases hname.symm.trans hok
  · rename_i hname
    split
    · rename_i hlen
      exact .inl ⟨⟨_, rfl⟩, fun hok => absurd hlen (Nat.not_lt.2 hok.2.1)⟩
    · rename_i hlen
      split
      · rename_i hnone
        refine .inl ⟨⟨_, rfl⟩, ?_⟩
        rintro ⟨-, -, v, hv, -⟩
        cases hnone.symm.trans hv
      · rename_i v hv
        split
        · rename_i hvip
          refine .inl ⟨⟨_, rfl⟩, ?_⟩
          rintro ⟨-, -, v', hv', hin, -⟩
          obtain rfl := Option.some.inj (hv.symm.trans hv')
          simp [hin] at hvip
        · rename_i hvip
          split
          · rename_i hbackends
            refine .inl ⟨⟨_, rfl⟩, ?_⟩
            rintro ⟨-, -, v', hv', -, hin⟩
            obtain rfl := Option.some.inj (hv.symm.trans hv')
            obtain ⟨b, hb, hout⟩ := List.any_eq_true.1 hbackends
            simp [hin b hb] at hout
          · rename_i hbackends
            refine .inr ⟨_, ⟨hname, Nat.not_lt.1 hlen, v, hv, by simpa using hvip, ?_⟩, rfl, rfl, rfl, rfl⟩
            simpa using hbackends

/-- The name, the number of rules and their ports are within their limits. -/
def SgOk (name : String) (rules : List SecurityRule) : Prop :=
  validateName name = .ok () ∧ rules.length ≤ maxRulesPerGroup ∧ ∀ r ∈ rules, r.portMin ≤ r.portMax

theorem createSecurityGroup_cases (owner name : String) (rules : List SecurityRule) :
    ((∃ e, s.createSecurityGroup owner name rules = (.error e, s)) ∧ ¬ SgOk name rules) ∨
      ∃ sg, SgOk name rules ∧ s.createSecurityGroup owner name rules =
        (.ok sg, { s with nextSg := satAdd64 s.nextSg 1, sgs := s.sgs.insert sg.id sg }) := by
  unfold createSecurityGroup
  split
  · rename_i e hname
    refine .inl ⟨⟨_, rfl⟩, ?_⟩
    rintro ⟨hok, -⟩
    cases hname.symm.trans hok
  · rename_i hname
    split
    · rename_i hlen
      exact .inl ⟨⟨_, rfl⟩, fun hok => absurd hlen (Nat.not_lt.2 hok.2.1)⟩
    · rename_i hlen
      split
      · rename_i hports
        refine .inl ⟨⟨_, rfl⟩, fun hok => ?_⟩
        obtain ⟨r, hr, hbad⟩ := List.any_eq_true.1 hports
        exact absurd (hok.2.2 r hr) (UInt16.not_le.2 (by simpa using hbad))
      · rename_i hports
        refine .inr ⟨_, ⟨hname, Nat.not_lt.1 hlen, fun r hr => ?_⟩, rfl⟩
        simpa using fun hlt => hports (List.any_eq_true.2 ⟨r, hr, hlt⟩)

/-- **A call that fails changes nothing.** -/
theorem apply_error {op : NetworkOp} {e : CelError} (h : (s.apply op).1 = .error e) : (s.apply op).2 = s := by
  cases op with
  | createNetwork owner name cidr =>
    rcases s.createNetwork_cases owner name cidr.cidr with ⟨⟨e', he⟩, -⟩ | ⟨-, hok⟩
    · simp only [apply, answer, he]
    · simp only [apply, answer, hok] at h
      cases h
  | deleteNetwork id =>
    rcases s.deleteNetwork_cases id with ⟨⟨e', he⟩, -⟩ | ⟨-, hok⟩
    · simp only [apply, answer, he]
    · simp only [apply, answer, hok] at h
      cases h
  | attachNic net vmId ip =>
    rcases s.attachNic_cases net vmId ip with ⟨⟨e', he⟩, -⟩ | ⟨v, addr, -, -, -, hok⟩
    · simp only [apply, answer, he]
    · simp only [apply, answer, hok] at h
      cases h
  | detachNic id =>
    simp only [apply, answer, detachNic] at h
    split at h
    · cases h
    · cases h
  | createSecurityGroup owner name rules =>
    rcases s.createSecurityGroup_cases owner name rules with ⟨⟨e', he⟩, -⟩ | ⟨sg, -, hok⟩
    · simp only [apply, answer, he]
    · simp only [apply, answer, hok] at h
      cases h
  | createLoadBalancer owner name net vip frontendPort algo backends =>
    rcases s.createLoadBalancer_cases owner name net vip frontendPort algo backends with
      ⟨⟨e', he⟩, -⟩ | ⟨lb, -, -, -, -, hok⟩
    · simp only [apply, answer, he]
    · simp only [apply, answer, hok] at h
      cases h
  | listNetworks | getNetwork id | listNics | deleteSecurityGroup id | listSecurityGroups | deleteLoadBalancer id
  | listLoadBalancers => cases h

/-! ## The addresses in use -/

theorem used_withNetwork (owner name : String) (cidr : Cidr4) (net : NetworkId) :
    (s.withNetwork owner name cidr).used net = if net = s.newNetworkId owner then ∅ else s.used net := by
  simp only [used, withNetwork, Assoc.lookup_insert_ite]
  split
  · rfl
  · rfl

theorem used_withoutNetwork (net net' : NetworkId) :
    (s.withoutNetwork net).used net' = if net' = net then ∅ else s.used net' := by
  simp only [used, withoutNetwork, Assoc.lookup_erase_ite]
  split
  · rfl
  · rfl

theorem used_withNic (net : NetworkId) (vmId : UInt32) (ip : Ipv4Addr) (net' : NetworkId) :
    (s.withNic net vmId ip).used net' =
      if net' = net then (s.used net).insert ip (nicId net (satAdd32 (s.nicCounter net) 1)) else s.used net' := by
  simp only [used, withNic, Assoc.lookup_insert_ite]
  split
  · rfl
  · rfl

/-- A NIC that is not there. -/
theorem detachNic_absent {id : NicId} (h : s.nics.lookup id = none) : s.detachNic id = (.ok (), s) := by
  simp only [detachNic, h]

theorem nics_detachNic {id : NicId} {nic : Nic} (h : s.nics.lookup id = some nic) :
    (s.detachNic id).2.nics = s.nics.erase id := by
  simp only [detachNic, h]

/-- A detach leaves networks, load balancers and counters alone. -/
theorem detachNic_frame (id : NicId) : (s.detachNic id).2.networks = s.networks ∧ (s.detachNic id).2.lbs = s.lbs ∧
    (s.detachNic id).2.nextNic = s.nextNic := by
  unfold detachNic
  split
  · exact ⟨rfl, rfl, rfl⟩
  · exact ⟨rfl, rfl, rfl⟩

/-- A NIC less. -/
theorem used_detachNic {id : NicId} {nic : Nic} (h : s.nics.lookup id = some nic) (net : NetworkId) :
    (s.detachNic id).2.used net = if net = nic.networkId then (s.used net).erase nic.ip else s.used net := by
  simp only [detachNic, h, used]
  cases hused : s.usedIps.lookup nic.networkId with
  | none =>
    simp only
    split
    · rename_i heq
      rw [heq, hused]
      rfl
    · rfl
  | some used =>
    simp only [Assoc.lookup_insert_ite]
    split
    · rename_i heq
      rw [heq, hused]
      rfl
    · rfl

end MemNetworkStore

end Celium
