import Celium.NetworkCoherent
import Mathlib.Data.Int.ModEq
import Mathlib.Data.Nat.Bitwise
import Mathlib.Data.Nat.Prime.Basic
/-!
# NetworkMac — the hardware addresses of the NICs of a network

`make_mac` keeps 40 bits of a product with an odd constant, from which the counter can be had back.  The counter of a
network goes up by one with each NIC and survives its detach; what sets it back is a create that gives out the id of the
network once more, for which `2 ^ 64` networks have to be created.
-/
namespace Celium

open Fixed Runs

/-! ## `make_mac` -/

/-- The multiplier of the hash. -/
def fnvPrime : Nat := 0x100000001b3

/-- **An odd factor can be cancelled where a number is cut at a power of two.** -/
theorem mod_eq_of_mul_odd {a b p k : Nat} (hp : p % 2 = 1) (h : a * p % 2 ^ k = b * p % 2 ^ k) : a % 2 ^ k = b % 2 ^ k := by
  have hcop : Nat.gcd (2 ^ k) p = 1 := Nat.Coprime.pow_left k (Nat.coprime_two_left.2 (Nat.odd_iff.2 hp))
  exact Nat.ModEq.cancel_right_of_coprime hcop h

theorem toNat_hashByte (h shift : UInt64) (hs : shift.toNat < 64) :
    (hashByte h shift).toNat = h.toNat / 2 ^ shift.toNat % 256 := by
  have hand : ∀ n, n &&& 255 = n % 256 := fun n => Nat.and_two_pow_sub_one_eq_mod n 8
  rw [hashByte, UInt64.toNat_toUInt8, UInt64.toNat_and, UInt64.toNat_shiftRight, Nat.mod_eq_of_lt hs, Nat.shiftRight_eq_div_pow]
  change (_ &&& 255) % 2 ^ 8 = _
  rw [hand]
  exact Nat.mod_mod _ 256

/-- The bytes of a hardware address are the low 40 bits of the hash. -/
theorem low_of_hashByte {g h : UInt64} (heq : ∀ shift ∈ [32, 24, 16, 8, (0 : UInt64)], hashByte g shift = hashByte h shift) :
    g.toNat % 2 ^ 40 = h.toNat % 2 ^ 40 := by
  have hat : ∀ shift : UInt64, shift ∈ [32, 24, 16, 8, (0 : UInt64)] → shift.toNat < 64 →
      g.toNat / 2 ^ shift.toNat % 256 = h.toNat / 2 ^ shift.toNat % 256 := by
    intro shift hmem hs
    rw [← toNat_hashByte g shift hs, ← toNat_hashByte h shift hs, heq shift hmem]
  have h32 := hat 32 (by simp) (by decide)
  have h24 := hat 24 (by simp) (by decide)
  have h16 := hat 16 (by simp) (by decide)
  have h8 := hat 8 (by simp) (by decide)
  have h0 := hat 0 (by simp) (by decide)
  simp only [show (32 : UInt64).toNat = 32 from rfl, show (24 : UInt64).toNat = 24 from rfl,
    show (16 : UInt64).toNat = 16 from rfl, show (8 : UInt64).toNat = 8 from rfl,
    show (0 : UInt64).toNat = 0 from rfl] at h32 h24 h16 h8 h0
  omega

/-- The hash of the network's id. -/
def networkHash (network : NetworkId) : UInt64 :=
  (utf8 network.raw).foldl (fun (h : UInt64) b => (h ^^^ b.toUInt64) * 0x100000001b3) 0xcbf29ce484222325

theorem toList_makeMac (network : NetworkId) (idx : UInt32) :
    (makeMac network idx).toList =
      0x02 :: [32, 24, 16, 8, 0].map (hashByte ((networkHash network ^^^ idx.toUInt64) * 0x100000001b3)) := rfl

/-- **On one network each counter has an address of its own.** -/
theorem makeMac_injective (network : NetworkId) : Function.Injective (makeMac network) := by
  intro i j h
  have hbytes := congrArg Vector.toList h
  rw [toList_makeMac, toList_makeMac] at hbytes
  have hlow := low_of_hashByte (List.map_inj_left.1 (List.cons.inj hbytes).2)
  have hcut : ∀ x : UInt64, (x * 0x100000001b3).toNat % 2 ^ 40 = x.toNat * fnvPrime % 2 ^ 40 := by
    intro x
    rw [UInt64.toNat_mul, Nat.mod_mod_of_dvd _ (Nat.pow_dvd_pow 2 (by decide))]
    rfl
  rw [hcut, hcut] at hlow
  have hxor := mod_eq_of_mul_odd (by decide) hlow
  rw [UInt64.toNat_xor, UInt64.toNat_xor, Nat.xor_mod_two_pow, Nat.xor_mod_two_pow] at hxor
  have hij := Nat.xor_right_injective hxor
  have hi := i.toNat_lt
  have hj := j.toNat_lt
  rw [UInt32.toNat_toUInt64, UInt32.toNat_toUInt64, Nat.mod_eq_of_lt (by omega), Nat.mod_eq_of_lt (by omega)] at hij
  exact UInt32.toNat_inj.1 hij

/-! ## Calls -/

namespace MemNetworkStore

/-- The NIC that a call put on the network, if it did. -/
def nicOf (net : NetworkId) : CelResult NetworkReply → Option Nic
  | .ok (.nic nic) => if nic.networkId = net then some nic else none
  | _ => none

/-- The addresses of all NICs that a run puts on the network, in order. -/
def macs (net : NetworkId) (s : MemNetworkStore) (ops : List NetworkOp) : List (Vector UInt8 6) :=
  ((answers apply s ops).filterMap (nicOf net)).map (·.mac)

/-- The call creates a network with this id. -/
def Gives (net : NetworkId) (s : MemNetworkStore) : NetworkOp → Prop
  | .createNetwork owner name _ => validateName name = .ok () ∧ s.newNetworkId owner = net
  | _ => False

/-- What a call can do to a network's counter. -/
inductive CounterStep (net : NetworkId) (s : MemNetworkStore) (op : NetworkOp) : Prop where
  | attach (nic : Nic) (hnic : nicOf net (s.apply op).1 = some nic)
      (mac : nic.mac = makeMac net (satAdd32 (s.nicCounter net) 1)) (live : (s.networks.lookup net).isSome)
      (counter : (s.apply op).2.nicCounter net = satAdd32 (s.nicCounter net) 1)
  | create (hnic : nicOf net (s.apply op).1 = none) (gives : Gives net s op) (counter : (s.apply op).2.nicCounter net = 0)
  | delete (hnic : nicOf net (s.apply op).1 = none) (dead : (s.apply op).2.networks.lookup net = none)
      (counter : (s.apply op).2.nicCounter net = 0)
  | other (hnic : nicOf net (s.apply op).1 = none)
      (live : (s.apply op).2.networks.lookup net = s.networks.lookup net)
      (counter : (s.apply op).2.nicCounter net = s.nicCounter net)

/-- A call that is refused leaves the store as it is. -/
theorem CounterStep.refused {net : NetworkId} {s : MemNetworkStore} {op : NetworkOp} {e : CelError}
    (h : s.apply op = (.error e, s)) : CounterStep net s op := by
  refine .other ?_ ?_ ?_
  · rw [h]
    rfl
  · rw [h]
  · rw [h]

theorem counterStep (net : NetworkId) (s : MemNetworkStore) (op : NetworkOp) : CounterStep net s op := by
  cases op with
  | createNetwork owner name cidr =>
    rcases s.createNetwork_cases owner name cidr.cidr with ⟨⟨e, he⟩, -⟩ | ⟨hname, hok⟩
    · exact .refused (by rw [apply, answer, he]; rfl)
    · have hstate : (s.apply (.createNetwork owner name cidr)).2 = s.withNetwork owner name cidr.cidr := by
        rw [apply, answer, hok]
      have hnic : nicOf net (s.apply (.createNetwork owner name cidr)).1 = none := by
        rw [apply, answer, hok]
        rfl
      by_cases hnet : net = s.newNetworkId owner
      · refine .create hnic ⟨hname, hnet.symm⟩ ?_
        rw [hstate, nicCounter, withNetwork, Assoc.lookup_insert_ite, if_pos hnet]
        rfl
      · refine .other hnic ?_ ?_
        · rw [hstate, withNetwork, Assoc.lookup_insert_ite, if_neg hnet]
        · rw [hstate, nicCounter, withNetwork, Assoc.lookup_insert_ite, if_neg hnet]
          rfl
  | deleteNetwork id =>
    rcases s.deleteNetwork_cases id with ⟨⟨e, he⟩, -⟩ | ⟨-, hok⟩
    · exact .refused (by rw [apply, answer, he]; rfl)
    · have hstate : (s.apply (.deleteNetwork id)).2 = s.withoutNetwork id := by rw [apply, answer, hok]
      have hnic : nicOf net (s.apply (.deleteNetwork id)).1 = none := by
        rw [apply, answer, hok]
        rfl
      by_cases hnet : net = id
      · refine .delete hnic ?_ ?_
        · rw [hstate, withoutNetwork, Assoc.lookup_erase_ite, if_pos hnet]
        · rw [hstate, nicCounter, withoutNetwork, Assoc.lookup_erase_ite, if_pos hnet]
          rfl
      · refine .other hnic ?_ ?_
        · rw [hstate, withoutNetwork, Assoc.lookup_erase_ite, if_neg hnet]
        · rw [hstate, nicCounter, withoutNetwork, Assoc.lookup_erase_ite, if_neg hnet]
          rfl
  | attachNic net' vmId ip =>
    rcases s.attachNic_cases net' vmId ip with ⟨⟨e, he⟩, -⟩ | ⟨v, addr, hlive, -, -, hok⟩
    · exact .refused (by rw [apply, answer, he]; rfl)
    · have hstate : (s.apply (.attachNic net' vmId ip)).2 = s.withNic net' vmId addr := by rw [apply, answer, hok]
      by_cases hnet : net' = net
      · subst hnet
        refine .attach _ (by rw [apply, answer, hok]; exact if_pos rfl) rfl (by rw [hlive]; rfl) ?_
        rw [hstate, nicCounter, withNic, AList.lookup_insert]
        rfl
      · refine .other (by rw [apply, answer, hok]; exact if_neg hnet) (by rw [hstate]; rfl) ?_
        rw [hstate, nicCounter, withNic, Assoc.lookup_insert_ite, if_neg (Ne.symm hnet)]
        rfl
  | detachNic id =>
    obtain ⟨hnetworks, -, hcounters⟩ := s.detachNic_frame id
    have hnic : nicOf net (s.apply (.detachNic id)).1 = none := by
      rw [apply, answer]
      cases (s.detachNic id).1 <;> rfl
    exact .other hnic (by rw [apply, answer, hnetworks]) (by rw [apply, answer, nicCounter, hcounters]; rfl)
  | createSecurityGroup owner name rules =>
    rcases s.createSecurityGroup_cases owner name rules with ⟨⟨e, he⟩, -⟩ | ⟨sg, -, hok⟩
    · exact .refused (by rw [apply, answer, he]; rfl)
    · exact .other (by rw [apply, answer, hok]; rfl) (by rw [apply, answer, hok]) (by rw [apply, answer, hok]; rfl)
  | createLoadBalancer owner name net' vip frontendPort algo backends =>
    rcases s.createLoadBalancer_cases owner name net' vip frontendPort algo backends with
      ⟨⟨e, he⟩, -⟩ | ⟨lb, -, -, -, -, hok⟩
    · exact .refused (by rw [apply, answer, he]; rfl)
    · exact .other (by rw [apply, answer, hok]; rfl) (by rw [apply, answer, hok]) (by rw [apply, answer, hok]; rfl)
  | listNetworks | getNetwork id | listNics | deleteSecurityGroup id | listSecurityGroups | deleteLoadBalancer id
  | listLoadBalancers => exact .other rfl rfl rfl

/-! ## Runs -/

theorem macs_cons (net : NetworkId) (s : MemNetworkStore) (op : NetworkOp) (ops : List NetworkOp) :
    macs net s (op :: ops) = ((nicOf net (s.apply op).1).map (·.mac)).toList ++ macs net (s.apply op).2 ops := by
  rw [macs, answers, List.filterMap_cons]
  cases nicOf net (s.apply op).1 <;> rfl

theorem macs_cons_none {net : NetworkId} {s : MemNetworkStore} {op : NetworkOp} (h : nicOf net (s.apply op).1 = none)
    (ops : List NetworkOp) : macs net s (op :: ops) = macs net (s.apply op).2 ops := by
  rw [macs_cons, h]
  rfl

theorem macs_append (net : NetworkId) (s : MemNetworkStore) (as bs : List NetworkOp) :
    macs net s (as ++ bs) = macs net s as ++ macs net (run apply s as) bs := by
  induction as generalizing s with
  | nil => rfl
  | cons op as ih => rw [List.cons_append, macs_cons, macs_cons, ih, List.append_assoc]; rfl

theorem length_macs (net : NetworkId) (s : MemNetworkStore) (ops : List NetworkOp) :
    (macs net s ops).length = (answers apply s ops).countP (isAttached net) := by
  rw [macs, List.length_map, List.length_filterMap_eq_countP]
  refine List.countP_congr fun answer _ => ?_
  unfold nicOf isAttached
  split
  · split <;> simp_all
  · simp_all

/-- The network's id is given out once more between two NICs. -/
def Reused (net : NetworkId) (s : MemNetworkStore) (ops : List NetworkOp) : Prop :=
  ∃ pre op post, ops = pre ++ op :: post ∧ Gives net (run apply s pre) op ∧ macs net s pre ≠ [] ∧
    macs net ((run apply s pre).apply op).2 post ≠ []

/-- The addresses of the `n` counters after `c`. -/
def macsFrom (net : NetworkId) (c n : Nat) : List (Vector UInt8 6) :=
  (List.range' (c + 1) n).map (fun k => makeMac net (UInt32.ofNat k))

theorem nodup_macsFrom (net : NetworkId) {c n : Nat} (h : c + n < 2 ^ 32) : (macsFrom net c n).Nodup := by
  refine List.Nodup.map_on (fun k hk k' hk' heq => ?_) List.nodup_range'
  have hinj := congrArg UInt32.toNat (makeMac_injective net heq)
  rw [List.mem_range'_1] at hk hk'
  rwa [UInt32.toNat_ofNat_of_lt' (by change k < 2 ^ 32; omega),
    UInt32.toNat_ofNat_of_lt' (by change k' < 2 ^ 32; omega)] at hinj

/-- **As long as its id is not given out again, a network's NICs get the counters in order.**  The first create of the
network sets the counter to zero, where it is. -/
theorem macs_eq_macsFrom {net : NetworkId} {ops : List NetworkOp} {s : MemNetworkStore} {c : Nat}
    (hlive : (s.networks.lookup net).isSome → (s.nicCounter net).toNat = c)
    (hroom : c + (macs net s ops).length < 2 ^ 32)
    (hkept : ∀ pre op post, ops = pre ++ op :: post → Gives net (run apply s pre) op →
      (c = 0 ∧ macs net s pre = []) ∨ macs net ((run apply s pre).apply op).2 post = []) :
    macs net s ops = macsFrom net c (macs net s ops).length := by
  induction ops generalizing s c with
  | nil => rfl
  | cons op ops ih =>
    have hrest : ∀ {pre' op' post'}, ops = pre' ++ op' :: post' → Gives net (run apply (s.apply op).2 pre') op' →
        (c = 0 ∧ macs net s (op :: pre') = []) ∨
          macs net ((run apply (s.apply op).2 pre').apply op').2 post' = [] := fun heq hgives =>
      hkept (op :: _) _ _ (by rw [heq]; rfl) hgives
    cases counterStep net s op with
    | attach nic hnic mac live counter =>
      have hc := hlive live
      rw [macs_cons, hnic] at hroom ⊢
      change c + (nic.mac :: macs net (s.apply op).2 ops).length < 2 ^ 32 at hroom
      rw [List.length_cons] at hroom
      have hnext : (satAdd32 (s.nicCounter net) 1).toNat = c + 1 := by
        rw [toNat_satAdd32, hc]
        change min (c + 1) (2 ^ 32 - 1) = c + 1
        omega
      have htail := ih (s := (s.apply op).2) (c := c + 1) (fun _ => by rw [counter, hnext]) (by omega)
        fun pre' op' post' heq hgives => (hrest heq hgives).imp (fun h => by
          have hnil := h.2
          rw [macs_cons, hnic] at hnil
          cases hnil) id
      have hhead : nic.mac = makeMac net (UInt32.ofNat (c + 1)) := by
        rw [mac, ← hnext, UInt32.ofNat_toNat]
      change nic.mac :: macs net (s.apply op).2 ops = macsFrom net c ((macs net (s.apply op).2 ops).length + 1)
      rw [macsFrom, List.range'_succ, List.map_cons, ← hhead]
      exact congrArg _ htail
    | create hnic gives counter =>
      rw [macs_cons_none hnic] at hroom ⊢
      rcases hkept [] op ops rfl gives with ⟨rfl, -⟩ | hnone
      · refine ih (fun _ => by rw [counter]; rfl) hroom fun pre' op' post' heq hgives => ?_
        have := hrest heq hgives
        rwa [macs_cons_none hnic] at this
      · change macs net (s.apply op).2 ops = [] at hnone
        rw [hnone]
        rfl
    | delete hnic dead counter =>
      rw [macs_cons_none hnic] at hroom ⊢
      refine ih (fun live => by rw [dead] at live; cases live) hroom fun pre' op' post' heq hgives => ?_
      have := hrest heq hgives
      rwa [macs_cons_none hnic] at this
    | other hnic live counter =>
      rw [macs_cons_none hnic] at hroom ⊢
      refine ih (fun h => by rw [counter]; exact hlive (live ▸ h)) hroom fun pre' op' post' heq hgives => ?_
      have := hrest heq hgives
      rwa [macs_cons_none hnic] at this

/-- Where the counter is at zero, the next NIC gets the first address. -/
theorem head_macs {net : NetworkId} {ops : List NetworkOp} {s : MemNetworkStore} (hzero : s.nicCounter net = 0)
    (hne : macs net s ops ≠ []) : ∃ rest, macs net s ops = makeMac net 1 :: rest := by
  induction ops generalizing s with
  | nil => exact absurd rfl hne
  | cons op ops ih =>
    cases counterStep net s op with
    | attach nic hnic mac live counter =>
      rw [macs_cons, hnic]
      refine ⟨macs net (s.apply op).2 ops, ?_⟩
      rw [hzero] at mac
      change nic.mac :: _ = _
      rw [mac]
      rfl
    | create hnic gives counter =>
      rw [macs_cons_none hnic] at hne ⊢
      exact ih counter hne
    | delete hnic dead counter =>
      rw [macs_cons_none hnic] at hne ⊢
      exact ih counter hne
    | other hnic live counter =>
      rw [macs_cons_none hnic] at hne ⊢
      exact ih (counter.trans hzero) hne

/-- A create that gives out the id sets the counter to zero. -/
theorem Gives.counter {net : NetworkId} {s : MemNetworkStore} {op : NetworkOp} (h : Gives net s op) :
    (s.apply op).2.nicCounter net = 0 := by
  cases op with
  | createNetwork owner name cidr =>
    obtain ⟨hname, rfl⟩ := h
    rcases s.createNetwork_cases owner name cidr.cidr with ⟨-, hbad⟩ | ⟨-, hok⟩
    · exact absurd hname hbad
    · rw [apply, answer, hok, nicCounter, withNetwork, AList.lookup_insert]
      rfl
  | _ => cases h

/-- **Where fewer than `2 ^ 32 - 1` NICs are ever attached to it, the NICs of a network have addresses of their own exactly
if its id is not given out once more between two of them.** -/
theorem nodup_macs_iff {net : NetworkId} {ops : List NetworkOp}
    (hfew : (answers apply .new ops).countP (isAttached net) < 2 ^ 32 - 1) :
    (macs net .new ops).Nodup ↔ ¬ Reused net .new ops := by
  constructor
  · rintro hnodup ⟨pre, op, post, rfl, hgives, hpre, hpost⟩
    obtain ⟨before, hbefore⟩ := head_macs (s := .new) rfl hpre
    obtain ⟨after, hafter⟩ := head_macs hgives.counter hpost
    have hnone : nicOf net ((run apply .new pre).apply op).1 = none := by
      cases op with
      | createNetwork owner name cidr =>
        rw [apply, answer]
        cases ((run apply .new pre).createNetwork owner name cidr.cidr).1 <;> rfl
      | _ => cases hgives
    rw [macs_append, macs_cons_none hnone, hbefore, hafter] at hnodup
    exact (List.nodup_append.1 hnodup).2.2 _ List.mem_cons_self _ List.mem_cons_self rfl
  · intro hkept
    rw [← length_macs] at hfew
    rw [macs_eq_macsFrom (s := .new) (c := 0) (fun h => by cases h) (by omega) fun pre op post heq hgives => ?_]
    · exact nodup_macsFrom net (by omega)
    · by_cases hpre : macs net .new pre = []
      · exact .inl ⟨rfl, hpre⟩
      · exact .inr (by_contra fun hpost => hkept ⟨pre, op, post, heq, hgives, hpre, hpost⟩)

/-- A network that gets a NIC has had its id given out. -/
theorem gaveOut_of_macs {net : NetworkId} {ops : List NetworkOp} {s : MemNetworkStore} (hi : s.Issued)
    (h : macs net s ops ≠ []) : (run apply s ops).GaveOut net := by
  induction ops generalizing s with
  | nil => exact absurd rfl h
  | cons op ops ih =>
    have hnext := (apply_issues s op).issued hi
    have hstep : nicOf net (s.apply op).1 = none → (run apply (s.apply op).2 ops).GaveOut net := fun hnic =>
      ih hnext (by rwa [macs_cons_none hnic] at h)
    cases counterStep net s op with
    | attach nic hnic mac live counter =>
      exact (hi.network net live).mono (run_nextNet (op :: ops) s)
    | create hnic gives counter => exact hstep hnic
    | delete hnic dead counter => exact hstep hnic
    | other hnic live counter => exact hstep hnic

/-- **Where fewer than `2 ^ 64` networks are created no id is given out again.** -/
theorem not_reused {net : NetworkId} {ops : List NetworkOp} (h : (answers apply new ops).countP isNetwork < 2 ^ 64) :
    ¬ Reused net new ops := by
  rintro ⟨pre, op, post, rfl, hgives, hpre, -⟩
  have hzero : new.nextNet.toNat = 0 := rfl
  obtain ⟨hleft, -⟩ := (along_append.1 (networkLeft_along _ new (by rwa [hzero, Nat.zero_add]))).2
  cases op with
  | createNetwork owner name cidr =>
    obtain ⟨hname, rfl⟩ := hgives
    exact not_gaveOut_new (hleft.room hname) owner (gaveOut_of_macs new_issued hpre)
  | deleteNetwork id | listNetworks | getNetwork id | attachNic net vmId ip | detachNic id | listNics
  | createSecurityGroup owner name rules | deleteSecurityGroup id | listSecurityGroups
  | createLoadBalancer owner name net vip frontendPort algo backends | deleteLoadBalancer id | listLoadBalancers =>
    cases hgives

end MemNetworkStore

/-- **Hardware addresses are unique on a network**: two counters never share one, and over a run in which fewer than
`2 ^ 32 - 1` NICs are ever attached to one network, and fewer than `2 ^ 64` networks are created, no two NICs do; in any
run they do not exactly if no id is given out again in between. -/
theorem mac_unique_iff (ops : List NetworkOp)
    (h : ∀ net, (answers MemNetworkStore.apply .new ops).countP (MemNetworkStore.isAttached net) < 2 ^ 32 - 1) :
    (∀ net i j, i ≠ j → makeMac net i ≠ makeMac net j) ∧
    ((answers MemNetworkStore.apply .new ops).countP MemNetworkStore.isNetwork < 2 ^ 64 →
      ∀ net, (MemNetworkStore.macs net .new ops).Nodup) ∧
    ((∀ net, (MemNetworkStore.macs net .new ops).Nodup) ↔ ∀ net, ¬ MemNetworkStore.Reused net .new ops) :=
  ⟨fun net _ _ hne heq => hne (makeMac_injective net heq),
    fun hnets net => (MemNetworkStore.nodup_macs_iff (h net)).2 (MemNetworkStore.not_reused hnets),
    forall_congr' fun net => MemNetworkStore.nodup_macs_iff (h net)⟩

/-- Two NICs of one network, one of them detached. -/
theorem mac_unique_two :
    (∀ net, (answers MemNetworkStore.apply .new twoNics).countP (MemNetworkStore.isAttached net) < 2 ^ 32 - 1) ∧
    (answers MemNetworkStore.apply .new twoNics).countP MemNetworkStore.isNetwork < 2 ^ 64 ∧
    ∀ net, (MemNetworkStore.macs net .new twoNics).Nodup := by
  have hfew : ∀ net, (answers MemNetworkStore.apply .new twoNics).countP (MemNetworkStore.isAttached net) < 2 ^ 32 - 1 :=
    fun net => Nat.lt_of_le_of_lt (attached_le net twoNics .new) (by decide)
  have hnets : (answers MemNetworkStore.apply .new twoNics).countP MemNetworkStore.isNetwork < 2 ^ 64 :=
    Nat.lt_of_le_of_lt List.countP_le_length (by rw [length_answers]; decide)
  exact ⟨hfew, hnets, (mac_unique_iff twoNics hfew).2.1 hnets⟩

namespace MemNetworkStore

/-- The first NIC of a network that was just created. -/
theorem macs_attach_new (s : MemNetworkStore) :
    macs (s.newNetworkId "n1") (s.withNetwork "n1" "net" tenNet.cidr) [.attachNic (s.newNetworkId "n1") 0 none] =
      [makeMac (s.newNetworkId "n1") 1] := by
  have hnetwork : (s.withNetwork "n1" "net" tenNet.cidr).networks.lookup (s.newNetworkId "n1") =
      some ⟨s.newNetworkId "n1", "n1", "net", tenNet.cidr⟩ := AList.lookup_insert _
  have hused : (s.withNetwork "n1" "net" tenNet.cidr).usedIps.lookup (s.newNetworkId "n1") = some ∅ :=
    AList.lookup_insert _
  have hcounter : (s.withNetwork "n1" "net" tenNet.cidr).nextNic.lookup (s.newNetworkId "n1") = some 0 :=
    AList.lookup_insert _
  have hchoose : chooseIp tenNet.cidr ∅ none = .ok ⟨0x0a000001⟩ := by decide +kernel
  rw [macs_cons, apply, answer, attachNic, hnetwork]
  simp only [hused, hcounter, Option.getD_some, hchoose]
  change ((nicOf (s.newNetworkId "n1") (.ok (.nic _))).map (·.mac)).toList ++ [] = _
  rw [nicOf, if_pos rfl]
  rfl

theorem nextNet_attach (s : MemNetworkStore) (net : NetworkId) (vmId : UInt32) (ip : Option Ipv4Addr) :
    (s.apply (.attachNic net vmId ip)).2.nextNet = s.nextNet := by
  rcases s.attachNic_cases net vmId ip with ⟨⟨e, he⟩, -⟩ | ⟨v, addr, -, -, -, hok⟩
  · rw [apply, answer, he]
  · rw [apply, answer, hok]
    rfl

end MemNetworkStore

/-- **Once every network counter is given out, the last network is created again and its NICs get their addresses once
more.** -/
theorem reused_network_mac :
    ∃ ops : List NetworkOp,
      (∀ net, (answers MemNetworkStore.apply .new ops).countP (MemNetworkStore.isAttached net) < 2 ^ 32 - 1) ∧
      ∃ net, ¬ (MemNetworkStore.macs net .new ops).Nodup := by
  obtain ⟨s, hs, hlast⟩ := last_network
  let net := MemNetworkStore.networkId "n1" 18446744073709551615
  have hnet : s.newNetworkId "n1" = net := by rw [MemNetworkStore.newNetworkId, hlast]
  refine ⟨createTimes (2 ^ 64 - 1) ++ [.attachNic net 0 none, .createNetwork "n1" "net" tenNet, .attachNic net 0 none],
    fun n => ?_, net, ?_⟩
  · refine Nat.lt_of_le_of_lt (attached_le n _ .new) ?_
    rw [List.countP_append, createTimes, List.countP_replicate]
    decide
  · let first := s.withNetwork "n1" "net" tenNet.cidr
    let t := (first.apply (.attachNic net 0 none)).2
    have hagain : t.newNetworkId "n1" = net := by
      change MemNetworkStore.networkId "n1" (satAdd64 (first.apply (.attachNic net 0 none)).2.nextNet 1) = net
      rw [MemNetworkStore.nextNet_attach]
      change MemNetworkStore.networkId "n1" (satAdd64 (satAdd64 s.nextNet 1) 1) = net
      rw [hlast]
      rfl
    have hfirst : MemNetworkStore.macs net first [.attachNic net 0 none] = [makeMac net 1] := by
      have := s.macs_attach_new
      rwa [hnet] at this
    have hsecond : MemNetworkStore.macs net (t.withNetwork "n1" "net" tenNet.cidr) [.attachNic net 0 none] =
        [makeMac net 1] := by
      have := t.macs_attach_new
      rwa [hagain] at this
    have hcreate : MemNetworkStore.macs net t [.createNetwork "n1" "net" tenNet, .attachNic net 0 none] =
        MemNetworkStore.macs net (t.withNetwork "n1" "net" tenNet.cidr) [.attachNic net 0 none] := by
      rw [← apply_createTen]
      refine MemNetworkStore.macs_cons_none ?_ _
      rw [MemNetworkStore.apply, MemNetworkStore.answer]
      cases (t.createNetwork "n1" "net" tenNet.cidr).1 <;> rfl
    have hrest : MemNetworkStore.macs net first
        [.attachNic net 0 none, .createNetwork "n1" "net" tenNet, .attachNic net 0 none] =
        [makeMac net 1, makeMac net 1] := by
      have hsplit := MemNetworkStore.macs_append net first [.attachNic net 0 none]
        [.createNetwork "n1" "net" tenNet, .attachNic net 0 none]
      change _ = MemNetworkStore.macs net first [.attachNic net 0 none] ++ MemNetworkStore.macs net t _ at hsplit
      rw [hfirst, hcreate, hsecond] at hsplit
      exact hsplit
    rw [MemNetworkStore.macs_append, hs]
    intro hnodup
    have hpart := (List.nodup_append.1 hnodup).2.1
    change (MemNetworkStore.macs net first _).Nodup at hpart
    rw [hrest] at hpart
    simp at hpart

end Celium
