import Celium.Lib.Runs
import Celium.NetworkCalls
/-!
# NetworkIds — whatever has an id in a store got it there

A network's id is its owner and a counter, and so is a load balancer's; a NIC's is its network's with a counter of that
network's own.  The counters only grow, so until they are used up the next network and the next load balancer get ids
that nothing in the store has, or ever had.
-/
namespace Celium

open Fixed Runs

namespace MemNetworkStore

/-- The id of the `n`-th load balancer, for the node `owner`. -/
def loadBalancerId (owner : String) (n : UInt64) : LoadBalancerId := ⟨owner ++ "/lb" ++ toString n.toNat⟩

theorem networkId_inj {owner owner' : String} {n m : UInt64} (h : networkId owner n = networkId owner' m) : n = m := by
  have hlist := congrArg (fun id => id.raw.toList) h
  have hsplit : owner.toList ++ '/' :: 'n' :: (toString n.toNat).toList =
      owner'.toList ++ '/' :: 'n' :: (toString m.toNat).toList := by
    simpa [networkId] using hlist
  exact UInt64.toNat_inj.1 (Text.counted_inj (by decide) hsplit).2

theorem loadBalancerId_inj {owner owner' : String} {n m : UInt64}
    (h : loadBalancerId owner n = loadBalancerId owner' m) : n = m := by
  have hlist := congrArg (fun id => id.raw.toList) h
  have hsplit : (owner.toList ++ ['/']) ++ 'l' :: 'b' :: (toString n.toNat).toList =
      (owner'.toList ++ ['/']) ++ 'l' :: 'b' :: (toString m.toNat).toList := by
    simpa [loadBalancerId] using hlist
  exact UInt64.toNat_inj.1 (Text.counted_inj (by decide) hsplit).2

variable (s : MemNetworkStore)

/-- A network has had this id. -/
def GaveOut (net : NetworkId) : Prop := ∃ owner k, net = networkId owner k ∧ k.toNat ≤ s.nextNet.toNat

/-- A load balancer has had this id. -/
def GaveOutLb (id : LoadBalancerId) : Prop := ∃ owner k, id = loadBalancerId owner k ∧ k.toNat ≤ s.nextLb.toNat

/-- Whatever is in the store has an id that was given out, and is on a network whose id was. -/
structure Issued : Prop where
  network : ∀ net, (s.networks.lookup net).isSome → s.GaveOut net
  usedIps : ∀ net, (s.usedIps.lookup net).isSome → s.GaveOut net
  nic : ∀ id nic, s.nics.lookup id = some nic → s.GaveOut nic.networkId ∧ ∃ k, id = nicId nic.networkId k
  lb : ∀ id lb, s.lbs.lookup id = some lb → s.GaveOut lb.networkId ∧ s.GaveOutLb id

variable {s} {s' : MemNetworkStore}

theorem GaveOut.mono {net : NetworkId} (hle : s.nextNet.toNat ≤ s'.nextNet.toNat) : s.GaveOut net → s'.GaveOut net := by
  rintro ⟨owner, k, rfl, hk⟩
  exact ⟨owner, k, rfl, hk.trans hle⟩

theorem GaveOutLb.mono {id : LoadBalancerId} (hle : s.nextLb.toNat ≤ s'.nextLb.toNat) :
    s.GaveOutLb id → s'.GaveOutLb id := by
  rintro ⟨owner, k, rfl, hk⟩
  exact ⟨owner, k, rfl, hk.trans hle⟩

/-- **The next network has an id of its own** as long as there is one. -/
theorem not_gaveOut_new (hroom : s.nextNet.toNat < u64Max) (owner : String) : ¬ s.GaveOut (s.newNetworkId owner) := by
  rintro ⟨owner', k, hid, hk⟩
  rw [← networkId_inj hid, toNat_satAdd64, UInt64.toNat_one] at hk
  omega

/-- **So has the next load balancer.** -/
theorem not_gaveOutLb_new (hroom : s.nextLb.toNat < u64Max) (owner : String) :
    ¬ s.GaveOutLb (loadBalancerId owner (satAdd64 s.nextLb 1)) := by
  rintro ⟨owner', k, hid, hk⟩
  rw [← loadBalancerId_inj hid, toNat_satAdd64, UInt64.toNat_one] at hk
  omega

theorem new_issued : new.Issued :=
  ⟨fun _ h => (by cases h), fun _ h => (by cases h), fun _ _ h => (by cases h), fun _ _ h => (by cases h)⟩

/-! ## One call -/

/-- What a call does to the ids and to the counters of networks and load balancers: it gives out `nets` of the one and
`lbs` of the other, at most. -/
structure Issues (s s' : MemNetworkStore) (nets lbs : Nat) : Prop where
  nets_le : s.nextNet.toNat ≤ s'.nextNet.toNat
  le_nets : s'.nextNet.toNat ≤ s.nextNet.toNat + nets
  lbs_le : s.nextLb.toNat ≤ s'.nextLb.toNat
  le_lbs : s'.nextLb.toNat ≤ s.nextLb.toNat + lbs
  issued : s.Issued → s'.Issued

/-- A call that gives out nothing. -/
theorem Issues.of_kept {n m : Nat} (hkept : s'.nextNet = s.nextNet ∧ s'.nextLb = s.nextLb) (h : s.Issued → s'.Issued) :
    Issues s s' n m := by
  obtain ⟨hnet, hlb⟩ := hkept
  refine ⟨by rw [hnet], ?_, by rw [hlb], ?_, h⟩
  · rw [hnet]
    exact Nat.le_add_right _ _
  · rw [hlb]
    exact Nat.le_add_right _ _

theorem Issues.refl (s : MemNetworkStore) {n m : Nat} : Issues s s n m := .of_kept ⟨rfl, rfl⟩ id

theorem Issues.mono {n m n' m' : Nat} (h : Issues s s' n m) (hn : n ≤ n') (hm : m ≤ m') : Issues s s' n' m' :=
  ⟨h.nets_le, h.le_nets.trans (Nat.add_le_add_left hn _), h.lbs_le, h.le_lbs.trans (Nat.add_le_add_left hm _), h.issued⟩

theorem createNetwork_issues (s : MemNetworkStore) (owner name : String) (cidr : Cidr4) :
    Issues s (s.createNetwork owner name cidr).2 (if (s.createNetwork owner name cidr).1.isOk then 1 else 0) 0 := by
  rcases s.createNetwork_cases owner name cidr with ⟨⟨e, he⟩, -⟩ | ⟨-, hok⟩
  · rw [he]
    exact .refl s
  · rw [hok]
    have hnext : (s.withNetwork owner name cidr).nextNet.toNat = min (s.nextNet.toNat + 1) u64Max := toNat_satAdd64 _ _
    have hmax := le_u64Max s.nextNet
    have hle : s.nextNet.toNat ≤ (s.withNetwork owner name cidr).nextNet.toNat := by omega
    have hnew : (s.withNetwork owner name cidr).GaveOut (s.newNetworkId owner) := ⟨owner, _, rfl, Nat.le_refl _⟩
    refine ⟨hle, ?_, Nat.le_refl _, Nat.le_refl _, fun h => ⟨fun net hnet => ?_, fun net hnet => ?_, fun id nic hnic => ?_,
      fun id lb hlb => ?_⟩⟩
    · change (s.withNetwork owner name cidr).nextNet.toNat ≤ s.nextNet.toNat + 1
      omega
    · simp only [withNetwork, Assoc.lookup_insert_ite] at hnet
      split at hnet
      · rename_i heq
        rw [heq]
        exact hnew
      · exact (h.network net hnet).mono hle
    · simp only [withNetwork, Assoc.lookup_insert_ite] at hnet
      split at hnet
      · rename_i heq
        rw [heq]
        exact hnew
      · exact (h.usedIps net hnet).mono hle
    · exact (h.nic id nic hnic).imp_left (·.mono hle)
    · exact (h.lb id lb hlb).imp_left (·.mono hle)

theorem deleteNetwork_issues (s : MemNetworkStore) (net : NetworkId) : Issues s (s.deleteNetwork net).2 0 0 := by
  rcases s.deleteNetwork_cases net with ⟨⟨e, he⟩, -⟩ | ⟨-, hok⟩
  · rw [he]
    exact .refl s
  · rw [hok]
    refine .of_kept ⟨rfl, rfl⟩ fun h => ⟨fun net' hnet' => ?_, fun net' hnet' => ?_, h.nic, fun id lb hlb => ?_⟩
    · simp only [withoutNetwork, Assoc.lookup_erase_ite] at hnet'
      split at hnet'
      · cases hnet'
      · exact h.network net' hnet'
    · simp only [withoutNetwork, Assoc.lookup_erase_ite] at hnet'
      split at hnet'
      · cases hnet'
      · exact h.usedIps net' hnet'
    · exact h.lb id lb (mem_dropLbs.1 hlb).1

theorem attachNic_issues (s : MemNetworkStore) (net : NetworkId) (vmId : UInt32) (ip : Option Ipv4Addr) :
    Issues s (s.attachNic net vmId ip).2 0 0 := by
  rcases s.attachNic_cases net vmId ip with ⟨⟨e, he⟩, -⟩ | ⟨v, addr, hv, -, -, hok⟩
  · rw [he]
    exact .refl s
  · rw [hok]
    refine .of_kept ⟨rfl, rfl⟩ fun h => ?_
    -- A NIC goes on a network that is there.
    have hlive : s.GaveOut net := h.network net (by rw [hv]; rfl)
    refine ⟨h.network, fun net' hnet' => ?_, fun id nic hnic => ?_, h.lb⟩
    · simp only [withNic, Assoc.lookup_insert_ite] at hnet'
      split at hnet'
      · rename_i heq
        rw [heq]
        exact hlive
      · exact h.usedIps net' hnet'
    · simp only [withNic, Assoc.lookup_insert_ite] at hnic
      split at hnic
      · rename_i heq
        obtain rfl := Option.some.inj hnic
        exact ⟨hlive, _, heq⟩
      · exact h.nic id nic hnic

theorem detachNic_issues (s : MemNetworkStore) (id : NicId) : Issues s (s.detachNic id).2 0 0 := by
  cases hnic : s.nics.lookup id with
  | none =>
    rw [s.detachNic_absent hnic]
    exact .refl s
  | some nic =>
    obtain ⟨hnetworks, hlbs, -⟩ := s.detachNic_frame id
    have hcounters : (s.detachNic id).2.nextNet = s.nextNet ∧ (s.detachNic id).2.nextLb = s.nextLb := by
      simp only [detachNic, hnic, and_self]
    refine .of_kept hcounters fun h => ?_
    have hgave : ∀ {net}, s.GaveOut net → (s.detachNic id).2.GaveOut net := GaveOut.mono (by rw [hcounters.1])
    refine ⟨fun net hnet => ?_, fun net hnet => ?_, fun id' nic' hnic' => ?_, fun id' lb hlb => ?_⟩
    · rw [hnetworks] at hnet
      exact hgave (h.network net hnet)
    · refine hgave (h.usedIps net ?_)
      simp only [detachNic, hnic] at hnet
      split at hnet
      · exact hnet
      · rename_i used hused
        rw [Assoc.lookup_insert_ite] at hnet
        split at hnet
        · rename_i heq
          rw [heq, hused]
          rfl
        · exact hnet
    · rw [s.nics_detachNic hnic, Assoc.lookup_erase_ite] at hnic'
      split at hnic'
      · cases hnic'
      · exact (h.nic id' nic' hnic').imp_left hgave
    · rw [hlbs] at hlb
      exact (h.lb id' lb hlb).imp hgave (GaveOutLb.mono (by rw [hcounters.2]))

theorem createSecurityGroup_issues (s : MemNetworkStore) (owner name : String) (rules : List SecurityRule) :
    Issues s (s.createSecurityGroup owner name rules).2 0 0 := by
  rcases s.createSecurityGroup_cases owner name rules with ⟨⟨e, he⟩, -⟩ | ⟨sg, -, hok⟩
  · rw [he]
    exact .refl s
  · rw [hok]
    exact .of_kept ⟨rfl, rfl⟩ fun h => ⟨h.network, h.usedIps, h.nic, h.lb⟩

theorem deleteSecurityGroup_issues (s : MemNetworkStore) (id : SecurityGroupId) :
    Issues s (s.deleteSecurityGroup id).2 0 0 :=
  .of_kept ⟨rfl, rfl⟩ fun h => ⟨h.network, h.usedIps, h.nic, h.lb⟩

theorem createLoadBalancer_id {owner name : String} {net : NetworkId} {vip : Ipv4Addr} {frontendPort : UInt16}
    {algo : LbAlgo} {backends : List LbBackend} {lb : LoadBalancer} {s' : MemNetworkStore}
    (h : s.createLoadBalancer owner name net vip frontendPort algo backends = (.ok lb, s')) :
    lb.id = loadBalancerId owner (satAdd64 s.nextLb 1) := by
  simp only [createLoadBalancer] at h
  repeat' split at h
  all_goals cases h
  rfl

theorem createLoadBalancer_issues (s : MemNetworkStore) (owner name : String) (net : NetworkId) (vip : Ipv4Addr)
    (frontendPort : UInt16) (algo : LbAlgo) (backends : List LbBackend) :
    Issues s (s.createLoadBalancer owner name net vip frontendPort algo backends).2 0
      (if (s.createLoadBalancer owner name net vip frontendPort algo backends).1.isOk then 1 else 0) := by
  rcases s.createLoadBalancer_cases owner name net vip frontendPort algo backends with
    ⟨⟨e, he⟩, -⟩ | ⟨lb, ⟨-, -, v, hv, -⟩, rfl, -, -, hok⟩
  · rw [he]
    exact .refl s
  · have hid := createLoadBalancer_id hok
    rw [hok]
    have hnext : (satAdd64 s.nextLb 1).toNat = min (s.nextLb.toNat + 1) u64Max := toNat_satAdd64 _ _
    have hmax := le_u64Max s.nextLb
    refine ⟨Nat.le_refl _, Nat.le_refl _, ?_, ?_, fun h => ⟨h.network, h.usedIps, h.nic, fun id lb' hlb' => ?_⟩⟩
    · change s.nextLb.toNat ≤ (satAdd64 s.nextLb 1).toNat
      omega
    · change (satAdd64 s.nextLb 1).toNat ≤ s.nextLb.toNat + 1
      omega
    · rw [Assoc.lookup_insert_ite] at hlb'
      split at hlb'
      · rename_i heq
        obtain rfl := Option.some.inj hlb'
        exact ⟨h.network _ (by rw [hv]; rfl), owner, _, heq.trans hid, Nat.le_refl _⟩
      · refine (h.lb id lb' hlb').imp_right (GaveOutLb.mono ?_)
        change s.nextLb.toNat ≤ (satAdd64 s.nextLb 1).toNat
        omega

theorem deleteLoadBalancer_issues (s : MemNetworkStore) (id : LoadBalancerId) :
    Issues s (s.deleteLoadBalancer id).2 0 0 := by
  refine .of_kept ⟨rfl, rfl⟩ fun h => ⟨h.network, h.usedIps, h.nic, fun id' lb hlb => ?_⟩
  simp only [deleteLoadBalancer, Assoc.lookup_erase_ite] at hlb
  split at hlb
  · cases hlb
  · exact h.lb id' lb hlb

/-! ## Runs of calls -/

/-- The answer to a `create_network` that went through. -/
def isNetwork : CelResult NetworkReply → Bool
  | .ok (.network _) => true
  | _ => false

/-- **One call.** -/
theorem apply_issues (s : MemNetworkStore) (op : NetworkOp) :
    Issues s (s.apply op).2 (if isNetwork (s.apply op).1 then 1 else 0) 1 := by
  have hzero : ∀ {t : MemNetworkStore} {n : Nat}, Issues s t 0 0 → Issues s t n 1 :=
    fun h => h.mono (Nat.zero_le _) (Nat.zero_le _)
  cases op with
  | createNetwork owner name cidr =>
    have h := s.createNetwork_issues owner name cidr.cidr
    have hreply : isNetwork (s.apply (.createNetwork owner name cidr)).1 =
        (s.createNetwork owner name cidr.cidr).1.isOk := by
      rw [apply, answer]
      cases (s.createNetwork owner name cidr.cidr).1 <;> rfl
    rw [hreply]
    exact h.mono (Nat.le_refl _) (Nat.zero_le _)
  | deleteNetwork id => exact hzero (s.deleteNetwork_issues id)
  | attachNic net vmId ip => exact hzero (s.attachNic_issues net vmId ip)
  | detachNic id => exact hzero (s.detachNic_issues id)
  | createSecurityGroup owner name rules => exact hzero (s.createSecurityGroup_issues owner name rules)
  | deleteSecurityGroup id => exact hzero (s.deleteSecurityGroup_issues id)
  | createLoadBalancer owner name net vip frontendPort algo backends =>
    have h := s.createLoadBalancer_issues owner name net vip frontendPort algo backends
    refine h.mono (Nat.zero_le _) ?_
    split
    · exact Nat.le_refl _
    · exact Nat.le_succ _
  | deleteLoadBalancer id => exact hzero (s.deleteLoadBalancer_issues id)
  | listNetworks | getNetwork id | listNics | listSecurityGroups | listLoadBalancers => exact .refl s

/-- A network that is created has a counter of its own. -/
def NetworkLeft (s : MemNetworkStore) (op : NetworkOp) : Prop := isNetwork (s.apply op).1 = true → s.nextNet.toNat < u64Max

theorem NetworkLeft.room {s : MemNetworkStore} {owner name : String} {cidr : ParsedCidr}
    (h : s.NetworkLeft (.createNetwork owner name cidr)) (hname : validateName name = .ok ()) : s.nextNet.toNat < u64Max := by
  rcases s.createNetwork_cases owner name cidr.cidr with ⟨-, hbad⟩ | ⟨-, hok⟩
  · exact absurd hname hbad
  · refine h ?_
    rw [apply, answer, hok]
    rfl

/-- Where fewer than `2 ^ 64` networks are created, each of them has a counter of its own. -/
theorem networkLeft_along (ops : List NetworkOp) (s : MemNetworkStore)
    (h : s.nextNet.toNat + (answers apply s ops).countP isNetwork < 2 ^ 64) : Along apply NetworkLeft s ops := by
  induction ops generalizing s with
  | nil => trivial
  | cons op ops ih =>
    rw [answers, List.countP_cons] at h
    have hle := (apply_issues s op).le_nets
    refine ⟨fun hnew => ?_, ih _ (by omega)⟩
    rw [if_pos hnew] at h
    unfold u64Max
    omega

theorem run_nextNet (ops : List NetworkOp) (s : MemNetworkStore) :
    s.nextNet.toNat ≤ (run apply s ops).nextNet.toNat := by
  induction ops generalizing s with
  | nil => exact Nat.le_refl _
  | cons op ops ih => exact (apply_issues s op).nets_le.trans (ih _)

/-- **In a run every id is one that was given out.** -/
theorem issued_states (ops : List NetworkOp) : ∀ s ∈ states apply new ops, s.Issued :=
  inv_states (fun s op h => (apply_issues s op).issued h) new_issued ops

end MemNetworkStore

end Celium
