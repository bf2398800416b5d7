import Celium.HostIds
import Celium.K8sCreate
/-!
# K8sDestroy — what is left of a cluster that is torn down

Each call of `destroy` goes through after a creation on the same node, and together they take away what the creation
added.  What it put in the place of something else is gone for good: the ids of networks and load balancers come from
counters that saturate, and after `2 ^ 64 - 1` of them a creation takes over the network or the load balancer that has the
last id.
-/
namespace Celium

open Fixed Runs

/-! ## What the nodes have -/

theorem Provisioned.nics {net : NetworkId} {h h' : MemVmHost} {n : K8sNodeRecord} (hp : Provisioned net h n h')
    (id : NicId) : h'.nets.nics.lookup id = if id = n.nic.id then some n.nic else h.nets.nics.lookup id := by
  obtain ⟨s, -, rfl⟩ := hp.host
  have hnic := hp.nic
  simp only [MemNetworkStore.withNic, Assoc.lookup_insert_ite]
  rw [← hnic]
  have hid : n.nic.id = MemNetworkStore.nicId net (satAdd32 (h.nets.nicCounter net) 1) := by rw [hnic]
  rw [hid]

/-- A NIC under another id stays. -/
theorem ProvisionedAll.nics_other {net : NetworkId} {h h' : MemVmHost} {ns : List K8sNodeRecord}
    (hp : ProvisionedAll net h ns h') {id : NicId} (hid : id ∉ ns.map (·.nic.id)) :
    h'.nets.nics.lookup id = h.nets.nics.lookup id := by
  induction hp with
  | nil h => rfl
  | cons first rest ih =>
    rw [List.map_cons, List.mem_cons, not_or] at hid
    rw [ih hid.2, first.nics, if_neg hid.1]

/-- The addresses of other networks stay as they are. -/
theorem ProvisionedAll.usedIps_other {net net' : NetworkId} {h h' : MemVmHost} {ns : List K8sNodeRecord}
    (hp : ProvisionedAll net h ns h') (hne : net' ≠ net) :
    h'.nets.usedIps.lookup net' = h.nets.usedIps.lookup net' := by
  induction hp with
  | nil h => rfl
  | cons first rest ih =>
    obtain ⟨s, -, rfl⟩ := first.host
    rw [ih]
    exact AList.lookup_insert_ne hne

/-- The ids of the NICs on from the `k`-th. -/
theorem ProvisionedAll.nicIds {net : NetworkId} {c : Cidr4} {base : MemNetworkStore} {k : Nat} {h h' : MemVmHost}
    {ns : List K8sNodeRecord} (hc : c.Exact) (hp : ProvisionedAll net h ns h') (hf : Filled net c base k h.nets) :
    (∀ n ∈ ns, n.nic.networkId = net ∧ h'.nets.nics.lookup n.nic.id = some n.nic) ∧
      (∀ id, id ∈ ns.map (·.nic.id) ↔
        ∃ j, Among (k + ns.length) j ∧ ¬ Among k j ∧ id = MemNetworkStore.nicId net j) ∧
      (ns.map (·.nic.id)).Nodup := by
  induction hp generalizing k with
  | nil h =>
    refine ⟨fun n hn => absurd hn List.not_mem_nil, fun id => iff_of_false List.not_mem_nil ?_, List.nodup_nil⟩
    rintro ⟨j, hj, hno, -⟩
    exact hno hj
  | @cons h h1 h' n ns first rest ih =>
    obtain ⟨s, -, rfl⟩ := first.host
    obtain ⟨v, hv, hlow⟩ := first.network
    obtain ⟨v', hv', rfl⟩ := hf.network
    obtain rfl := Option.some.inj (hv.symm.trans hv')
    obtain ⟨m, hm, hmip⟩ := hf.lowestFree hc hlow
    have hcap : k + 1 ≤ u32Max := by
      have := m.toNat_lt
      unfold u32Max
      omega
    have hid := hf.nextId hcap hm
    have hnicid : n.nic.id = MemNetworkStore.nicId net m := by rw [first.nic, hid]
    have hnicnet : n.nic.networkId = net := by rw [first.nic]
    have hnext := hf.withNic hc n.vmId hlow
    obtain ⟨hpresent, hids, hnodup⟩ := ih hnext
    have hlast := rest.filled hc hnext
    have hnew : n.nic.id ∉ ns.map (·.nic.id) := by
      rw [hids, hnicid]
      rintro ⟨j, -, hno, heq⟩
      have := (MemNetworkStore.nicId_inj heq).2
      subst this
      exact hno ⟨by omega, by omega⟩
    refine ⟨?_, fun id => ?_, ?_⟩
    · intro n' hn'
      rcases List.mem_cons.1 hn' with rfl | hn'
      · refine ⟨hnicnet, ?_⟩
        rw [rest.nics_other hnew, first.nics, if_pos rfl]
      · exact hpresent n' hn'
    · rw [List.map_cons, List.mem_cons, hids, hnicid, List.length_cons]
      constructor
      · rintro (rfl | ⟨j, hj, hno, rfl⟩)
        · exact ⟨m, ⟨by omega, by omega⟩, fun h => absurd h.2 (by omega), rfl⟩
        · exact ⟨j, ⟨hj.1, by have := hj.2; omega⟩, fun h => hno ⟨h.1, by have := h.2; omega⟩, rfl⟩
      · rintro ⟨j, hj, hno, rfl⟩
        by_cases hjm : j = m
        · exact .inl (by rw [hjm])
        · refine .inr ⟨j, ⟨hj.1, by have := hj.2; omega⟩, ?_, rfl⟩
          rintro ⟨hlo, hhi⟩
          have hne : j.toNat ≠ m.toNat := fun h => hjm (UInt32.toNat_inj.1 h)
          exact hno ⟨hlo, by omega⟩
    · rw [List.map_cons, List.nodup_cons]
      exact ⟨hnew, hnodup⟩

/-- The VMs are in slots that were free, one each, and the other slots are as they were. -/
theorem ProvisionedAll.slots {net : NetworkId} {h h' : MemVmHost} {ns : List K8sNodeRecord}
    (hp : ProvisionedAll net h ns h') :
    (∀ n ∈ ns, h.slots[n.vmId.toNat]? = some none ∧
      ∃ s, h'.slots[n.vmId.toNat]? = some (some s) ∧ s.state.isTerminal = true) ∧
    (∀ i, i ∉ ns.map (·.vmId.toNat) → h'.slots[i]? = h.slots[i]?) ∧ (ns.map (·.vmId.toNat)).Nodup := by
  induction hp with
  | nil h => exact ⟨fun n hn => absurd hn List.not_mem_nil, fun _ _ => rfl, List.nodup_nil⟩
  | @cons h h1 h' n ns first rest ih =>
    obtain ⟨hthere, hothers, hnodup⟩ := ih
    obtain ⟨s, hs, rfl⟩ := first.host
    have hlt := MemVmHost.lt_of_slot first.free
    simp only [Vector.getElem?_setIfInBounds] at hthere hothers
    have hne : ∀ n' ∈ ns, n.vmId.toNat ≠ n'.vmId.toNat := by
      intro n' hn' heq
      have hfree := (hthere n' hn').1
      rw [if_pos heq, if_pos hlt] at hfree
      cases hfree
    have hnew : n.vmId.toNat ∉ ns.map (·.vmId.toNat) := by
      intro hmem
      obtain ⟨n', hn', heq⟩ := List.mem_map.1 hmem
      exact hne n' hn' heq.symm
    refine ⟨?_, ?_, ?_⟩
    · intro n' hn'
      rcases List.mem_cons.1 hn' with rfl | hn'
      · refine ⟨first.free, s, ?_, hs⟩
        rw [hothers _ hnew, if_pos rfl, if_pos hlt]
      · have h' := hthere n' hn'
        rw [if_neg (hne n' hn')] at h'
        exact h'
    · intro i hi
      rw [List.map_cons, List.mem_cons, not_or] at hi
      rw [hothers i hi.2, if_neg (Ne.symm hi.1)]
    · rw [List.map_cons, List.nodup_cons]
      exact ⟨hnew, hnodup⟩

/-! ## The calls of a teardown -/

namespace MemVmHost

variable {h : MemVmHost} {i : UInt32} {s : Slot}

theorem slots_ext {v w : Vector (Option Slot) maxSlots} (heq : ∀ i : Nat, v[i]? = w[i]?) : v = w := by
  apply Vector.ext
  intro i hi
  have := heq i
  rwa [Vector.getElem?_eq_getElem hi, Vector.getElem?_eq_getElem hi, Option.some_inj] at this

theorem slotMut_of_slot (hslot : h.slots[i.toNat]? = some (some s)) : h.slotMut i = .ok s := by
  rw [slotMut, hslot]

/-- Stopping a VM that is at its end leaves it as it is. -/
theorem stop_terminal (hslot : h.slots[i.toNat]? = some (some s)) (hs : s.state.isTerminal = true) :
    h.stop i = (.ok (.state i s.state.tag), h) := by
  have hkeep : h.slots.setIfInBounds i.toNat (some s) = h.slots := by
    apply slots_ext
    intro j
    rw [Vector.getElem?_setIfInBounds]
    split
    · rename_i heq
      rw [if_pos (lt_of_slot hslot), ← heq, hslot]
    · rfl
  rw [stop, slotMut_of_slot hslot]
  simp only [hs, Bool.not_true, Bool.false_eq_true, if_false, setSlot, hkeep]

theorem delete_terminal (hslot : h.slots[i.toNat]? = some (some s)) (hs : s.state.isTerminal = true) :
    h.delete i = (.ok (.deleted i), h.setSlot i none) := by
  rw [delete, slotMut_of_slot hslot]
  simp only [hs, Bool.not_true, Bool.false_eq_true, if_false]

end MemVmHost

namespace K8sCluster

variable {o : K8sOwner} {ow : String}

theorem invoke_served {op : VmOp} {r : VmOpReply} {h : MemVmHost} (hlocal : o.carriage = [])
    (hcap : o.host.caps.contains (Capabilities.required op) = true) (hd : o.host.dispatch op = (.ok r, h))
    (how : h.owner = some ow) : o.invoke op = (.ok r, { o with host := h }) := by
  have happly : o.host.apply op = (.ok r, h) := by
    rw [MemVmHost.apply, if_neg (by simp [hcap]), hd]
  unfold K8sOwner.invoke
  split
  · rw [K8sOwner.serve, happly]
    simp only [MemVmHost.rememberOwner_known how]
  · rename_i cs hcs
    rw [hlocal] at hcs
    cases hcs
  · rename_i e served cs hcs
    rw [hlocal] at hcs
    cases hcs

theorem attempt_served {op : VmOp} {r : VmOpReply} {h : MemVmHost} {first : Option CelError} (hlocal : o.carriage = [])
    (hcap : o.host.caps.contains (Capabilities.required op) = true) (hd : o.host.dispatch op = (.ok r, h))
    (how : h.owner = some ow) : attempt op (first, o) = (first, { o with host := h }) := by
  rw [attempt]
  dsimp only
  rw [invoke_served hlocal hcap hd how]

/-- A node less. -/
def tornNode (h : MemVmHost) (n : K8sNodeRecord) : MemVmHost :=
  { h with slots := h.slots.setIfInBounds n.vmId.toNat none, nets := (h.nets.detachNic n.nic.id).2 }

theorem destroyNode_ok {n : K8sNodeRecord} {s : Slot} {first : Option CelError} (hlocal : o.carriage = [])
    (how : o.host.owner = some ow) (hvm : o.host.caps.contains .vmLifecycleWrite = true)
    (hnet : o.host.caps.contains .networkWrite = true) (hslot : o.host.slots[n.vmId.toNat]? = some (some s))
    (hs : s.state.isTerminal = true) :
    destroyNode (first, o) n = (first, { o with host := tornNode o.host n }) := by
  have hdetach : o.host.dispatch (.detachNic n.nic.id) =
      (.ok (.nicDetached n.nic.id), { o.host with nets := (o.host.nets.detachNic n.nic.id).2 }) := by
    have hok : (o.host.nets.detachNic n.nic.id).1 = .ok () := by
      unfold MemNetworkStore.detachNic
      split <;> rfl
    simp only [MemVmHost.dispatch, hok, MemVmHost.answer]
  obtain ⟨g, hg⟩ : ∃ g : MemVmHost, g = { o.host with nets := (o.host.nets.detachNic n.nic.id).2 } := ⟨_, rfl⟩
  have hgslot : g.slots[n.vmId.toNat]? = some (some s) := by rw [hg]; exact hslot
  have hgow : g.owner = some ow := by rw [hg]; exact how
  have hgvm : g.caps.contains .vmLifecycleWrite = true := by rw [hg]; exact hvm
  have htorn : tornNode o.host n = g.setSlot n.vmId none := by rw [hg]; rfl
  have hfirst : attempt (.detachNic n.nic.id) (first, o) = (first, { o with host := g }) :=
    attempt_served hlocal hnet (hdetach.trans (by rw [hg])) hgow
  have hstop : ({ o with host := g } : K8sOwner).invoke (.stop n.vmId) = (_, { o with host := g }) :=
    @invoke_served { o with host := g } ow (.stop n.vmId) _ g hlocal hgvm (MemVmHost.stop_terminal hgslot hs) hgow
  rw [destroyNode, hfirst]
  dsimp only
  rw [hstop, htorn]
  exact @attempt_served { o with host := g } ow (.delete n.vmId) _ _ first hlocal hgvm
    (MemVmHost.delete_terminal hgslot hs) hgow

theorem destroyNodes_ok {ns : List K8sNodeRecord} {first : Option CelError} (hlocal : o.carriage = [])
    (how : o.host.owner = some ow) (hvm : o.host.caps.contains .vmLifecycleWrite = true)
    (hnet : o.host.caps.contains .networkWrite = true)
    (hslots : ∀ n ∈ ns, ∃ s, o.host.slots[n.vmId.toNat]? = some (some s) ∧ s.state.isTerminal = true)
    (hnodup : (ns.map (·.vmId.toNat)).Nodup) :
    ns.foldl destroyNode (first, o) = (first, { o with host := ns.foldl tornNode o.host }) := by
  induction ns generalizing o with
  | nil => rfl
  | cons n ns ih =>
    obtain ⟨s, hslot, hs⟩ := hslots n List.mem_cons_self
    rw [List.map_cons, List.nodup_cons] at hnodup
    rw [List.foldl_cons, List.foldl_cons, destroyNode_ok hlocal how hvm hnet hslot hs]
    refine @ih { o with host := tornNode o.host n } hlocal how hvm hnet (fun n' hn' => ?_) hnodup.2
    obtain ⟨s', hslot', hs'⟩ := hslots n' (List.mem_cons_of_mem n hn')
    have hne : n.vmId.toNat ≠ n'.vmId.toNat := fun heq => hnodup.1 (heq ▸ List.mem_map_of_mem hn')
    refine ⟨s', ?_, hs'⟩
    rw [tornNode, Vector.getElem?_setIfInBounds, if_neg hne, hslot']

/-! ## What is left of the nodes -/

/-- What taking nodes down leaves alone. -/
theorem tornNodes_same (h : MemVmHost) (ns : List K8sNodeRecord) : SameBesides h (ns.foldl tornNode h) := by
  induction ns generalizing h with
  | nil => exact ⟨rfl, rfl, rfl, rfl, rfl, rfl, rfl⟩
  | cons n ns ih =>
    have hone : (h.nets.detachNic n.nic.id).2.networks = h.nets.networks ∧
        (h.nets.detachNic n.nic.id).2.sgs = h.nets.sgs ∧ (h.nets.detachNic n.nic.id).2.lbs = h.nets.lbs ∧
        (h.nets.detachNic n.nic.id).2.nextLb = h.nets.nextLb := by
      unfold MemNetworkStore.detachNic
      split <;> exact ⟨rfl, rfl, rfl, rfl⟩
    have hrest := ih (tornNode h n)
    exact ⟨hrest.owner, hrest.caps, hrest.vault, hrest.networks.trans hone.1, hrest.sgs.trans hone.2.1,
      hrest.lbs.trans hone.2.2.1, hrest.nextLb.trans hone.2.2.2⟩

theorem tornNodes_slots {h : MemVmHost} {ns : List K8sNodeRecord} (i : Nat) :
    (ns.foldl tornNode h).slots[i]? = if i ∈ ns.map (·.vmId.toNat) ∧ i < maxSlots then some none else h.slots[i]? := by
  induction ns generalizing h with
  | nil => simp
  | cons n ns ih =>
    rw [List.foldl_cons, ih, tornNode, Vector.getElem?_setIfInBounds]
    simp only [List.map_cons, List.mem_cons]
    by_cases hrest : i ∈ ns.map (·.vmId.toNat) ∧ i < maxSlots
    · rw [if_pos hrest, if_pos ⟨.inr hrest.1, hrest.2⟩]
    · rw [if_neg hrest]
      by_cases heq : n.vmId.toNat = i
      · by_cases hlt : i < maxSlots
        · rw [if_pos heq, if_pos (heq ▸ hlt), if_pos ⟨.inl heq.symm, hlt⟩]
        · rw [if_pos heq, if_neg (heq ▸ hlt), if_neg (fun h => hlt h.2)]
          exact (Vector.getElem?_eq_none (Nat.le_of_not_lt hlt)).symm
      · rw [if_neg heq, if_neg]
        rintro ⟨rfl | hmem, hlt⟩
        · exact heq rfl
        · exact hrest ⟨hmem, hlt⟩

theorem tornNodes_nics {h : MemVmHost} {ns : List K8sNodeRecord} (id : NicId) :
    (ns.foldl tornNode h).nets.nics.lookup id = if id ∈ ns.map (·.nic.id) then none else h.nets.nics.lookup id := by
  induction ns generalizing h with
  | nil => simp
  | cons n ns ih =>
    have hone : (tornNode h n).nets.nics.lookup id = if id = n.nic.id then none else h.nets.nics.lookup id := by
      cases hnic : h.nets.nics.lookup n.nic.id with
      | none =>
        simp only [tornNode, MemNetworkStore.detachNic, hnic]
        split
        · rename_i heq
          rw [heq]
          exact hnic
        · rfl
      | some nic =>
        simp only [tornNode, MemNetworkStore.detachNic, hnic]
        exact Assoc.lookup_erase_ite _ _ _
    rw [List.foldl_cons, ih, hone]
    simp only [List.map_cons, List.mem_cons]
    by_cases hmem : id ∈ ns.map (·.nic.id)
    · rw [if_pos hmem, if_pos (.inr hmem)]
    · rw [if_neg hmem]
      simp only [hmem, or_false]

theorem tornNodes_usedIps {h : MemVmHost} {ns : List K8sNodeRecord} {net : NetworkId}
    (hpresent : ∀ n ∈ ns, n.nic.networkId = net ∧ h.nets.nics.lookup n.nic.id = some n.nic)
    (hnodup : (ns.map (·.nic.id)).Nodup) :
    (∀ net', net' ≠ net → (ns.foldl tornNode h).nets.usedIps.lookup net' = h.nets.usedIps.lookup net') ∧
      ∀ ip, ((ns.foldl tornNode h).nets.used net).lookup ip =
        if ip ∈ ns.map (·.nic.ip) then none else (h.nets.used net).lookup ip := by
  induction ns generalizing h with
  | nil => simp
  | cons n ns ih =>
    obtain ⟨hnet, hnic⟩ := hpresent n List.mem_cons_self
    rw [List.map_cons, List.nodup_cons] at hnodup
    have hlater : ∀ n' ∈ ns, n'.nic.networkId = net ∧ (tornNode h n).nets.nics.lookup n'.nic.id = some n'.nic := by
      intro n' hn'
      obtain ⟨hnet', hnic'⟩ := hpresent n' (List.mem_cons_of_mem n hn')
      have hne : n'.nic.id ∉ [n].map (·.nic.id) := by
        rw [List.map_singleton, List.mem_singleton]
        exact fun heq => hnodup.1 (heq ▸ List.mem_map_of_mem hn')
      have hone := @tornNodes_nics h [n] n'.nic.id
      rw [if_neg hne] at hone
      exact ⟨hnet', hone.trans hnic'⟩
    obtain ⟨hothers, hused⟩ := ih hlater hnodup.2
    constructor
    · intro net' hne
      rw [List.foldl_cons, hothers net' hne, tornNode]
      simp only [MemNetworkStore.detachNic, hnic]
      split
      · rfl
      · exact AList.lookup_insert_ne (hnet ▸ hne)
    · intro ip
      have hone : ((tornNode h n).nets.used net).lookup ip =
          if ip = n.nic.ip then none else (h.nets.used net).lookup ip := by
        rw [tornNode, MemNetworkStore.used_detachNic _ hnic, if_pos hnet.symm]
        exact Assoc.lookup_erase_ite _ _ _
      rw [List.foldl_cons, hused, hone]
      simp only [List.map_cons, List.mem_cons]
      by_cases hmem : ip ∈ ns.map (·.nic.ip)
      · rw [if_pos hmem, if_pos (.inr hmem)]
      · rw [if_neg hmem]
        simp only [hmem, or_false]

/-- The load balancer less. -/
def tornLb (c : K8sCluster) (h : MemVmHost) : MemVmHost :=
  { h with nets := { h.nets with lbs := h.nets.lbs.erase c.lb.id } }

/-- What a teardown makes of a host. -/
def tornDown (c : K8sCluster) (h : MemVmHost) : MemVmHost :=
  let g := c.nodes.foldl tornNode (c.tornLb h)
  { g with nets := g.nets.withoutNetwork c.network.id }

end K8sCluster

/-! ## A teardown after a creation -/

section Created

variable {spec : K8sClusterSpec} {h h' g : MemVmHost} {c : K8sCluster} {ow : String} {block : Cidr4}

theorem Created.nicIds (hc : Created spec h c ow block g h') :
    (∀ n ∈ c.nodes, n.nic.networkId = c.network.id ∧ g.nets.nics.lookup n.nic.id = some n.nic) ∧
      (∀ id, id ∈ c.nodes.map (·.nic.id) ↔
        ∃ j, Among (spec.workers.toNat + 1) j ∧ id = MemNetworkStore.nicId c.network.id j) ∧
      (c.nodes.map (·.nic.id)).Nodup := by
  obtain ⟨hthere, hids, hnodup⟩ := hc.nodes.nicIds (Cidr4.exact_of_parse ⟨_, hc.parsed⟩) hc.unfilled
  refine ⟨hthere, fun id => (hids id).trans (exists_congr fun j => ?_), hnodup⟩
  rw [Nat.zero_add, hc.count]
  have hnone : ¬ Among 0 j := fun hj => absurd (Nat.le_trans hj.1 hj.2) (by decide)
  exact and_congr_right fun _ => and_iff_right hnone

/-- But for its load balancers the host is as its nodes left it. -/
theorem Created.tornLb (hc : Created spec h c ow block g h') :
    (c.tornLb h').slots = g.slots ∧ (c.tornLb h').nets.nics = g.nets.nics ∧ (c.tornLb h').nets.usedIps = g.nets.usedIps := by
  rw [hc.host]
  exact ⟨rfl, rfl, rfl⟩

theorem Created.tornLb_nics (hc : Created spec h c ow block g h') :
    ∀ n ∈ c.nodes, n.nic.networkId = c.network.id ∧ (c.tornLb h').nets.nics.lookup n.nic.id = some n.nic := by
  rw [hc.tornLb.2.1]
  exact hc.nicIds.1

/-- With its nodes gone the network has no address in use. -/
theorem Created.used_nil (hc : Created spec h c ow block g h') :
    ((c.nodes.foldl K8sCluster.tornNode (c.tornLb h')).nets.used c.network.id).entries = [] := by
  obtain ⟨hthere, hids, hnodup⟩ := hc.nicIds
  have hused : (c.tornLb h').nets.used c.network.id = g.nets.used c.network.id :=
    congrArg (fun m => (AList.lookup c.network.id m).getD ∅) hc.tornLb.2.2
  apply List.eq_nil_iff_forall_not_mem.2
  rintro ⟨ip, id⟩ hmem
  have hin := AList.mem_lookup_iff.2 hmem
  rw [(K8sCluster.tornNodes_usedIps hc.tornLb_nics hnodup).2 ip, hused] at hin
  split at hin
  · cases hin
  · rename_i hno
    obtain ⟨j, hj, hip⟩ := (hc.filled.used ip).1 (Option.ne_none_iff_exists'.2 ⟨id, hin⟩)
    obtain ⟨nic, hnic, -, hip'⟩ := hc.filled.new j hj
    obtain ⟨n, hn, heq⟩ := List.mem_map.1 ((hids _).2 ⟨j, hj, rfl⟩)
    obtain rfl := Option.some.inj (hnic.symm.trans (heq ▸ (hthere n hn).2))
    exact hno (List.mem_map.2 ⟨n, hn, Option.some.inj (hip'.symm.trans hip)⟩)

/-- **The teardown goes through.** -/
theorem Created.destroy_ok {o : K8sOwner} (hc : Created spec h c ow block g o.host) (hlocal : o.carriage = []) :
    c.destroy o = (.ok (), { o with host := c.tornDown o.host }) := by
  have hsame := hc.nodes.same
  have how : o.host.owner = some ow := by rw [hc.host]; exact hsame.owner.trans hc.owner
  have hcaps : ∀ cap ∈ [Capabilities.vmLifecycleWrite, .networkWrite, .lbWrite], o.host.caps.contains cap = true := by
    rw [hc.host]
    intro cap hcap
    exact (congrArg (Capabilities.contains · cap) hsame.caps).trans (hc.caps cap hcap)
  have hvm := hcaps .vmLifecycleWrite (by decide)
  have hnet := hcaps .networkWrite (by decide)
  have hlb := hcaps .lbWrite (by decide)
  have hslots := hc.nodes.slots
  have hfirst : K8sCluster.attempt (.deleteLoadBalancer c.lb.id) (none, o) = (none, { o with host := c.tornLb o.host }) :=
    @K8sCluster.attempt_served o ow (.deleteLoadBalancer c.lb.id) _ (c.tornLb o.host) none hlocal hlb rfl how
  have hnodes : c.nodes.foldl K8sCluster.destroyNode (none, { o with host := c.tornLb o.host }) =
      (none, { o with host := c.nodes.foldl K8sCluster.tornNode (c.tornLb o.host) }) := by
    refine @K8sCluster.destroyNodes_ok { o with host := c.tornLb o.host } ow c.nodes none hlocal how hvm hnet
      (fun n hn => ?_) hslots.2.2
    change ∃ s, (c.tornLb o.host).slots[n.vmId.toNat]? = some (some s) ∧ s.state.isTerminal = true
    rw [hc.tornLb.1]
    exact (hslots.1 n hn).2
  have hleft := K8sCluster.tornNodes_same (c.tornLb o.host) c.nodes
  have hdelete : (c.nodes.foldl K8sCluster.tornNode (c.tornLb o.host)).dispatch (.deleteNetwork c.network.id) =
      (.ok (.networkDeleted c.network.id), c.tornDown o.host) := by
    rcases (c.nodes.foldl K8sCluster.tornNode (c.tornLb o.host)).nets.deleteNetwork_cases c.network.id with
      ⟨-, hne⟩ | ⟨-, hok⟩
    · exact absurd hc.used_nil hne
    · simp only [MemVmHost.dispatch, hok, MemVmHost.answer, K8sCluster.tornDown]
  have hlast : K8sCluster.attempt (.deleteNetwork c.network.id)
      (none, { o with host := c.nodes.foldl K8sCluster.tornNode (c.tornLb o.host) }) =
        (none, { o with host := c.tornDown o.host }) := by
    refine @K8sCluster.attempt_served { o with host := c.nodes.foldl K8sCluster.tornNode (c.tornLb o.host) } ow _ _ _ none
      hlocal ?_ hdelete (hleft.owner.trans how)
    change (c.nodes.foldl K8sCluster.tornNode (c.tornLb o.host)).caps.contains .networkWrite = true
    rw [hleft.caps]
    exact hnet
  rw [K8sCluster.destroy, hfirst]
  dsimp only
  rw [hnodes, hlast]

/-! ## What is there again -/

theorem Created.slots_back (hc : Created spec h c ow block g h') : (c.tornDown h').slots = h.slots := by
  obtain ⟨hthere, hothers, -⟩ := hc.nodes.slots
  apply MemVmHost.slots_ext
  intro i
  change (c.nodes.foldl K8sCluster.tornNode (c.tornLb h')).slots[i]? = _
  rw [K8sCluster.tornNodes_slots, hc.tornLb.1]
  split
  · rename_i hin
    obtain ⟨n, hn, rfl⟩ := List.mem_map.1 hin.1
    exact (hthere n hn).1.symm
  · rename_i hout
    by_cases hlt : i < maxSlots
    · exact hothers i fun hmem => hout ⟨hmem, hlt⟩
    · rw [Vector.getElem?_eq_none (Nat.le_of_not_lt hlt), Vector.getElem?_eq_none (Nat.le_of_not_lt hlt)]

theorem Created.networks_after (hc : Created spec h c ow block g h') (id : NetworkId) :
    (c.tornDown h').nets.networks.lookup id = if id = c.network.id then none else h.nets.networks.lookup id := by
  change ((c.nodes.foldl K8sCluster.tornNode (c.tornLb h')).nets.networks.erase c.network.id).lookup id = _
  have hnetworks : (c.tornLb h').nets.networks = g.nets.networks := by rw [hc.host]; rfl
  have hid : c.network.id = h.nets.newNetworkId ow := by rw [hc.network]
  rw [(K8sCluster.tornNodes_same (c.tornLb h') c.nodes).networks, hnetworks, hc.nodes.same.networks,
    Assoc.lookup_erase_ite]
  split
  · rfl
  · rename_i hne
    exact AList.lookup_insert_ne (hid ▸ hne)

theorem Created.nics_after (hc : Created spec h c ow block g h') (id : NicId) :
    (c.tornDown h').nets.nics.lookup id = if id ∈ c.nodes.map (·.nic.id) then none else h.nets.nics.lookup id := by
  change (c.nodes.foldl K8sCluster.tornNode (c.tornLb h')).nets.nics.lookup id = _
  rw [K8sCluster.tornNodes_nics, hc.tornLb.2.1]
  split
  · rfl
  · rename_i hne
    exact hc.nodes.nics_other hne

theorem Created.usedIps_after (hc : Created spec h c ow block g h') (net : NetworkId) :
    (c.tornDown h').nets.usedIps.lookup net = if net = c.network.id then none else h.nets.usedIps.lookup net := by
  change ((c.nodes.foldl K8sCluster.tornNode (c.tornLb h')).nets.usedIps.erase c.network.id).lookup net = _
  have hid : c.network.id = h.nets.newNetworkId ow := by rw [hc.network]
  rw [Assoc.lookup_erase_ite]
  split
  · rfl
  · rename_i hne
    rw [(K8sCluster.tornNodes_usedIps hc.tornLb_nics hc.nicIds.2.2).1 net hne, hc.tornLb.2.2, hc.nodes.usedIps_other hne]
    exact AList.lookup_insert_ne (hid ▸ hne)

theorem Created.lbs_after (hc : Created spec h c ow block g h') (id : LoadBalancerId) (lb : LoadBalancer) :
    (c.tornDown h').nets.lbs.lookup id = some lb ↔
      id ≠ c.lb.id ∧ h.nets.lbs.lookup id = some lb ∧ lb.networkId ≠ c.network.id := by
  change ((c.nodes.foldl K8sCluster.tornNode (c.tornLb h')).nets.withoutNetwork c.network.id).lbs.lookup id = some lb ↔ _
  have hlbs : (c.tornLb h').nets.lbs = (g.nets.lbs.insert c.lb.id c.lb).erase c.lb.id := by rw [hc.host]; rfl
  rw [MemNetworkStore.mem_dropLbs, (K8sCluster.tornNodes_same (c.tornLb h') c.nodes).lbs, hlbs, hc.nodes.same.lbs,
    Assoc.lookup_erase_ite]
  split
  · rename_i heq
    exact iff_of_false (fun hno => (by cases hno.1)) fun hno => hno.1 heq
  · rename_i hne
    rw [AList.lookup_insert_ne hne]
    exact (and_iff_right hne).symm

end Created

/-- Slots, volumes and network state are the same, the counters of ids apart. -/
structure Restored (h h' : MemVmHost) : Prop where
  slots : h'.slots = h.slots
  vault : h'.vault = h.vault
  networks : ∀ id, h'.nets.networks.lookup id = h.nets.networks.lookup id
  nics : ∀ id, h'.nets.nics.lookup id = h.nets.nics.lookup id
  usedIps : ∀ net, h'.nets.usedIps.lookup net = h.nets.usedIps.lookup net
  sgs : h'.nets.sgs = h.nets.sgs
  lbs : ∀ id, h'.nets.lbs.lookup id = h.nets.lbs.lookup id

/-- Nothing has one of the ids that the cluster gets, and no load balancer is on a network with the id of its network. -/
structure IdsUnused (spec : K8sClusterSpec) (ow : String) (h : MemVmHost) : Prop where
  network : h.nets.networks.lookup (h.nets.newNetworkId ow) = none
  usedIps : h.nets.usedIps.lookup (h.nets.newNetworkId ow) = none
  nics : ∀ j, Among (spec.workers.toNat + 1) j →
    h.nets.nics.lookup (MemNetworkStore.nicId (h.nets.newNetworkId ow) j) = none
  lb : h.nets.lbs.lookup (h.newLbId ow) = none
  lbs : ∀ id lb, h.nets.lbs.lookup id = some lb → lb.networkId ≠ h.nets.newNetworkId ow

theorem Created.restored_iff {spec : K8sClusterSpec} {h h' g : MemVmHost} {c : K8sCluster} {ow : String} {block : Cidr4}
    (hc : Created spec h c ow block g h') : Restored h (c.tornDown h') ↔ IdsUnused spec ow h := by
  have hid : c.network.id = h.nets.newNetworkId ow := by rw [hc.network]
  have hids := hc.nicIds.2.1
  have hleft := K8sCluster.tornNodes_same (c.tornLb h') c.nodes
  constructor
  · intro hr
    constructor
    · have hnet := hc.networks_after c.network.id
      rw [if_pos rfl, hr.networks] at hnet
      rw [← hid, hnet]
    · have hused := hc.usedIps_after c.network.id
      rw [if_pos rfl, hr.usedIps] at hused
      rw [← hid, hused]
    · intro j hj
      have hnic := hc.nics_after (MemNetworkStore.nicId c.network.id j)
      rw [if_pos ((hids _).2 ⟨j, hj, rfl⟩), hr.nics] at hnic
      rw [← hid, hnic]
    · apply Option.eq_none_iff_forall_ne_some.2
      intro lb hlb
      have hkept := (hc.lbs_after (h.newLbId ow) lb).1 ((hr.lbs _).trans hlb)
      exact hkept.1 hc.lbId.symm
    · intro id lb hlb
      have hkept := (hc.lbs_after id lb).1 ((hr.lbs id).trans hlb)
      exact hid ▸ hkept.2.2
  · intro hu
    constructor
    · exact hc.slots_back
    · have hvault : (c.tornLb h').vault = g.vault := by rw [hc.host]; rfl
      exact hleft.vault.trans (hvault.trans hc.nodes.same.vault)
    · intro id
      rw [hc.networks_after]
      split
      · rename_i heq
        rw [heq, hid, hu.network]
      · rfl
    · intro id
      rw [hc.nics_after]
      split
      · rename_i hin
        obtain ⟨j, hj, rfl⟩ := (hids id).1 hin
        rw [hid, hu.nics j hj]
      · rfl
    · intro net
      rw [hc.usedIps_after]
      split
      · rename_i heq
        rw [heq, hid, hu.usedIps]
      · rfl
    · have hsgs : (c.tornLb h').nets.sgs = g.nets.sgs := by rw [hc.host]; rfl
      exact hleft.sgs.trans (hsgs.trans hc.nodes.same.sgs)
    · intro id
      ext lb
      rw [hc.lbs_after, hc.lbId, hid]
      constructor
      · exact fun hkept => hkept.2.1
      · intro hlb
        refine ⟨?_, hlb, hu.lbs id lb hlb⟩
        rintro rfl
        rw [hu.lb] at hlb
        cases hlb

/-- **On a host whose counters are not used up no id is in use** that a cluster gets. -/
theorem IdsUnused.of_issued {h : MemVmHost} (hi : h.nets.Issued) (hnet : h.nets.nextNet.toNat < u64Max)
    (hlb : h.nets.nextLb.toNat < u64Max) (spec : K8sClusterSpec) (ow : String) : IdsUnused spec ow h := by
  have hnew := MemNetworkStore.not_gaveOut_new hnet ow
  constructor
  · exact Option.not_isSome_iff_eq_none.1 fun hthere => hnew (hi.network _ hthere)
  · exact Option.not_isSome_iff_eq_none.1 fun hthere => hnew (hi.usedIps _ hthere)
  · intro j _
    refine Option.eq_none_iff_forall_ne_some.2 fun nic hnic => ?_
    obtain ⟨hgave, k, hid⟩ := hi.nic _ nic hnic
    rw [← (MemNetworkStore.nicId_inj hid).1] at hgave
    exact hnew hgave
  · refine Option.eq_none_iff_forall_ne_some.2 fun lb hthere => ?_
    exact MemNetworkStore.not_gaveOutLb_new hlb ow (hi.lb _ lb hthere).2
  · rintro id lb hthere heq
    exact hnew (heq ▸ (hi.lb id lb hthere).1)

/-- **A teardown after a creation goes through, and leaves the host as it was**: on every host whose network store is one
that any calls lead to, as long as the cluster's network and load balancer are among the first `2 ^ 64 - 1` that are made;
and on any host exactly when none of the ids was in use. -/
theorem destroy_restores_iff {owner : NodeId} {spec : K8sClusterSpec} {o o' : K8sOwner} {c : K8sCluster}
    (hlocal : o.carriage = []) (hok : K8sCall.run (K8sCluster.create owner spec) o = (.ok c, o')) :
    (∀ vault caps acts s, run HostSystem.step ⟨(MemVmHost.withVault vault).withCaps caps, []⟩ acts = s →
      s.host.nets = o.host.nets → s.calls.countP Rest.madeNetwork + 1 < 2 ^ 64 →
      s.calls.countP Rest.madeLoadBalancer + 1 < 2 ^ 64 →
      (c.destroy o').1 = .ok () ∧ Restored o.host (c.destroy o').2.host) ∧
    (((c.destroy o').1 = .ok () ∧ Restored o.host (c.destroy o').2.host) ↔
      ∀ ow, o.host.owner = some ow → IdsUnused spec ow o.host) := by
  obtain ⟨⟨ow, block, g, hc⟩, hcarriage⟩ := K8sCluster.create_ok hok
  have hiff : ((c.destroy o').1 = .ok () ∧ Restored o.host (c.destroy o').2.host) ↔
      ∀ ow, o.host.owner = some ow → IdsUnused spec ow o.host := by
    rw [hc.destroy_ok (hcarriage hlocal), and_iff_right rfl, hc.restored_iff]
    constructor
    · intro hu ow' how
      obtain rfl := Option.some.inj (hc.owner.symm.trans how)
      exact hu
    · exact fun hall => hall ow hc.owner
  refine ⟨fun vault caps acts s hs hnets hfew hfewLb => hiff.2 fun ow' _ => ?_, hiff⟩
  have hcounted := HostSystem.run_counted vault caps acts
  rw [hs] at hcounted
  refine .of_issued (hnets ▸ hcounted.issued) ?_ ?_ spec ow'
  · have hle := hcounted.networks
    rw [← hnets]
    unfold u64Max
    omega
  · have hle := hcounted.loadBalancers
    rw [← hnets]
    unfold u64Max
    omega

/-- Node `a` has created a network. -/
def networkMade : HostSystem :=
  run HostSystem.step ⟨(MemVmHost.withVault default).withCaps .all, []⟩
    [.invoke (.snapshot ⟨"a"⟩), .advance 0, .invoke (.handle (.createNetwork "net" "10.0.0.0/24")), .advance 1, .advance 1]

/-- A control plane and a worker come and go on a host that has another network. -/
theorem destroy_restores_pair :
    networkMade.calls.countP Rest.madeNetwork = 1 ∧
    ∃ c o', K8sCall.run (K8sCluster.create ⟨"a"⟩ (pair "10.42.0.0/24")) { ownerA with host := networkMade.host } = (.ok c, o') ∧
      (c.destroy o').1 = .ok () ∧ Restored networkMade.host (c.destroy o').2.host := by
  obtain ⟨hone, hnone, hok⟩ : networkMade.calls.countP Rest.madeNetwork = 1 ∧
      networkMade.calls.countP Rest.madeLoadBalancer = 0 ∧
      (K8sCall.run (K8sCluster.create ⟨"a"⟩ (pair "10.42.0.0/24")) { ownerA with host := networkMade.host }).1.isOk = true := by
    decide +kernel
  rcases hrun : K8sCall.run (K8sCluster.create ⟨"a"⟩ (pair "10.42.0.0/24")) { ownerA with host := networkMade.host } with
    ⟨_ | c, o'⟩
  · rw [hrun] at hok
    cases hok
  · exact ⟨hone, c, o', rfl, (destroy_restores_iff rfl hrun).1 default .all
      [.invoke (.snapshot ⟨"a"⟩), .advance 0, .invoke (.handle (.createNetwork "net" "10.0.0.0/24")), .advance 1, .advance 1]
      networkMade rfl rfl (hone ▸ by decide) (hnone ▸ by decide)⟩

/-! ## After the last network id -/

/-- The node `a` whose networks are all gone again, after `n` of them. -/
def emptyAfter (n : UInt64) : MemVmHost := { ownerA.host with nets := { ownerA.host.nets with nextNet := n } }

/-- One network more. -/
def withNet (n : UInt64) : MemVmHost :=
  { emptyAfter n with nets := (emptyAfter n).nets.withNetwork "a" "net" tenNet.cidr }

theorem apply_createNet (n : UInt64) : ((emptyAfter n).apply (.createNetwork "net" "10.0.0.0/24")).2 = withNet n := by
  have hcaps : (emptyAfter n).caps.contains (Capabilities.required (.createNetwork "net" "10.0.0.0/24")) = true := by
    change Capabilities.all.contains .networkWrite = true
    decide
  have hparse : Cidr4.parse "10.0.0.0/24" = .ok tenNet.cidr := by decide +kernel
  have howner : (emptyAfter n).owner = some "a" := rfl
  rw [MemVmHost.apply, hcaps]
  simp only [Bool.not_true, Bool.false_eq_true, if_false, MemVmHost.dispatch, MemVmHost.createNetwork, howner, hparse]
  rcases (emptyAfter n).nets.createNetwork_cases "a" "net" tenNet.cidr with ⟨-, hno⟩ | ⟨-, hok⟩
  · exact absurd (by decide) hno
  · rw [hok]
    rfl

theorem apply_deleteNet (n : UInt64) :
    ((withNet n).apply (.deleteNetwork (MemNetworkStore.networkId "a" (satAdd64 n 1)))).2 = emptyAfter (satAdd64 n 1) := by
  have hcaps : (withNet n).caps.contains
      (Capabilities.required (.deleteNetwork (MemNetworkStore.networkId "a" (satAdd64 n 1)))) = true := by
    change Capabilities.all.contains .networkWrite = true
    decide
  rw [MemVmHost.apply, hcaps]
  simp only [Bool.not_true, Bool.false_eq_true, if_false, MemVmHost.dispatch]
  rcases (withNet n).nets.deleteNetwork_cases (MemNetworkStore.networkId "a" (satAdd64 n 1)) with ⟨-, hno⟩ | ⟨-, hok⟩
  · refine absurd ?_ hno
    change (((emptyAfter n).nets.withNetwork "a" "net" tenNet.cidr).used ((emptyAfter n).nets.newNetworkId "a")).entries = []
    rw [MemNetworkStore.used_withNetwork, if_pos rfl]
    rfl
  · rw [hok]
    have hgone : ∀ {ν : Type} (v : ν), ((∅ : AList (fun _ : NetworkId => ν)).insert
        (MemNetworkStore.networkId "a" (satAdd64 n 1)) v).erase (MemNetworkStore.networkId "a" (satAdd64 n 1)) = ∅ :=
      fun v => AList.ext (List.kerase_cons_eq rfl)
    have hnets : (withNet n).nets.withoutNetwork (MemNetworkStore.networkId "a" (satAdd64 n 1)) =
        { ownerA.host.nets with nextNet := satAdd64 n 1 } := by
      unfold MemNetworkStore.withoutNetwork
      congr 1
      · exact hgone _
      · exact hgone _
      · exact hgone _
    rw [hnets]
    rfl

/-- A network that comes and goes, `k` times. -/
def netsComeAndGo : Nat → List VmOp
  | 0 => []
  | k + 1 => netsComeAndGo k ++ [.createNetwork "net" "10.0.0.0/24",
      .deleteNetwork (MemNetworkStore.networkId "a" (satAdd64 (UInt64.ofNat k) 1))]

/-- Nothing is left of them but the counter. -/
theorem run_netsComeAndGo {k : Nat} (hk : k ≤ u64Max) :
    run MemVmHost.apply ownerA.host (netsComeAndGo k) = emptyAfter (UInt64.ofNat k) := by
  induction k with
  | zero => rfl
  | succ k ih =>
    have hnext : satAdd64 (UInt64.ofNat k) 1 = UInt64.ofNat (k + 1) := by
      have hsmall : k < UInt64.size := by unfold u64Max at hk; unfold UInt64.size; omega
      rw [satAdd64, UInt64.toNat_ofNat_of_lt' hsmall, UInt64.toNat_one, Nat.min_eq_left hk]
    rw [netsComeAndGo, run_append, ih (by omega), run, run, run, apply_createNet, apply_deleteNet, hnext]

/-- **After the last id, a cluster takes over a network that is there**, and its teardown removes it. -/
theorem last_network_removed : ¬ ∀ (ops : List VmOp) (owner : NodeId) (spec : K8sClusterSpec) (o' : K8sOwner) (c : K8sCluster),
    K8sCall.run (K8sCluster.create owner spec) { ownerA with host := run MemVmHost.apply ownerA.host ops } = (.ok c, o') →
      (c.destroy o').1 = .ok () ∧ Restored (run MemVmHost.apply ownerA.host ops) (c.destroy o').2.host := by
  intro hall
  have hlast := hall (netsComeAndGo (u64Max - 1) ++ [.createNetwork "net" "10.0.0.0/24"]) ⟨"a"⟩ (pair "10.42.0.0/24")
  have hreached : run MemVmHost.apply ownerA.host (netsComeAndGo (u64Max - 1) ++ [.createNetwork "net" "10.0.0.0/24"]) =
      withNet 18446744073709551614 := by
    rw [run_append, run_netsComeAndGo (Nat.sub_le _ _), run, run, apply_createNet]
    rfl
  rw [hreached] at hlast
  have hok : (K8sCall.run (K8sCluster.create ⟨"a"⟩ (pair "10.42.0.0/24"))
      { ownerA with host := withNet 18446744073709551614 }).1.isOk = true := by decide +kernel
  rcases hrun : K8sCall.run (K8sCluster.create ⟨"a"⟩ (pair "10.42.0.0/24"))
      { ownerA with host := withNet 18446744073709551614 } with ⟨_ | c, o'⟩
  · rw [hrun] at hok
    cases hok
  · obtain ⟨⟨ow, block, g, hc⟩, hcarriage⟩ := K8sCluster.create_ok hrun
    have hrestored := (hlast o' c hrun).2
    rw [hc.destroy_ok (hcarriage rfl)] at hrestored
    have hunused := (hc.restored_iff.1 hrestored).network
    obtain rfl : ow = "a" := Option.some.inj (hc.owner.symm.trans rfl)
    have hthere : ((withNet 18446744073709551614).nets.networks.lookup
        ((withNet 18446744073709551614).nets.newNetworkId "a")).isSome = true := by decide +kernel
    rw [hunused] at hthere
    cases hthere

end Celium
