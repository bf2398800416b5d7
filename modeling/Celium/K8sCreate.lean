import Celium.K8s
/-!
# K8sCreate — what a cluster's creation leaves, and where its virtual address is

On a fresh network the scan of `attach_nic` gives the `k`-th NIC the `k`-th host address, and the load balancer gets the
last one.  Nothing compares the two, so they meet where the block has exactly as many host addresses as the cluster has
nodes.
-/
namespace Celium

open Fixed Runs

/-! ## An address is read back from its text -/

namespace Ipv4Addr

theorem octet_toDigits : ∀ n < 256, octet (Nat.toDigits 10 n) = some (UInt32.ofNat n) := by decide +kernel

theorem octet_toString {n : Nat} (h : n < 256) : octet (toString n).toList = some (UInt32.ofNat n) := by
  rw [Text.toList_toString]
  exact octet_toDigits n h

theorem or_low {a b k : Nat} (h : b < 2 ^ k) : a * 2 ^ k ||| b = a * 2 ^ k + b := by
  rw [← Nat.shiftLeft_eq, Nat.shiftLeft_add_eq_or_of_lt h]

/-- The four octets make up the address. -/
theorem octets_bits (a : Ipv4Addr) :
    UInt32.ofNat (a.octetAt 3) <<< 24 ||| UInt32.ofNat (a.octetAt 2) <<< 16 ||| UInt32.ofNat (a.octetAt 1) <<< 8 |||
      UInt32.ofNat (a.octetAt 0) = a.bits := by
  have hsmall : ∀ i, a.octetAt i < 256 := fun i => Nat.mod_lt _ (by decide)
  have h3 := hsmall 3
  have h2 := hsmall 2
  have h1 := hsmall 1
  have h0 := hsmall 0
  have hplace : ∀ (n : Nat) (k : UInt32), k.toNat < 32 → n * 2 ^ k.toNat < 2 ^ 32 →
      (UInt32.ofNat n <<< k).toNat = n * 2 ^ k.toNat := by
    intro n k hk hn
    have hlt : n < UInt32.size := Nat.lt_of_le_of_lt (Nat.le_mul_of_pos_right n (Nat.two_pow_pos _)) hn
    rw [UInt32.toNat_shiftLeft, UInt32.toNat_ofNat_of_lt' hlt, Nat.mod_eq_of_lt hk, Nat.shiftLeft_eq, Nat.mod_eq_of_lt hn]
  have hp3 := hplace (a.octetAt 3) 24 (by decide) (by change _ * 16777216 < 4294967296; omega)
  have hp2 := hplace (a.octetAt 2) 16 (by decide) (by change _ * 65536 < 4294967296; omega)
  have hp1 := hplace (a.octetAt 1) 8 (by decide) (by change _ * 256 < 4294967296; omega)
  have hp0 : (UInt32.ofNat (a.octetAt 0)).toNat = a.octetAt 0 :=
    UInt32.toNat_ofNat_of_lt' (Nat.lt_trans h0 (by decide))
  have hor1 : a.octetAt 3 * 2 ^ 24 ||| a.octetAt 2 * 2 ^ 16 = (a.octetAt 3 * 2 ^ 8 + a.octetAt 2) * 2 ^ 16 := by
    rw [or_low (by omega)]
    omega
  have hor2 : (a.octetAt 3 * 2 ^ 8 + a.octetAt 2) * 2 ^ 16 ||| a.octetAt 1 * 2 ^ 8 =
      ((a.octetAt 3 * 2 ^ 8 + a.octetAt 2) * 2 ^ 8 + a.octetAt 1) * 2 ^ 8 := by
    rw [or_low (by omega)]
    omega
  apply UInt32.toNat_inj.1
  rw [UInt32.toNat_or, UInt32.toNat_or, UInt32.toNat_or, hp3, hp2, hp1, hp0]
  change a.octetAt 3 * 2 ^ 24 ||| a.octetAt 2 * 2 ^ 16 ||| a.octetAt 1 * 2 ^ 8 ||| a.octetAt 0 = _
  rw [hor1, hor2, or_low h0]
  have hsize := a.bits.toNat_lt
  simp only [octetAt]
  omega

theorem parse_display (a : Ipv4Addr) : parse a.display = some a := by
  have hdot : ∀ n : Nat, '.' ∉ (toString n).toList := Text.not_mem_toString (by decide)
  have hsmall : ∀ i, a.octetAt i < 256 := fun i => Nat.mod_lt _ (by decide)
  have hlist : a.display.toList = (toString (a.octetAt 3)).toList ++ '.' :: ((toString (a.octetAt 2)).toList ++ '.' ::
      ((toString (a.octetAt 1)).toList ++ '.' :: (toString (a.octetAt 0)).toList)) := by
    simp [display]
  have hlast : (toString (a.octetAt 0)).toList.splitOn '.' = [(toString (a.octetAt 0)).toList] :=
    List.splitOn_eq_singleton (hdot _)
  rw [parse, hlist, List.splitOn_append_cons_self_of_not_mem (hdot _), List.splitOn_append_cons_self_of_not_mem (hdot _),
    List.splitOn_append_cons_self_of_not_mem (hdot _), hlast]
  simp only [octet_toString (hsmall _), octets_bits]

end Ipv4Addr

/-! ## Calls that go through -/

theorem MemVmHost.rememberOwner_known {h : MemVmHost} {ow : String} (hk : h.owner = some ow) (id : NodeId) :
    h.rememberOwner id = h := by
  unfold rememberOwner
  rw [hk]

namespace K8sCall

variable {α β : Type}

theorem run_bind_ok {x : K8sCall α} {f : α → K8sCall β} {o o' : K8sOwner} {b : β} :
    K8sCall.run (x >>= f) o = (.ok b, o') ↔
      ∃ a o1, K8sCall.run x o = (.ok a, o1) ∧ K8sCall.run (f a) o1 = (.ok b, o') := by
  have hbind : K8sCall.run (x >>= f) o = match K8sCall.run x o with
      | (.ok a, o1) => K8sCall.run (f a) o1
      | (.error e, o1) => (.error e, o1) := by
    unfold K8sCall.run
    simp only [bind, ExceptT.bind, ExceptT.mk, StateT.bind, ExceptT.bindCont]
    rcases x o with ⟨_ | a, o1⟩
    · rfl
    · rfl
  rw [hbind]
  rcases K8sCall.run x o with ⟨e | a, o1⟩
  · refine iff_of_false (fun h => (by cases h)) ?_
    rintro ⟨a, o2, h, -⟩
    cases h
  · constructor
    · exact fun h => ⟨a, o1, rfl, h⟩
    · rintro ⟨a', o2, heq, h⟩
      cases heq
      exact h

theorem run_pure_ok {a b : α} {o o' : K8sOwner} : K8sCall.run (pure a) o = (.ok b, o') ↔ a = b ∧ o = o' := by
  constructor
  · intro h
    cases h
    exact ⟨rfl, rfl⟩
  · rintro ⟨rfl, rfl⟩
    rfl

theorem run_expect_ok {what : String} {x : Option α} {a : α} {o o' : K8sOwner} :
    K8sCall.run (expect what x) o = (.ok a, o') ↔ x = some a ∧ o = o' := by
  cases x with
  | none =>
    refine iff_of_false (fun h => (by cases h)) ?_
    rintro ⟨h, -⟩
    cases h
  | some b => exact run_pure_ok.trans (and_congr_left' Option.some_inj.symm)

/-- A call that is answered with a success: the host served it. -/
theorem run_invoke_ok {op : VmOp} {r : VmOpReply} {o o' : K8sOwner} (h : K8sCall.run (invoke op) o = (.ok r, o')) :
    ∃ h', o.host.dispatch op = (.ok r, h') ∧ o.host.caps.contains (Capabilities.required op) = true ∧
      (∀ ow, h'.owner = some ow → o'.host = h') ∧ o'.id = o.id ∧ o'.carriage = o.carriage.tail := by
  have hserve : ∀ o1 : K8sOwner, o1.host = o.host → o1.id = o.id → o1.carriage = o.carriage.tail →
      o1.serve op = (.ok r, o') →
      ∃ h', o.host.dispatch op = (.ok r, h') ∧ o.host.caps.contains (Capabilities.required op) = true ∧
        (∀ ow, h'.owner = some ow → o'.host = h') ∧ o'.id = o.id ∧ o'.carriage = o.carriage.tail := by
    intro o1 hhost hid hrest hs
    unfold K8sOwner.serve at hs
    rw [hhost, hid] at hs
    split at hs
    · cases hs
    · rename_i r' h' happly
      cases hs
      unfold MemVmHost.apply at happly
      split at happly
      · cases happly
      · rename_i hcaps
        exact ⟨h', happly, by simpa using hcaps, fun ow how => MemVmHost.rememberOwner_known how o.id, rfl, hrest⟩
  change o.invoke op = (.ok r, o') at h
  unfold K8sOwner.invoke at h
  split at h
  · rename_i hnil
    exact hserve o rfl rfl (by rw [hnil]; rfl) h
  · rename_i cs hcs
    exact hserve { o with carriage := cs } rfl rfl (by rw [hcs]; rfl) h
  · cases h

end K8sCall

/-! ## What the host does on a success -/

namespace MemVmHost

variable {h h' : MemVmHost}

theorem createNetwork_ok {name cidr : String} {net : VirtualNetwork}
    (hok : h.createNetwork name cidr = (.ok (.networkCreated net), h')) :
    ∃ ow block, h.owner = some ow ∧ Cidr4.parse cidr = .ok block ∧
      net = ⟨h.nets.newNetworkId ow, ow, name, block⟩ ∧ h' = { h with nets := h.nets.withNetwork ow name block } := by
  unfold createNetwork at hok
  cases how : h.owner with
  | none =>
    rw [how] at hok
    cases hok
  | some ow =>
    rw [how] at hok
    cases hparse : Cidr4.parse cidr with
    | error e =>
      rw [hparse] at hok
      cases hok
    | ok block =>
      rw [hparse] at hok
      rcases h.nets.createNetwork_cases ow name block with ⟨⟨e, he⟩, -⟩ | ⟨-, hnew⟩
      · simp only [he, answer] at hok
        cases hok
      · simp only [hnew, answer] at hok
        cases hok
        exact ⟨ow, block, rfl, rfl, rfl, rfl⟩

theorem create_ok {label : String} {policy : RestartPolicy} {vmId : UInt32}
    (hok : h.create label policy none none none none = (.ok (.created vmId), h')) :
    h.slots[vmId.toNat]? = some none ∧ ∃ slot, slot.state = .created ∧ h' = h.setSlot vmId (some slot) := by
  unfold create at hok
  split at hok
  · cases hok
  · split at hok
    · cases hok
    · rename_i i hi
      cases hok
      obtain ⟨hnat, -, hfree⟩ := freeSlot_some hi
      rw [hnat]
      exact ⟨hfree, _, rfl, rfl⟩

theorem attachNic_ok {net : NetworkId} {vmId : UInt32} {nic : Nic}
    (hok : h.attachNic net vmId none = (.ok (.nicAttached nic), h')) :
    ∃ v, h.nets.networks.lookup net = some v ∧ v.cidr.LowestFree (h.nets.used net) nic.ip ∧
      nic = ⟨MemNetworkStore.nicId net (satAdd32 (h.nets.nicCounter net) 1), net, vmId, nic.ip,
        makeMac net (satAdd32 (h.nets.nicCounter net) 1)⟩ ∧
      h' = { h with nets := h.nets.withNic net vmId nic.ip } := by
  unfold attachNic at hok
  split at hok
  · cases hok
  · simp only [Option.map_none, Option.join_none] at hok
    rcases h.nets.attachNic_cases net vmId none with ⟨⟨e, he⟩, -⟩ | ⟨v, ip, hv, -, hchoose, hnew⟩
    · simp only [he, answer] at hok
      cases hok
    · simp only [hnew, answer] at hok
      cases hok
      rcases (MemNetworkStore.chooseIp_ok.1 hchoose).2 with ⟨hreq, -⟩ | ⟨-, hlow⟩
      · cases hreq
      · exact ⟨v, hv, hlow, rfl, rfl⟩

theorem start_ok {vmId : UInt32} {r : VmOpReply} (hok : h.start vmId = (.ok r, h')) :
    ∃ s, s.state.isTerminal = true ∧ h' = h.setSlot vmId (some s) := by
  unfold start at hok
  split at hok
  · cases hok
  · split at hok
    · cases hok
    · split at hok
      · cases hok
      · cases hok
        exact ⟨_, rfl, rfl⟩

/-- The id of the load balancer that is made next. -/
def newLbId (h : MemVmHost) (ow : String) : LoadBalancerId := ⟨ow ++ "/lb" ++ toString (satAdd64 h.nets.nextLb 1).toNat⟩

theorem createLoadBalancer_ok {name : String} {net : NetworkId} {vip : String} {port : UInt16} {algo : LbAlgo}
    {backends : List LbBackend} {lb : LoadBalancer}
    (hok : h.createLoadBalancer name net vip port algo backends = (.ok (.loadBalancerCreated lb), h')) :
    ∃ ow, h.owner = some ow ∧ Ipv4Addr.parse vip = some lb.vip ∧ lb.id = h.newLbId ow ∧ lb.networkId = net ∧
      h' = { h with nets := { h.nets with nextLb := satAdd64 h.nets.nextLb 1, lbs := h.nets.lbs.insert lb.id lb } } := by
  unfold createLoadBalancer at hok
  cases how : h.owner with
  | none =>
    rw [how] at hok
    cases hok
  | some ow =>
    rw [how] at hok
    cases hparse : Ipv4Addr.parse vip with
    | none =>
      rw [hparse] at hok
      cases hok
    | some addr =>
      rw [hparse] at hok
      simp only [MemNetworkStore.createLoadBalancer] at hok
      split at hok
      · cases hok
      · split at hok
        · cases hok
        · split at hok
          · cases hok
          · split at hok
            · cases hok
            · split at hok
              · cases hok
              · cases hok
                exact ⟨ow, rfl, rfl, rfl, rfl, rfl⟩

end MemVmHost

/-! ## One node, and all of them -/

/-- What making one node does to a host. -/
structure Provisioned (net : NetworkId) (h : MemVmHost) (n : K8sNodeRecord) (h' : MemVmHost) : Prop where
  free : h.slots[n.vmId.toNat]? = some none
  network : ∃ v, h.nets.networks.lookup net = some v ∧ v.cidr.LowestFree (h.nets.used net) n.nic.ip
  nic : n.nic = ⟨MemNetworkStore.nicId net (satAdd32 (h.nets.nicCounter net) 1), net, n.vmId, n.nic.ip,
    makeMac net (satAdd32 (h.nets.nicCounter net) 1)⟩
  host : ∃ s, s.state.isTerminal = true ∧ h' = { h with
    slots := h.slots.setIfInBounds n.vmId.toNat (some s), nets := h.nets.withNic net n.vmId n.nic.ip }

/-- The nodes are made one after the other. -/
inductive ProvisionedAll (net : NetworkId) : MemVmHost → List K8sNodeRecord → MemVmHost → Prop
  | nil (h : MemVmHost) : ProvisionedAll net h [] h
  | cons {h h1 h' : MemVmHost} {n : K8sNodeRecord} {ns : List K8sNodeRecord} (first : Provisioned net h n h1)
      (rest : ProvisionedAll net h1 ns h') : ProvisionedAll net h (n :: ns) h'

/-- What making nodes leaves alone. -/
structure SameBesides (h h' : MemVmHost) : Prop where
  owner : h'.owner = h.owner
  caps : h'.caps = h.caps
  vault : h'.vault = h.vault
  networks : h'.nets.networks = h.nets.networks
  sgs : h'.nets.sgs = h.nets.sgs
  lbs : h'.nets.lbs = h.nets.lbs
  nextLb : h'.nets.nextLb = h.nets.nextLb

theorem Provisioned.same {net : NetworkId} {h h' : MemVmHost} {n : K8sNodeRecord} (hp : Provisioned net h n h') :
    SameBesides h h' := by
  obtain ⟨s, -, rfl⟩ := hp.host
  exact ⟨rfl, rfl, rfl, rfl, rfl, rfl, rfl⟩

theorem ProvisionedAll.same {net : NetworkId} {h h' : MemVmHost} {ns : List K8sNodeRecord}
    (hp : ProvisionedAll net h ns h') : SameBesides h h' := by
  induction hp with
  | nil h => exact ⟨rfl, rfl, rfl, rfl, rfl, rfl, rfl⟩
  | cons first rest ih =>
    have hf := first.same
    exact ⟨ih.owner.trans hf.owner, ih.caps.trans hf.caps, ih.vault.trans hf.vault, ih.networks.trans hf.networks,
      ih.sgs.trans hf.sgs, ih.lbs.trans hf.lbs, ih.nextLb.trans hf.nextLb⟩

/-- What a creation that goes through did to the host `h`: a network of the node `ow` with the block, the nodes, which
take it to `g`, and the load balancer. -/
structure Created (spec : K8sClusterSpec) (h : MemVmHost) (c : K8sCluster) (ow : String) (block : Cidr4)
    (g h' : MemVmHost) : Prop where
  few : spec.workers.toNat ≤ 16
  owner : h.owner = some ow
  parsed : Cidr4.parse spec.cidr = .ok block
  network : c.network = ⟨h.nets.newNetworkId ow, ow, spec.name, block⟩
  nodes : ProvisionedAll c.network.id { h with nets := h.nets.withNetwork ow spec.name block } c.nodes g
  count : c.nodes.length = spec.workers.toNat + 1
  vip : block.nthHost block.capacity = some c.lb.vip
  lbId : c.lb.id = h.newLbId ow
  lbNet : c.lb.networkId = c.network.id
  host : h' = { g with
    nets := { g.nets with nextLb := satAdd64 g.nets.nextLb 1, lbs := g.nets.lbs.insert c.lb.id c.lb } }
  caps : ∀ cap ∈ [Capabilities.vmLifecycleWrite, .networkWrite, .lbWrite], h.caps.contains cap = true

namespace K8sCluster

open K8sCall

theorem vmId?_some {r : VmOpReply} {vmId : UInt32} (h : r.vmId? = some vmId) : r = .created vmId := by
  cases r <;> cases h
  rfl

theorem nic?_some {r : VmOpReply} {nic : Nic} (h : r.nic? = some nic) : r = .nicAttached nic := by
  cases r <;> cases h
  rfl

theorem network?_some {r : VmOpReply} {network : VirtualNetwork} (h : r.network? = some network) :
    r = .networkCreated network := by
  cases r <;> cases h
  rfl

theorem lb?_some {r : VmOpReply} {lb : LoadBalancer} (h : r.lb? = some lb) : r = .loadBalancerCreated lb := by
  cases r <;> cases h
  rfl

variable {o o' : K8sOwner} {ow : String} {net : NetworkId}

theorem provision_ok {role : K8sNodeRole} {tag label : String} {n : K8sNodeRecord} (how : o.host.owner = some ow)
    (h : K8sCall.run (provision net role tag label) o = (.ok n, o')) :
    Provisioned net o.host n o'.host ∧ o.host.caps.contains .vmLifecycleWrite = true ∧ o'.id = o.id ∧
      (o.carriage = [] → o'.carriage = []) := by
  unfold provision at h
  obtain ⟨r1, o1, h1, h⟩ := run_bind_ok.1 h
  obtain ⟨vmId, o1', hr1, h⟩ := run_bind_ok.1 h
  obtain ⟨r2, o2, h2, h⟩ := run_bind_ok.1 h
  obtain ⟨nic, o2', hr2, h⟩ := run_bind_ok.1 h
  obtain ⟨r3, o3, h3, h⟩ := run_bind_ok.1 h
  obtain ⟨rfl, rfl⟩ := run_pure_ok.1 h
  obtain ⟨hvm, rfl⟩ := run_expect_ok.1 hr1
  obtain ⟨hnew, rfl⟩ := run_expect_ok.1 hr2
  obtain rfl := vmId?_some hvm
  obtain rfl := nic?_some hnew
  obtain ⟨g1, hg1, hcaps, ho1, hid1, hc1⟩ := run_invoke_ok h1
  obtain ⟨g2, hg2, -, ho2, hid2, hc2⟩ := run_invoke_ok h2
  obtain ⟨g3, hg3, -, ho3, hid3, hc3⟩ := run_invoke_ok h3
  obtain ⟨hfree, s1, -, rfl⟩ := MemVmHost.create_ok hg1
  rw [ho1 ow how] at hg2
  obtain ⟨v, hv, hlow, hnic, rfl⟩ := MemVmHost.attachNic_ok hg2
  rw [ho2 ow how] at hg3
  obtain ⟨s, hs, rfl⟩ := MemVmHost.start_ok hg3
  refine ⟨⟨hfree, ⟨v, hv, hlow⟩, hnic, s, hs, ?_⟩, hcaps, hid3.trans (hid2.trans hid1), ?_⟩
  · rw [ho3 ow how]
    simp only [MemVmHost.setSlot, Vector.setIfInBounds_setIfInBounds]
  · intro hnil
    rw [hc3, hc2, hc1, hnil]
    rfl

theorem provisionWorkers_ok {labels : List String} {ns : List K8sNodeRecord} (how : o.host.owner = some ow)
    (h : K8sCall.run (provisionWorkers net labels) o = (.ok ns, o')) :
    ProvisionedAll net o.host ns o'.host ∧ ns.length = labels.length ∧ o'.id = o.id ∧
      (o.carriage = [] → o'.carriage = []) := by
  induction labels generalizing o ns with
  | nil =>
    rw [provisionWorkers] at h
    obtain ⟨rfl, rfl⟩ := run_pure_ok.1 h
    exact ⟨.nil _, rfl, rfl, id⟩
  | cons label labels ih =>
    rw [provisionWorkers] at h
    obtain ⟨n, o1, h1, h⟩ := run_bind_ok.1 h
    obtain ⟨ns, o2, h2, h⟩ := run_bind_ok.1 h
    obtain ⟨rfl, rfl⟩ := run_pure_ok.1 h
    obtain ⟨hfirst, -, hid, hc⟩ := provision_ok how h1
    obtain ⟨hrest, hlen, hid', hc'⟩ := ih (hfirst.same.owner.trans how) h2
    exact ⟨.cons hfirst hrest, by rw [List.length_cons, List.length_cons, hlen], hid'.trans hid, fun hnil => hc' (hc hnil)⟩

/-- **A creation that goes through.** -/
theorem create_ok {owner : NodeId} {spec : K8sClusterSpec} {c : K8sCluster}
    (h : K8sCall.run (create owner spec) o = (.ok c, o')) :
    (∃ ow block g, Created spec o.host c ow block g o'.host) ∧ (o.carriage = [] → o'.carriage = []) := by
  unfold create at h
  split at h
  · cases h
  · rename_i hworkers
    split at h
    · cases h
    · rename_i block' hparse
      obtain ⟨r1, o1, h1, hb⟩ := run_bind_ok.1 h
      obtain ⟨network, o1', hr1, hb'⟩ := run_bind_ok.1 hb
      obtain ⟨hnet, rfl⟩ := run_expect_ok.1 hr1
      obtain ⟨cp, o2, h2, hb2⟩ := run_bind_ok.1 hb'
      obtain ⟨ns, o3, h3, hb3⟩ := run_bind_ok.1 hb2
      obtain rfl := network?_some hnet
      simp only at hb3
      split at hb3
      · cases hb3
      · rename_i vip hvip
        obtain ⟨r4, o4, h4, hb4⟩ := run_bind_ok.1 hb3
        obtain ⟨lb, o4', hr4, hb5⟩ := run_bind_ok.1 hb4
        obtain ⟨hlb, rfl⟩ := run_expect_ok.1 hr4
        obtain ⟨rfl, rfl⟩ := run_pure_ok.1 hb5
        obtain rfl := lb?_some hlb
        obtain ⟨g1, hg1, hcaps1, ho1, -, hc1⟩ := run_invoke_ok h1
        obtain ⟨ow, block, how, hblock, rfl, rfl⟩ := MemVmHost.createNetwork_ok hg1
        have hhost1 := ho1 ow how
        have how1 : o1.host.owner = some ow := by rw [hhost1]; exact how
        obtain ⟨hcp, hcaps2, -, hc2⟩ := provision_ok how1 h2
        have how2 := hcp.same.owner.trans how1
        obtain ⟨hns, hlen, -, hc3⟩ := provisionWorkers_ok how2 h3
        have hall := ProvisionedAll.cons hcp hns
        have hsame := hall.same
        have how3 := hsame.owner.trans how1
        obtain ⟨g4, hg4, hcaps4, ho4, -, hc4⟩ := run_invoke_ok h4
        obtain ⟨ow', how', hvip', hid, hlbnet, rfl⟩ := MemVmHost.createLoadBalancer_ok hg4
        obtain rfl := Option.some.inj (how3.symm.trans how')
        rw [Ipv4Addr.parse_display] at hvip'
        obtain rfl := Option.some.inj hvip'
        rw [hhost1] at hall hsame hcaps2
        rw [hsame.caps] at hcaps4
        have hfew : spec.workers.toNat ≤ 16 := by
          simp only [not_or, gt_iff_lt, UInt32.not_lt] at hworkers
          exact UInt32.le_iff_toNat_le.1 hworkers.2
        refine ⟨⟨ow, block, o3.host, hfew, how, hblock, rfl, hall, ?_, hvip, ?_, hlbnet, ho4 ow how3, ?_⟩, ?_⟩
        · rw [List.length_cons, hlen, workerLabels, List.length_map, List.length_range]
        · rw [hid, MemVmHost.newLbId, MemVmHost.newLbId, hsame.nextLb]
          rfl
        · intro cap hcap
          simp only [List.mem_cons, List.not_mem_nil, or_false] at hcap
          rcases hcap with rfl | rfl | rfl
          · exact hcaps2
          · exact hcaps1
          · exact hcaps4
        · intro hnil
          have hnil1 : o1.carriage = [] := by rw [hc1, hnil]; rfl
          rw [hc4, hc3 (hc2 hnil1)]
          rfl

end K8sCluster

/-! ## The addresses of the nodes -/

/-- `j` is one of the first `k` numbers from one on. -/
def Among (k : Nat) (j : UInt32) : Prop := 1 ≤ j.toNat ∧ j.toNat ≤ k

/-- The network has given its first `k` host addresses to NICs with its first `k` ids; all other NICs are those of
`base`. -/
structure Filled (net : NetworkId) (c : Cidr4) (base : MemNetworkStore) (k : Nat) (s : MemNetworkStore) : Prop where
  network : ∃ v, s.networks.lookup net = some v ∧ v.cidr = c
  used : ∀ ip, (s.used net).lookup ip ≠ none ↔ ∃ j, Among k j ∧ c.nthHost j = some ip
  counter : (s.nicCounter net).toNat = k
  new : ∀ j, Among k j → ∃ nic, s.nics.lookup (MemNetworkStore.nicId net j) = some nic ∧ nic.networkId = net ∧
    c.nthHost j = some nic.ip
  old : ∀ id, (∀ j, Among k j → id ≠ MemNetworkStore.nicId net j) → s.nics.lookup id = base.nics.lookup id

theorem filled_withNetwork (s : MemNetworkStore) (ow name : String) (c : Cidr4) :
    Filled (s.newNetworkId ow) c s 0 (s.withNetwork ow name c) where
  network := ⟨_, AList.lookup_insert _, rfl⟩
  used := by
    intro ip
    rw [MemNetworkStore.used_withNetwork, if_pos rfl]
    refine iff_of_false (fun h => h rfl) ?_
    rintro ⟨j, ⟨hlo, hhi⟩, -⟩
    omega
  counter := by
    rw [MemNetworkStore.nicCounter, MemNetworkStore.withNetwork, AList.lookup_insert]
    rfl
  new := by
    rintro j ⟨hlo, hhi⟩
    omega
  old := fun _ _ => rfl

namespace Filled

variable {net : NetworkId} {c : Cidr4} {base s : MemNetworkStore} {k : Nat}

/-- **The lowest free address is the next one.** -/
theorem lowestFree (hf : Filled net c base k s) (hc : c.Exact) {ip : Ipv4Addr} (hlow : c.LowestFree (s.used net) ip) :
    ∃ j, j.toNat = k + 1 ∧ c.nthHost j = some ip := by
  obtain ⟨m, hm, hfree, hbelow⟩ := hlow
  obtain ⟨hm1, hmcap, hmip⟩ := (hc.host _ _).1 hm
  have hbig : k + 1 ≤ m.toNat := by
    by_contra hlt
    exact (hf.used ip).2 ⟨m, ⟨hm1, by omega⟩, hm⟩ hfree
  refine ⟨m, ?_, hm⟩
  by_contra hne
  -- The address before it is free as well.
  have hsize := m.toNat_lt
  have hnext : (UInt32.ofNat (k + 1)).toNat = k + 1 :=
    UInt32.toNat_ofNat_of_lt' (show _ < UInt32.size by unfold UInt32.size; omega)
  have hlast := hc.last
  have haddr : (UInt32.ofNat (c.base.bits.toNat + (k + 1))).toNat = c.base.bits.toNat + (k + 1) :=
    UInt32.toNat_ofNat_of_lt' (show _ < UInt32.size by unfold UInt32.size; omega)
  have hhost : c.nthHost (UInt32.ofNat (k + 1)) = some ⟨UInt32.ofNat (c.base.bits.toNat + (k + 1))⟩ :=
    (hc.host _ _).2 ⟨by omega, by omega, by rw [haddr, hnext]⟩
  have hused := hbelow (UInt32.ofNat (k + 1)) (by rw [UInt32.lt_iff_toNat_lt]; omega) _ hhost
  obtain ⟨j, ⟨-, hj⟩, hjhost⟩ := (hf.used _).1 (Option.isSome_iff_ne_none.1 hused)
  obtain ⟨-, -, hjaddr⟩ := (hc.host _ _).1 hjhost
  rw [haddr] at hjaddr
  omega

theorem nextId (hf : Filled net c base k s) (hk : k + 1 ≤ u32Max) {j : UInt32} (hj : j.toNat = k + 1) :
    satAdd32 (s.nicCounter net) 1 = j := by
  apply UInt32.toNat_inj.1
  rw [toNat_satAdd32, hf.counter, hj]
  exact Nat.min_eq_left hk

theorem withNic (hf : Filled net c base k s) (hc : c.Exact) (vmId : UInt32) {ip : Ipv4Addr}
    (hlow : c.LowestFree (s.used net) ip) : Filled net c base (k + 1) (s.withNic net vmId ip) := by
  obtain ⟨m, hm, hmip⟩ := hf.lowestFree hc hlow
  have hcap : k + 1 ≤ u32Max := by
    have := m.toNat_lt
    unfold u32Max
    omega
  have hid := hf.nextId hcap hm
  have hamong : ∀ j, Among (k + 1) j ↔ Among k j ∨ j = m := by
    intro j
    rw [← UInt32.toNat_inj, hm, Among, Among]
    omega
  constructor
  · exact hf.network
  · intro ip'
    rw [MemNetworkStore.used_withNic, if_pos rfl, Assoc.lookup_insert_ite]
    split
    · rename_i heq
      rw [heq]
      exact iff_of_true (Option.some_ne_none _) ⟨m, (hamong m).2 (.inr rfl), hmip⟩
    · rename_i hne
      rw [hf.used]
      refine exists_congr fun j => ?_
      rw [hamong]
      refine ⟨fun h => ⟨.inl h.1, h.2⟩, ?_⟩
      rintro ⟨hj | rfl, hhost⟩
      · exact ⟨hj, hhost⟩
      · exact absurd (Option.some.inj (hhost.symm.trans hmip)) hne
  · rw [MemNetworkStore.nicCounter, MemNetworkStore.withNic, AList.lookup_insert, hid, Option.getD_some, hm]
  · intro j hj
    simp only [MemNetworkStore.withNic, hid, Assoc.lookup_insert_ite]
    rcases (hamong j).1 hj with hj | rfl
    · have hne : MemNetworkStore.nicId net j ≠ MemNetworkStore.nicId net m := by
        intro heq
        have hsame := (MemNetworkStore.nicId_inj heq).2
        rw [hsame] at hj
        have := hj.2
        omega
      rw [if_neg hne]
      exact hf.new j hj
    · rw [if_pos rfl]
      exact ⟨_, rfl, rfl, hmip⟩
  · intro id hother
    simp only [MemNetworkStore.withNic, hid, Assoc.lookup_insert_ite]
    rw [if_neg (hother m ((hamong m).2 (.inr rfl)))]
    exact hf.old id fun j hj => hother j ((hamong j).2 (.inl hj))

end Filled

theorem ProvisionedAll.filled {net : NetworkId} {c : Cidr4} {base : MemNetworkStore} {k : Nat} {h h' : MemVmHost}
    {ns : List K8sNodeRecord} (hc : c.Exact) (hp : ProvisionedAll net h ns h') (hf : Filled net c base k h.nets) :
    Filled net c base (k + ns.length) h'.nets := by
  induction hp generalizing k with
  | nil h => exact hf
  | cons first rest ih =>
    obtain ⟨s, -, rfl⟩ := first.host
    obtain ⟨v, hv, hlow⟩ := first.network
    obtain ⟨v', hv', rfl⟩ := hf.network
    obtain rfl := Option.some.inj (hv.symm.trans hv')
    have hnext := ih (hf.withNic hc _ hlow)
    rw [List.length_cons]
    rwa [Nat.add_right_comm] at hnext

/-! ## The virtual address -/

/-- The address of the load balancer is a host address of the network that none of its NICs has. -/
def VipFree (c : K8sCluster) (s : MemNetworkStore) : Prop :=
  c.network.cidr.IsHost c.lb.vip ∧
    ∀ id nic, s.nics.lookup id = some nic → nic.networkId = c.network.id → nic.ip ≠ c.lb.vip

/-- The block has not exactly as many host addresses as the cluster has nodes, and its last one is not that of a NIC left
over on a network with the id of the new one, under an id that is not given out again. -/
def VipFits (spec : K8sClusterSpec) (h : MemVmHost) : Prop :=
  ∀ ow block, h.owner = some ow → Cidr4.parse spec.cidr = .ok block →
    block.capacity.toNat ≠ spec.workers.toNat + 1 ∧
    ∀ id nic, h.nets.nics.lookup id = some nic → nic.networkId = h.nets.newNetworkId ow →
      (∀ j, Among (spec.workers.toNat + 1) j → id ≠ MemNetworkStore.nicId (h.nets.newNetworkId ow) j) →
      block.nthHost block.capacity ≠ some nic.ip

section Created

variable {spec : K8sClusterSpec} {h h' g : MemVmHost} {c : K8sCluster} {ow : String} {block : Cidr4}

theorem Created.unfilled (hc : Created spec h c ow block g h') :
    Filled c.network.id block h.nets 0 (h.nets.withNetwork ow spec.name block) := by
  rw [hc.network]
  exact filled_withNetwork h.nets ow spec.name block

/-- What the network has when its nodes are there. -/
theorem Created.filled (hc : Created spec h c ow block g h') :
    Filled c.network.id block h.nets (spec.workers.toNat + 1) g.nets := by
  have hfilled := hc.nodes.filled (Cidr4.exact_of_parse ⟨_, hc.parsed⟩) hc.unfilled
  rwa [Nat.zero_add, hc.count] at hfilled

theorem Created.vipFree_iff (hc : Created spec h c ow block g h') : VipFree c h'.nets ↔ VipFits spec h := by
  have hexact := Cidr4.exact_of_parse ⟨_, hc.parsed⟩
  have hid : c.network.id = h.nets.newNetworkId ow := by rw [hc.network]
  have hcidr : c.network.cidr = block := by rw [hc.network]
  have hnics : h'.nets.nics = g.nets.nics := by rw [hc.host]
  have hfilled := hc.filled
  rw [hid] at hfilled
  have hfew := hc.few
  -- As many addresses are given out as there are nodes, so the last of them is a host address.
  have hlast : (UInt32.ofNat (spec.workers.toNat + 1)).toNat = spec.workers.toNat + 1 :=
    UInt32.toNat_ofNat_of_lt' (show _ < UInt32.size by unfold UInt32.size; omega)
  have hroom : spec.workers.toNat + 1 ≤ block.capacity.toNat := by
    obtain ⟨nic, -, -, hip⟩ := hfilled.new (UInt32.ofNat (spec.workers.toNat + 1)) ⟨by omega, by omega⟩
    obtain ⟨-, hle, -⟩ := (hexact.host _ _).1 hip
    omega
  have hvip := hc.vip
  rw [VipFree, hid, hcidr, hnics]
  constructor
  · rintro ⟨-, hfree⟩ ow' block' how hparse
    obtain rfl := Option.some.inj (hc.owner.symm.trans how)
    obtain rfl := Except.ok.inj (hc.parsed.symm.trans hparse)
    constructor
    · intro heq
      obtain ⟨nic, hnic, hnet, hip⟩ := hfilled.new block.capacity ⟨by omega, by omega⟩
      exact hfree _ nic hnic hnet (Option.some.inj (hip.symm.trans hvip))
    · intro id nic hnic hnet hother hip
      have hold := hfilled.old id hother
      exact hfree id nic (hold.trans hnic) hnet (Option.some.inj (hip.symm.trans hvip))
  · intro hfits
    obtain ⟨hne, hleft⟩ := hfits ow block hc.owner hc.parsed
    refine ⟨hexact.isHost_iff.2 ⟨_, hvip⟩, fun id nic hnic hnet hip => ?_⟩
    by_cases hnew : ∃ j, Among (spec.workers.toNat + 1) j ∧ id = MemNetworkStore.nicId (h.nets.newNetworkId ow) j
    · obtain ⟨j, hj, rfl⟩ := hnew
      obtain ⟨nic', hnic', -, hip'⟩ := hfilled.new j hj
      obtain rfl := Option.some.inj (hnic.symm.trans hnic')
      rw [hip] at hip'
      obtain ⟨-, -, haddr⟩ := (hexact.host _ _).1 hip'
      obtain ⟨-, -, haddr'⟩ := (hexact.host _ _).1 hvip
      have hle := hj.2
      omega
    · have hother : ∀ j, Among (spec.workers.toNat + 1) j → id ≠ MemNetworkStore.nicId (h.nets.newNetworkId ow) j :=
        fun j hj heq => hnew ⟨j, hj, heq⟩
      rw [hfilled.old id hother] at hnic
      exact hleft id nic hnic hnet hother (hip ▸ hvip)

end Created

/-- **The virtual address is free exactly when the block has more host addresses than the cluster has nodes**, and none is
left over from a network with the same id. -/
theorem vip_free_iff {owner : NodeId} {spec : K8sClusterSpec} {o o' : K8sOwner} {c : K8sCluster}
    (h : K8sCall.run (K8sCluster.create owner spec) o = (.ok c, o')) : VipFree c o'.host.nets ↔ VipFits spec o.host := by
  obtain ⟨⟨ow, block, g, hc⟩, -⟩ := K8sCluster.create_ok h
  exact hc.vipFree_iff

/-- The node `a` with an empty host. -/
def ownerA : K8sOwner := ⟨⟨"a"⟩, false, (MemVmHost.new.currentRows ⟨"a"⟩).2, []⟩

/-- A control plane and one worker. -/
def pair (cidr : String) : K8sClusterSpec := ⟨"k", 1, cidr, 6443, 6443, .roundRobin⟩

/-- Six host addresses are enough for two nodes and the load balancer. -/
theorem vip_free_six : ∃ c o', K8sCall.run (K8sCluster.create ⟨"a"⟩ (pair "10.42.0.0/29")) ownerA = (.ok c, o') ∧
    (VipFree c o'.host.nets ↔ VipFits (pair "10.42.0.0/29") ownerA.host) := by
  have hok : (K8sCall.run (K8sCluster.create ⟨"a"⟩ (pair "10.42.0.0/29")) ownerA).1.isOk = true := by decide +kernel
  rcases hrun : K8sCall.run (K8sCluster.create ⟨"a"⟩ (pair "10.42.0.0/29")) ownerA with ⟨_ | c, o'⟩
  · rw [hrun] at hok
    cases hok
  · exact ⟨c, o', rfl, vip_free_iff hrun⟩

/-- The answer is a cluster, and a NIC of its network has its virtual address. -/
def vipTaken : CelResult K8sCluster × K8sOwner → Bool
  | (.ok c, o) => o.host.nets.nics.entries.any (fun e => e.2.networkId == c.network.id && e.2.ip == c.lb.vip)
  | (.error _, _) => false

/-- **The worker of a cluster on two host addresses has the address of the load balancer.** -/
theorem vip_taken_two : ¬ ∀ (owner : NodeId) (spec : K8sClusterSpec) (o o' : K8sOwner) (c : K8sCluster),
    K8sCall.run (K8sCluster.create owner spec) o = (.ok c, o') → VipFree c o'.host.nets := by
  intro hall
  have htaken : vipTaken (K8sCall.run (K8sCluster.create ⟨"a"⟩ (pair "10.42.0.0/30")) ownerA) = true := by
    decide +kernel
  rcases hrun : K8sCall.run (K8sCluster.create ⟨"a"⟩ (pair "10.42.0.0/30")) ownerA with ⟨_ | c, o'⟩
  · rw [hrun] at htaken
    cases htaken
  · rw [hrun] at htaken
    obtain ⟨⟨id, nic⟩, hmem, hsame⟩ := List.any_eq_true.1 htaken
    simp only [Bool.and_eq_true, beq_iff_eq] at hsame
    exact (hall _ _ _ _ _ hrun).2 id nic (AList.mem_lookup_iff.2 hmem) hsame.1 hsame.2

end Celium
