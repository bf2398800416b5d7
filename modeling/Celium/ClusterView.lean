import Celium.Cluster
/-!
# ClusterView — what a node may believe of another's VMs

Over every run of a cluster, whatever is lost, repeated, reordered or handed to the wrong node and whoever restarts:
every VM row anywhere is one its owner itself held earlier (`row_was_held`), two rows of one VM and one stamp are one row
(`rows_agree`), and a node that has processed a `Sync` the owner sent after its last publish holds every VM of the owner
as the owner has it, for as long as the owner publishes nothing new (`synced`).
-/
namespace Celium

open Fixed Runs

namespace GossipCluster

/-- The clock of the node that takes a section of its own has not saturated. -/
def Unsaturated (c : GossipCluster) (a : Nat × GossipMove) : Prop :=
  match a.2 with
  | .act i _ => (c.node i).hlc.toNat < u64Max
  | _ => True

instance (c : GossipCluster) (a : Nat × GossipMove) : Decidable (c.Unsaturated a) :=
  match a with
  | (_, .act i _) => inferInstanceAs (Decidable ((c.node i).hlc.toNat < u64Max))
  | (_, .deliver ..) => .isTrue trivial
  | (_, .restart ..) => .isTrue trivial

theorem sim_start (cfg : NodeId → MeshConfig) (now : NodeId → Nat) :
    Sim [start cfg now] (start cfg now) Gossip.World.empty where
  wf := start_wf cfg now
  sound := Gossip.sound_empty
  table := fun _ _ => rfl
  sent := fun _ h => by cases h
  below := fun _ h => h.elim
  seen := fun _ h => h.elim
  kept := fun s hs j k v hv => by
    obtain rfl := List.mem_singleton.1 hs
    cases hv

/-- **Every run of the cluster is a run of the replicated table.** -/
theorem sim_run (cfg : NodeId → MeshConfig) (now : NodeId → Nat) (as : List (Nat × GossipMove)) :
    ∃ w, Sim (states step (start cfg now) as) (run step (start cfg now) as) w :=
  of_along_past (I := fun past c => ∃ w, Sim past c w) (C := fun _ _ => True)
    (fun _ _ a h _ => h.elim (fun _ hw => ⟨_, (sim_step hw a).2⟩)) ⟨_, sim_start cfg now⟩
    (along_of_forall (fun _ _ => trivial) _ _)

/-- **An unsaturated clock stamps above everything the node wrote before.** -/
theorem actOf_newer {past : List GossipCluster} {c : GossipCluster} {w : Gossip.World NodeId (NodeId × UInt32) RemoteVm}
    (h : Sim past c w) {a : Nat × GossipMove} (hu : c.Unsaturated a) : (actOf c a).Newer vmScheme w := by
  obtain ⟨now, m⟩ := a
  have hsend : ∀ (i : NodeId) (rows : Set RemoteVm), (Gossip.Act.send i rows).Newer vmScheme w := fun _ _ => trivial
  cases m with
  | act i s =>
    cases s with
    | publish rows =>
      intro k v hk hv
      right
      intro u hu' hukey
      have hwf' := step_wf h.wf (now, .act i (.publish rows))
      have hnode : (c.step (now, .act i (.publish rows))).2 = { c.put i ((c.node i).publishLocalVms rows now).2 with
          sent := c.sent ++ [] } := congrArg Prod.snd (step_act rfl now)
      rw [hnode] at hv
      have hlook := (view_put_self c i ((c.node i).publishLocalVms rows now).2 k).symm.trans hv
      obtain ⟨x, hx, hxv⟩ := Option.map_eq_some_iff.1 hlook
      obtain rfl : k.1 = i := hk
      have hstamp := publish_rows (h.wf k.1).1 (h.wf k.1).2.symm hx
      have howner : u.owner = k.1 := congrArg Prod.fst hukey
      have hsv : x.received.stamp = v.stamp := congrArg RemoteVm.stamp hxv
      have hbelow := h.below u hu'
      rw [howner] at hbelow
      refine lt_of_le_of_lt hbelow ?_
      change _ < v.stamp
      rw [← hsv]
      refine lt_of_lt_of_eq ?_ hstamp.symm
      exact Prod.Lex.toLex_lt_toLex.2 (.inr ⟨rfl, Inner.nextHlc_lt hu⟩)
    | _ => exact hsend _ _
  | deliver i n src =>
    simp only [actOf]
    split
    · exact trivial
    · exact hsend _ _
  | restart i cfg =>
    simp only [actOf]
    split
    · exact trivial
    · exact hsend _ _

/-- A run with unsaturated clocks is one of an ordered replicated table. -/
theorem ordered_run (cfg : NodeId → MeshConfig) (now : NodeId → Nat) {as : List (Nat × GossipMove)}
    (hu : Along step Unsaturated (start cfg now) as) :
    ∃ w, Sim (states step (start cfg now) as) (run step (start cfg now) as) w ∧ Gossip.Ordered vmScheme w :=
  of_along_past (I := fun past c => ∃ w, Sim past c w ∧ Gossip.Ordered vmScheme w) (C := Unsaturated)
    (fun _ _ a h hu => h.elim (fun _ hw =>
      ⟨_, (sim_step hw.1 a).2, Gossip.ordered_apply hw.1.sound hw.2 (sim_step hw.1 a).1 (actOf_newer hw.1 hu)⟩))
    ⟨_, sim_start cfg now, Gossip.ordered_empty⟩ hu

/-! ## Where a row comes from -/

theorem view_of_list {c : GossipCluster} (h : c.Wf) {i : NodeId} {v : RemoteVm} (hv : v ∈ (c.node i).federation.list) :
    c.view i v.key = some v.received := congrArg (Option.map RemoteVm.received) (((h i).1.vms.mem_list v).1 hv)

/-- An owner's rows are listed as they were received. -/
theorem localRows_of_view {c : GossipCluster} (h : c.Wf) {v : RemoteVm} (hv : c.view v.owner v.key = some v) :
    v ∈ (c.node v.owner).federation.localRows := by
  obtain ⟨u, hu, huv⟩ := Option.map_eq_some_iff.1 hv
  have hself : (c.node v.owner).federation.selfId = v.owner := (h v.owner).1.vm_self.trans (h v.owner).2
  have hkey := (h v.owner).1.vms.keyed _ u hu
  have howner : u.owner = (c.node v.owner).federation.selfId := (congrArg Prod.fst hkey).trans hself.symm
  have halive := (h v.owner).1.vms.own _ u hu howner
  have heq : u = v := by rw [← huv, RemoteVm.received, ← halive]
  subst heq
  exact ((h u.owner).1.vms.mem_localRows u).2 ⟨hu, howner⟩

/-- **Every VM row a node lists was held by its owner itself, earlier in the run**, and is stamped within the owner's
clock: no loss, repetition, reordering or restart puts a row about that its owner did not publish. -/
theorem row_was_held (cfg : NodeId → MeshConfig) (now : NodeId → Nat) (as : List (Nat × GossipMove)) (i : NodeId) (v : RemoteVm)
    (hv : v ∈ ((run step (start cfg now) as).node i).federation.list) :
    (∃ c ∈ states step (start cfg now) as, v.received ∈ (c.node v.owner).federation.localRows) ∧
      v.stamp ≤ (run step (start cfg now) as).clock v.owner := by
  obtain ⟨w, hw⟩ := sim_run cfg now as
  have hheld : v.received ∈ w.written := hw.sound.held i v.key _ ((hw.table i v.key).trans (view_of_list hw.wf hv))
  obtain ⟨c, hc, hview⟩ := hw.seen _ hheld
  have hcwf : c.Wf := inv_states (I := Wf) (fun _ a h => step_wf h a) (start_wf cfg now) as c hc
  exact ⟨⟨c, hc, localRows_of_view (v := v.received) hcwf hview⟩, hw.below v.received hheld⟩

/-- **Two rows of one VM and one stamp are one row**, at any two nodes and at any two moments of a run, up to each
node's own opinion of whether the owner is alive. -/
theorem rows_agree (cfg : NodeId → MeshConfig) (now : NodeId → Nat) (as : List (Nat × GossipMove))
    (hu : Along step Unsaturated (start cfg now) as) :
    ∀ c ∈ states step (start cfg now) as, ∀ c' ∈ states step (start cfg now) as, ∀ i j,
      ∀ v ∈ (c.node i).federation.list, ∀ v' ∈ (c'.node j).federation.list,
        v.key = v'.key → v.stamp = v'.stamp → v.received = v'.received := by
  intro c hc c' hc' i j v hv v' hv' hkey hstamp
  obtain ⟨w, hw, ho⟩ := ordered_run cfg now hu
  have hwf : ∀ c ∈ states step (start cfg now) as, c.Wf :=
    inv_states (I := Wf) (fun _ a h => step_wf h a) (start_wf cfg now) as
  have hheld := hw.kept c hc i v.key _ (view_of_list (hwf c hc) hv)
  have hheld' := hw.kept c' hc' j v'.key _ (view_of_list (hwf c' hc') hv')
  exact ho.agree _ hheld _ hheld' hkey hstamp

/-- Two nodes on the defaults: `b` publishes a VM, restarts and publishes another under the same id, and `a` hears of
both. -/
def twoIncarnations : List (Nat × GossipMove) :=
  [(1, .act ⟨"b"⟩ (.publish [vmOfB 0 0 true])), (2, .act ⟨"b"⟩ .sendSync), (3, .deliver ⟨"a"⟩ 0 "mem://b"),
    (4, .restart ⟨"b"⟩ { defaultsFor "b" with epoch := 2 }), (5, .act ⟨"b"⟩ (.publish [vmOfB 0 0 true])),
    (6, .act ⟨"b"⟩ .sendSync), (7, .deliver ⟨"a"⟩ 1 "mem://b"), (8, .deliver ⟨"a"⟩ 0 "mem://b")]

theorem row_was_held_restarted :
    ∃ c ∈ states step (start (fun i => defaultsFor i.raw) (fun _ => 0)) twoIncarnations,
      { vmOfB 0 1 true with epoch := 2 } ∈ (c.node ⟨"b"⟩).federation.localRows := by
  exact (row_was_held (fun i => defaultsFor i.raw) (fun _ => 0) twoIncarnations ⟨"a"⟩
    { vmOfB 0 1 true with epoch := 2 } (by decide)).1

theorem rows_agree_twoIncarnations :
    Along step Unsaturated (start (fun i => defaultsFor i.raw) (fun _ => 0)) twoIncarnations ∧
    ∀ i j, ∀ v ∈ ((run step (start (fun i => defaultsFor i.raw) (fun _ => 0)) twoIncarnations).node i).federation.list,
      ∀ v' ∈ ((run step (start (fun i => defaultsFor i.raw) (fun _ => 0)) twoIncarnations).node j).federation.list,
      v.key = v'.key → v.stamp = v'.stamp → v.received = v'.received := by
  have hu : Along step Unsaturated (start (fun i => defaultsFor i.raw) (fun _ => 0)) twoIncarnations := by
    unfold twoIncarnations
    refine ⟨?_, ?_, ?_, ?_, ?_, ?_, ?_, ?_, trivial⟩ <;> decide
  exact ⟨hu, fun i j => rows_agree _ _ _ hu _ (run_mem_states _ _) _ (run_mem_states _ _) i j⟩

/-! ## Catching up -/

/-- The move is no publishing and no restart of `O`. -/
def Quiet (O : NodeId) (a : Nat × GossipMove) : Prop :=
  (∀ rows, a.2 ≠ .act O (.publish rows)) ∧ ∀ cfg, a.2 ≠ .restart O cfg

/-- **A quiet owner's rows stay.** -/
theorem own_quiet {c : GossipCluster} (h : c.Wf) {O : NodeId} {a : Nat × GossipMove} (hq : Quiet O a) {k : NodeId × UInt32}
    (hk : k.1 = O) : (c.step a).2.view O k = c.view O k := by
  rcases c.step_cases a with heq | ⟨i, s, ha, hr, heq⟩ | ⟨i, n, src, env, -, -, heq⟩ | ⟨i, cfg, ha, -, heq⟩
  · rw [heq]
  · rw [heq]
    by_cases hi : O = i
    · subst hi
      refine (view_put_self c O _ k).trans ?_
      exact step_rows (c.node O) (a := (a.1, s)) hr (fun rows hs => hq.1 rows (ha.trans (congrArg _ hs))) k
    · exact view_put_ne c hi _ k
  · rw [heq]
    by_cases hi : O = i
    · subst hi
      rw [view_put_self]
      exact (handle_rows (h O).1 env src a.1 k).trans (Lww.mergeAll_closed (k := k) (hk.trans (h O).2.symm) _ _)
    · exact view_put_ne c hi _ k
  · rw [heq]
    have hi : O ≠ i := fun hi => hq.2 cfg (ha.trans (hi ▸ rfl))
    exact view_put_ne c hi _ k

theorem step_sent (c : GossipCluster) (a : Nat × GossipMove) : ∃ l, (c.step a).2.sent = c.sent ++ l := by
  rcases c.step_cases a with heq | ⟨i, s, -, -, heq⟩ | ⟨i, n, src, env, -, -, heq⟩ | ⟨i, cfg, -, -, heq⟩
  · exact ⟨[], by rw [heq, List.append_nil]⟩
  · exact ⟨_, by rw [heq]⟩
  · exact ⟨[], by rw [heq, List.append_nil]; rfl⟩
  · exact ⟨[], by rw [heq, List.append_nil]; rfl⟩

theorem sent_stays {c : GossipCluster} {n : Nat} {env : Envelope} (h : c.sent[n]? = some env) (a : Nat × GossipMove) :
    (c.step a).2.sent[n]? = some env := by
  obtain ⟨l, hl⟩ := c.step_sent a
  obtain ⟨hlt, -⟩ := List.getElem?_eq_some_iff.1 h
  rw [hl, List.getElem?_append_left hlt]
  exact h

/-- A cluster in order, in which `O` holds the rows `t`. -/
def Holding (O : NodeId) (t : NodeId × UInt32 → Option RemoteVm) (c : GossipCluster) : Prop :=
  ∃ past w, Sim past c w ∧ Gossip.Ordered vmScheme w ∧ ∀ k, k.1 = O → c.view O k = t k

theorem holding_step {O : NodeId} {t : NodeId × UInt32 → Option RemoteVm} {c : GossipCluster} (h : Holding O t c)
    {a : Nat × GossipMove} (hu : c.Unsaturated a) (hq : Quiet O a) : Holding O t (c.step a).2 := by
  obtain ⟨past, w, hw, ho, ht⟩ := h
  refine ⟨_, _, (sim_step hw a).2, Gossip.ordered_apply hw.sound ho (sim_step hw a).1 (actOf_newer hw hu), ?_⟩
  exact fun k hk => (own_quiet hw.wf hq hk).trans (ht k hk)

/-- **A node that has the owner's rows keeps them**, while the owner is quiet and the node does not restart. -/
theorem caught_step {O R : NodeId} (hne : R ≠ O) {t : NodeId × UInt32 → Option RemoteVm} {c : GossipCluster}
    (h : Holding O t c) (hR : ∀ k v, k.1 = O → t k = some v → c.view R k = some v) {a : Nat × GossipMove}
    (hr : ∀ cfg, a.2 ≠ .restart R cfg) {k : NodeId × UInt32} {v : RemoteVm} (hk : k.1 = O) (hv : t k = some v) :
    (c.step a).2.view R k = some v := by
  obtain ⟨past, w, hw, ho, ht⟩ := h
  have hkey : v.key = k := view_key hw.wf ((ht k hk).trans hv)
  subst hkey
  have hnewest : Gossip.Newest vmScheme w v := by
    refine ho.own v.key v ?_
    rw [hw.table]
    exact (congrArg (fun j => c.view j v.key) hk).trans ((ht v.key hk).trans hv)
  have hact : actOf c a ≠ .reset R := by
    intro heq
    unfold actOf at heq
    split at heq
    · cases heq
    · cases heq
    · split at heq <;> cases heq
    · rename_i i cfg ha
      split at heq
      · injection heq with heq
        exact hr cfg (heq ▸ ha)
      · cases heq
  have hown : v.key.1 ≠ R := fun heq => hne (heq.symm.trans hk)
  rw [← (sim_step hw a).2.table]
  exact Gossip.keeps_newest hw.sound (sim_step hw a).1 hnewest hown hact ((hw.table R v.key).trans (hR v.key v hk hv))

/-- **A `Sync` of the owner's present rows brings a node up to them.** -/
theorem caught_deliver {O R : NodeId} (hne : R ≠ O) {t : NodeId × UInt32 → Option RemoteVm} {c : GossipCluster}
    (h : Holding O t c) {n : Nat} {env : Envelope} (henv : c.sent[n]? = some env)
    (hvms : ∀ k v, k.1 = O → t k = some v → ∃ u ∈ Inner.vmsOf env, u.received = v)
    (hc : env.cluster = (c.node R).config.cluster) (src : String) (now : Nat) {k : NodeId × UInt32} {v : RemoteVm}
    (hk : k.1 = O) (hv : t k = some v) : (c.step (now, .deliver R n src)).2.view R k = some v := by
  obtain ⟨past, w, hw, ho, ht⟩ := h
  have hkey : v.key = k := view_key hw.wf ((ht k hk).trans hv)
  subst hkey
  have hnewest : Gossip.Newest vmScheme w v := by
    refine ho.own v.key v ?_
    rw [hw.table]
    exact (congrArg (fun j => c.view j v.key) hk).trans ((ht v.key hk).trans hv)
  have hact : actOf c (now, .deliver R n src) = .deliver R ((Inner.vmsOf env).map RemoteVm.received) := by
    simp only [actOf, henv, if_pos hc]
  have hsim := sim_step hw (now, .deliver R n src)
  rw [hact] at hsim
  have hown : v.key.1 ≠ R := fun heq => hne (heq.symm.trans hk)
  obtain ⟨u, hu, huv⟩ := hvms v.key v hk hv
  rw [← hsim.2.table]
  exact Gossip.deliver_newest hw.sound ho hsim.1 hnewest (List.mem_map.2 ⟨u, hu, huv⟩) hown

theorem sendSync_sent {c : GossipCluster} (h : c.Wf) (O : NodeId) (now : Nat) :
    ∃ env, (c.step (now, .act O .sendSync)).2.sent[c.sent.length]? = some env ∧
      env.cluster = (c.node O).config.cluster ∧
      ∀ k v, k.1 = O → c.view O k = some v → ∃ u ∈ Inner.vmsOf env, u.received = v := by
  refine ⟨(c.node O).sendSync.1, ?_, rfl, fun k v hk hv => ?_⟩
  · rw [step_act rfl]
    exact List.getElem?_concat_length
  · obtain ⟨u, hu, rfl⟩ := Option.map_eq_some_iff.1 hv
    obtain rfl := (h O).1.vms.keyed k u hu
    have hself : (c.node O).federation.selfId = O := (h O).1.vm_self.trans (h O).2
    exact ⟨u, ((h O).1.vms.mem_localRows u).2 ⟨hu, hk.trans hself.symm⟩, rfl⟩

/-- **Catching up.**  Take any run in which `O` sends a `Sync`, the frame later reaches `R`, and in between and ever
after `O` neither publishes nor restarts and, after it has arrived, `R` does not restart.  Then at the end `R` holds
every VM of `O` exactly as `O` holds it, whatever else the two or anybody else sent, received or lost, before, in between
and after. -/
theorem synced (cfg : NodeId → MeshConfig) (now : NodeId → Nat) {O R : NodeId} (hne : R ≠ O)
    (pre mid post : List (Nat × GossipMove)) (t t' : Nat) (src : String) {as : List (Nat × GossipMove)}
    (has : as = pre ++ (t, .act O .sendSync) ::
      (mid ++ (t', .deliver R (run step (start cfg now) pre).sent.length src) :: post))
    (hu : Along step Unsaturated (start cfg now) as) (hmid : ∀ a ∈ mid, Quiet O a)
    (hpost : ∀ a ∈ post, Quiet O a ∧ ∀ cfg, a.2 ≠ .restart R cfg)
    (hcluster : ((run step (start cfg now) (pre ++ (t, .act O .sendSync) :: mid)).node R).config.cluster =
      ((run step (start cfg now) pre).node O).config.cluster) :
    ∀ k v, k.1 = O → (run step (start cfg now) as).view O k = some v → (run step (start cfg now) as).view R k = some v := by
  subst has
  rw [along_append] at hu
  obtain ⟨hupre, husend, hu⟩ := hu
  rw [along_append] at hu
  obtain ⟨humid, hudel, hupost⟩ := hu
  rw [run_append] at hcluster
  rw [run_append, run, run_append, run]
  obtain ⟨w, hw, ho⟩ := ordered_run cfg now hupre
  set c0 := run step (start cfg now) pre
  have hquiet : Quiet O (t, .act O .sendSync) := ⟨fun _ h => (by cases h), fun _ h => by cases h⟩
  have hhold0 : Holding O (c0.view O) c0 := ⟨_, _, hw, ho, fun _ _ => rfl⟩
  have hhold1 := holding_step hhold0 husend hquiet
  obtain ⟨env, henv, hcl, hvms⟩ := sendSync_sent hw.wf O t
  -- up to the delivery `O` keeps its rows, and the frame stays on the wire
  have hmidAll := of_along (I := fun c => Holding O (c0.view O) c ∧ c.sent[c0.sent.length]? = some env)
    (fun c a h hc => ⟨holding_step h.1 hc.1 hc.2, sent_stays h.2 a⟩) ⟨hhold1, henv⟩
    (along_and humid (along_of_mem hmid _))
  obtain ⟨hhold2, henv2⟩ := hmidAll _ (run_mem_states _ mid)
  have hhold3 := holding_step hhold2 hudel ⟨fun _ h => (by cases h), fun _ h => by cases h⟩
  have hcaught := fun k v hk hv =>
    caught_deliver hne hhold2 henv2 hvms (hcl.trans hcluster.symm) src t' (k := k) (v := v) hk hv
  -- from then on `R` keeps them
  have hpostAll := of_along (I := fun c => Holding O (c0.view O) c ∧
      ∀ k v, k.1 = O → c0.view O k = some v → c.view R k = some v)
    (fun c a h hc => ⟨holding_step h.1 hc.1 hc.2.1, fun k v hk hv => caught_step hne h.1 h.2 hc.2.2 hk hv⟩)
    ⟨hhold3, hcaught⟩ (along_and hupost (along_of_mem hpost _))
  obtain ⟨⟨past, w', -, -, hrows⟩, hend⟩ := hpostAll _ (run_mem_states _ post)
  exact fun k v hk hv => hend k v hk ((hrows k hk).symm.trans hv)

theorem synced_pastRestart :
    let c0 := start (fun i => defaultsFor i.raw) (fun _ => 0)
    let pre := twoIncarnations.take 5
    let as := pre ++ (6, .act ⟨"b"⟩ .sendSync) :: ([] ++ (7, .deliver ⟨"a"⟩ (run step c0 pre).sent.length "mem://b") ::
      [(8, .deliver ⟨"a"⟩ 0 "mem://b")])
    (run step c0 as).view ⟨"a"⟩ (⟨"b"⟩, 0) = some { vmOfB 0 1 true with epoch := 2 } := by
  intro c0 pre as
  have hu : Along step Unsaturated c0 as := by
    refine ⟨?_, ?_, ?_, ?_, ?_, ?_, ?_, ?_, trivial⟩ <;> decide
  refine synced _ _ (O := ⟨"b"⟩) (R := ⟨"a"⟩) (by decide) pre [] [(8, .deliver ⟨"a"⟩ 0 "mem://b")] 6 7 "mem://b" rfl hu
    (fun _ h => by cases h) (fun a ha => ?_) (by decide) (⟨"b"⟩, 0) _ rfl (by decide)
  obtain rfl := List.mem_singleton.1 ha
  exact ⟨⟨fun _ => nofun, fun _ => nofun⟩, fun _ => nofun⟩

end GossipCluster

end Celium
