import Celium.Cluster
/-!
# ClusterMembers — what a node may believe of another

Rows of the membership table are relayed, and each node's failure detector writes its own opinion of a peer into the
`status` it then relays.  So a status proves little; but over every run of a cluster a row about a node is stamped within
that node's own clock, carries an address the node advertised in the incarnation it names, and says `Left` only where the
node said `Goodbye` (`row_is_honest`).
-/
namespace Celium

open Fixed Runs

namespace GossipCluster

/-- What a row about a node is worth, in a cluster that has passed through `past`. -/
structure Honest (past : List GossipCluster) (c : GossipCluster) (r : NodeInfo) : Prop where
  clock : r.stamp ≤ c.clock r.id
  addr : ∃ s ∈ past, (s.node r.id).config.epoch = r.epoch ∧ (s.node r.id).config.advertiseAddr = r.addr
  left : r.status = .left → ∃ env ∈ c.sent, Inner.isGoodbye env = true ∧ env.sender = r.id.raw

/-- Every row in a table or on the wire is honest. -/
structure Told (past : List GossipCluster) (c : GossipCluster) : Prop where
  wf : c.Wf
  now : c ∈ past
  rows : ∀ j k r, (c.node j).membership.rows.lookup k = some r → Honest past c r
  sent : ∀ env ∈ c.sent, ∀ r ∈ Inner.nodesOf env, Honest past c r

/-- `c'` comes after `c`: clocks and frames only grow. -/
structure Onward (past : List GossipCluster) (c : GossipCluster) (past' : List GossipCluster) (c' : GossipCluster) : Prop where
  past : past ⊆ past'
  clock : ∀ j, c.clock j ≤ c'.clock j
  sent : c.sent ⊆ c'.sent

section

variable {past past' : List GossipCluster} {c c' : GossipCluster} {r : NodeInfo}

theorem Honest.onward (h : Honest past c r) (ho : Onward past c past' c') : Honest past' c' r where
  clock := h.clock.trans (ho.clock r.id)
  addr := h.addr.elim (fun s hs => ⟨s, ho.past hs.1, hs.2⟩)
  left := fun hl => (h.left hl).elim (fun env henv => ⟨env, ho.sent henv.1, henv.2⟩)

/-- A failure detector's opinion leaves a row honest. -/
theorem Honest.restatus (h : Honest past c r) (status : NodeStatus) (hs : status = .left → r.status = .left) :
    Honest past c { r with status } where
  clock := h.clock
  addr := h.addr
  left := fun hl => h.left (hs hl)

/-- A newer stamp within the clock of the node leaves its row honest. -/
theorem Honest.restamp (h : Honest past c r) (hlc : UInt64) (hle : stampOf r.epoch hlc ≤ c.clock r.id) :
    Honest past c { r with hlc } where
  clock := hle
  addr := h.addr
  left := h.left

end

theorem onward_step {past : List GossipCluster} {c : GossipCluster} (h : c.Wf) (a : Nat × GossipMove) :
    Onward past c (past ++ [(c.step a).2]) (c.step a).2 where
  past := List.subset_append_left _ _
  clock := step_clock h a
  sent := by
    rcases c.step_cases a with heq | ⟨i, s, -, -, heq⟩ | ⟨i, n, src, env, -, -, heq⟩ | ⟨i, cfg, -, -, heq⟩
    · rw [heq]
      exact List.Subset.refl _
    · rw [heq]
      exact List.subset_append_left _ _
    · rw [heq]
      exact List.Subset.refl _
    · rw [heq]
      exact List.Subset.refl _

/-! ## What one node does to its rows -/

section Node

variable {past : List GossipCluster} {c : GossipCluster} {i : NodeId}

/-- A node's rows after a merge are rows it had or rows that came. -/
theorem mergeAll_row (m : Membership) (l : List (NodeInfo × Nat)) {k : NodeId} {r : NodeInfo}
    (h : (m.mergeAll l).rows.lookup k = some r) : m.rows.lookup k = some r ∨ r ∈ l.map (·.1) := by
  have hrows : (m.mergeAll l).rows.lookup k = _ := congrFun (m.mergeAll_rows l) k
  rw [hrows] at h
  let S : Gossip.Scheme NodeId NodeId NodeInfo (ℕ ×ₗ ℕ) := ⟨id, NodeInfo.id, NodeInfo.stamp⟩
  rcases Gossip.mergeAll_cases (S := S) (· = m.selfId) (fun k => m.rows.lookup k) (l.map (·.1)) k with
    heq | ⟨v, hv, -, heq⟩
  · exact .inl (heq.symm.trans h)
  · obtain rfl := Option.some.inj (heq.symm.trans h)
    exact .inr hv

theorem mem_replaceFirst {row r : NodeInfo} {l : List NodeInfo} (h : r ∈ Inner.replaceFirst row l) : r = row ∨ r ∈ l := by
  induction l with
  | nil => cases h
  | cons x l ih =>
    rw [Inner.replaceFirst] at h
    split at h
    · rcases List.mem_cons.1 h with rfl | h
      · exact .inl rfl
      · exact .inr (List.mem_cons_of_mem x h)
    · rcases List.mem_cons.1 h with rfl | h
      · exact .inr List.mem_cons_self
      · exact (ih h).imp id (List.mem_cons_of_mem x)

/-- **A section of a node's own leaves a row as it was, restates it by the failure detector, or stamps its own row with
the clock.** -/
theorem step_member {cfg : MeshConfig} {g : Inner} (h : g.Wf cfg) {a : Nat × Section} (hr : a.2.isReceive = false)
    {k : NodeId} {r : NodeInfo} (hrow : (g.step a).2.membership.rows.lookup k = some r) :
    ∃ r₀ status hlc, g.membership.rows.lookup k = some r₀ ∧ r = { r₀ with status, hlc } ∧
      (status = .left → r₀.status = .left) ∧
      (hlc = r₀.hlc ∨ (k = cfg.nodeId ∧ r₀.epoch = cfg.epoch ∧ hlc = (g.step a).2.hlc)) := by
  have hsame : (g.step a).2.membership = g.membership → ∃ r₀ status hlc, g.membership.rows.lookup k = some r₀ ∧
      r = { r₀ with status, hlc } ∧ (status = .left → r₀.status = .left) ∧
      (hlc = r₀.hlc ∨ (k = cfg.nodeId ∧ r₀.epoch = cfg.epoch ∧ hlc = (g.step a).2.hlc)) := by
    intro heq
    rw [heq] at hrow
    exact ⟨r, r.status, r.hlc, hrow, rfl, id, .inl rfl⟩
  obtain ⟨now, s⟩ := a
  cases s with
  | receive env src => cases hr
  | publish rows =>
    have hmem : ((g.step (now, .publish rows)).2.membership) = g.membership.bumpSelf g.nextHlc now := rfl
    rw [hmem] at hrow
    by_cases hk : k = g.membership.selfId
    · subst hk
      obtain ⟨r₀, hr₀, hepoch, -⟩ := h.self
      rw [← h.member_self] at hr₀
      have hbump : (g.membership.bumpSelf g.nextHlc now).rows.lookup g.membership.selfId = _ :=
        Membership.bumpSelf_self hr₀ g.nextHlc now
      obtain rfl := Option.some.inj (hbump.symm.trans hrow)
      refine ⟨r₀, .alive, max r₀.hlc g.nextHlc, hr₀, rfl, nofun, ?_⟩
      by_cases hle : r₀.hlc ≤ g.nextHlc
      · exact .inr ⟨h.member_self, hepoch, if_pos hle⟩
      · exact .inl (if_neg hle)
    · rw [Membership.bumpSelf_rows _ _ _ hk] at hrow
      exact ⟨r, r.status, r.hlc, hrow, rfl, id, .inl rfl⟩
  | gossip order =>
    have hmem : ((g.step (now, .gossip order)).2.membership) = (g.membership.tick now).2 := rfl
    rw [hmem, Membership.tick_rows] at hrow
    obtain ⟨r₀, hr₀, rfl⟩ := Option.map_eq_some_iff.1 hrow
    refine ⟨r₀, (g.membership.tickRow now k r₀).status, r₀.hlc, hr₀, ?_, ?_, .inl rfl⟩
    · unfold Membership.tickRow
      split
      · rfl
      · split <;> rfl
    · unfold Membership.tickRow
      split
      · exact id
      · split
        · exact id
        · unfold Membership.statusAfter
          split
          · nofun
          · split <;> nofun
  | join addr => exact hsame rfl
  | listVms => exact hsame rfl
  | sendHello => exact hsame rfl
  | sendSync => exact hsame rfl
  | shutdown => exact hsame rfl
  | sendRequest reqId target op => exact hsame rfl
  | sendResponse reqId result => exact hsame rfl

/-- **A frame carries the sender's own row, stamped with its clock, and rows out of its table.** -/
theorem answer_nodes {cfg : MeshConfig} {g : Inner} (h : g.Wf cfg) {a : Nat × Section} {env : Envelope}
    (henv : (g.step a).1 = some env) {r : NodeInfo} (hr : r ∈ Inner.nodesOf env) :
    ∃ r₀ k, g.membership.rows.lookup k = some r₀ ∧
      (r = r₀ ∨ (k = cfg.nodeId ∧ r₀.epoch = cfg.epoch ∧ r = { r₀ with hlc := (g.step a).2.hlc })) := by
  obtain ⟨hnext, p, rfl, hpayload⟩ := Inner.step_envelope henv
  have hself : ∃ r₀, g.membership.rows.lookup cfg.nodeId = some r₀ ∧ r₀.epoch = cfg.epoch ∧
      g.tickHlc.helloRow = { r₀ with hlc := g.tickHlc.hlc } := by
    obtain ⟨r₀, hr₀, hepoch, -⟩ := h.self
    refine ⟨r₀, hr₀, hepoch, ?_⟩
    have hrow : g.tickHlc.selfRow = r₀ := by
      have hget : g.tickHlc.membership.get g.tickHlc.membership.selfId = some r₀ := by
        rw [← h.member_self] at hr₀
        exact hr₀
      rw [Inner.selfRow, hget]
      rfl
    rw [Inner.helloRow, hrow]
  obtain ⟨r₀, hr₀, hepoch, hhello⟩ := hself
  have hown : r = g.tickHlc.helloRow → ∃ r₀ k, g.membership.rows.lookup k = some r₀ ∧
      (r = r₀ ∨ (k = cfg.nodeId ∧ r₀.epoch = cfg.epoch ∧ r = { r₀ with hlc := (g.step a).2.hlc })) := by
    intro heq
    rw [hnext]
    exact ⟨r₀, cfg.nodeId, hr₀, .inr ⟨rfl, hepoch, heq.trans hhello⟩⟩
  rcases hpayload with rfl | rfl | rfl | ⟨reqId, target, op, rfl⟩ | ⟨reqId, result, rfl⟩
  · exact hown (List.mem_singleton.1 hr)
  · rcases mem_replaceFirst hr with heq | hmem
    · exact hown heq
    · obtain ⟨k, hk⟩ := (Membership.mem_snapshot _ r).1 hmem
      exact ⟨r, k, hk, .inl rfl⟩
  · cases hr
  · cases hr
  · cases hr

end Node

/-! ## One move -/

section Step

variable {past : List GossipCluster} {c : GossipCluster}

/-- A row a node stamps with its clock is honest after the step. -/
theorem told_act (h : Told past c) {i : NodeId} {s : Section} (hs : s.isReceive = false) (now : Nat) :
    Told (past ++ [(c.step (now, .act i s)).2]) (c.step (now, .act i s)).2 := by
  have hon : Onward past c (past ++ [(c.step (now, .act i s)).2]) (c.step (now, .act i s)).2 := onward_step h.wf _
  have hstep : (c.step (now, .act i s)).2 = _ := congrArg Prod.snd (step_act (c := c) (i := i) hs now)
  have hclock : (c.step (now, .act i s)).2.clock i =
      stampOf (c.node i).config.epoch ((c.node i).step (now, s)).2.hlc := by
    have hcfg := (Inner.step_wf (h.wf i).1 (now, s)).config
    rw [hstep]
    change (c.put i ((c.node i).step (now, s)).2).clock i = _
    rw [clock, put_self, hcfg]
  -- the rows of the tables and of the frames differ from rows there were by a status and an own stamp
  have hrow : ∀ (r₀ r : NodeInfo) (k : NodeId) (status : NodeStatus) (hlc : UInt64),
      (c.node i).membership.rows.lookup k = some r₀ → r = { r₀ with status, hlc } →
      (status = .left → r₀.status = .left) →
      (hlc = r₀.hlc ∨ (k = (c.node i).config.nodeId ∧ r₀.epoch = (c.node i).config.epoch ∧
        hlc = ((c.node i).step (now, s)).2.hlc)) →
      Honest (past ++ [(c.step (now, .act i s)).2]) (c.step (now, .act i s)).2 r := by
    rintro r₀ r k status hlc hlook rfl hleft hhlc
    have hold := (h.rows i k r₀ hlook).onward hon
    rcases hhlc with rfl | ⟨hk, hepoch, rfl⟩
    · exact hold.restatus status hleft
    · have hid : r₀.id = i := ((h.wf i).1.members.keyed k r₀ hlook).trans (hk.trans (h.wf i).2)
      have hle : stampOf r₀.epoch ((c.node i).step (now, s)).2.hlc ≤ (c.step (now, .act i s)).2.clock r₀.id := by
        rw [hid, hclock, hepoch]
      exact (hold.restamp _ hle).restatus status hleft
  refine ⟨step_wf h.wf _, List.mem_append_right _ (List.mem_singleton.2 rfl), fun j k r hr => ?_, fun env henv r hr => ?_⟩
  · by_cases hj : j = i
    · subst hj
      have hr' : ((c.node j).step (now, s)).2.membership.rows.lookup k = some r := by
        rw [hstep] at hr
        change ((c.put j ((c.node j).step (now, s)).2).node j).membership.rows.lookup k = some r at hr
        rwa [put_self] at hr
      obtain ⟨r₀, status, hlc, hlook, heq, hleft, hhlc⟩ := step_member (h.wf j).1 (a := (now, s)) hs hr'
      exact hrow r₀ r k status hlc hlook heq hleft hhlc
    · have hr' : (c.node j).membership.rows.lookup k = some r := by
        rw [hstep] at hr
        change ((c.put i ((c.node i).step (now, s)).2).node j).membership.rows.lookup k = some r at hr
        rwa [put_ne c hj] at hr
      exact (h.rows j k r hr').onward hon
  · have henv' : env ∈ c.sent ++ ((c.node i).step (now, s)).1.toList := by
      rw [hstep] at henv
      exact henv
    rcases List.mem_append.1 henv' with hold | hnew
    · exact (h.sent env hold r hr).onward hon
    · obtain ⟨r₀, k, hlook, hcase⟩ := answer_nodes (h.wf i).1 (Option.mem_toList.1 hnew) hr
      rcases hcase with rfl | ⟨hk, hepoch, rfl⟩
      · exact (h.rows i k r hlook).onward hon
      · exact hrow r₀ _ k r₀.status _ hlook rfl id (.inr ⟨hk, hepoch, rfl⟩)

theorem told_deliver (h : Told past c) {i : NodeId} {n : Nat} {env : Envelope} (henv : c.sent[n]? = some env)
    (src : String) (now : Nat) : Told (past ++ [(c.step (now, .deliver i n src)).2]) (c.step (now, .deliver i n src)).2 := by
  have hon : Onward past c (past ++ [(c.step (now, .deliver i n src)).2]) (c.step (now, .deliver i n src)).2 :=
    onward_step h.wf _
  have hstep : (c.step (now, .deliver i n src)).2 = c.put i ((c.node i).handleEnvelope env src now) := by
    simp only [step, henv]
  have hmem : env ∈ c.sent := List.mem_of_getElem? henv
  refine ⟨step_wf h.wf _, List.mem_append_right _ (List.mem_singleton.2 rfl), fun j k r hr => ?_, fun e he r hr => ?_⟩
  · by_cases hj : j = i
    · subst hj
      rw [hstep, put_self] at hr
      by_cases hc : env.cluster = (c.node j).config.cluster
      · rw [Inner.handleEnvelope_eq hc] at hr
        dsimp only at hr
        split at hr
        · -- a `Goodbye`: the one row it touches now says `Left`
          rename_i hbye
          rw [Membership.markLeft_rows] at hr
          split at hr
          · obtain ⟨r₀, hlook, rfl⟩ := Option.map_eq_some_iff.1 hr
            have hold := (h.rows j k r₀ hlook).onward hon
            have hid : r₀.id = ⟨env.sender⟩ := ((h.wf j).1.members.keyed k r₀ hlook).trans (‹_ ∧ _›).1
            exact ⟨hold.clock, hold.addr, fun _ => ⟨env, hon.sent hmem, hbye, (congrArg NodeId.raw hid).symm⟩⟩
          · exact (h.rows j k r hr).onward hon
        · rcases mergeAll_row _ _ hr with hold | hnew
          · exact (h.rows j k r hold).onward hon
          · rw [List.map_map] at hnew
            obtain ⟨x, hx, rfl⟩ := List.mem_map.1 hnew
            exact (h.sent env hmem _ hx).onward hon
      · rw [Inner.handleEnvelope, if_pos hc] at hr
        exact (h.rows j k r hr).onward hon
    · rw [hstep, put_ne c hj] at hr
      exact (h.rows j k r hr).onward hon
  · rw [hstep] at he
    exact (h.sent e he r hr).onward hon

theorem told_restart (h : Told past c) {i : NodeId} {cfg : MeshConfig} (hlt : (c.node i).config.epoch < cfg.epoch)
    (now : Nat) : Told (past ++ [(c.step (now, .restart i cfg)).2]) (c.step (now, .restart i cfg)).2 := by
  have hon : Onward past c (past ++ [(c.step (now, .restart i cfg)).2]) (c.step (now, .restart i cfg)).2 :=
    onward_step h.wf _
  have hstep : (c.step (now, .restart i cfg)).2 = c.put i (Inner.start { cfg with nodeId := i } now) := by
    simp only [step, if_pos hlt]
  have hnow : (c.step (now, .restart i cfg)).2 ∈ past ++ [(c.step (now, .restart i cfg)).2] :=
    List.mem_append_right _ (List.mem_singleton.2 rfl)
  refine ⟨step_wf h.wf _, hnow, fun j k r hr => ?_, fun e he r hr => ?_⟩
  · by_cases hj : j = i
    · subst hj
      rw [hstep, put_self] at hr
      have hnew : (Inner.start { cfg with nodeId := j } now).membership.rows.lookup k = _ :=
        Membership.new_rows _ _ _ _ _ k
      rw [hnew] at hr
      split at hr
      · obtain rfl := Option.some.inj hr
        refine ⟨?_, ⟨_, hnow, ?_⟩, fun h => by cases h⟩
        · rw [hstep, clock, put_self]
          exact le_rfl
        · rw [hstep, put_self]
          exact ⟨rfl, rfl⟩
      · cases hr
    · rw [hstep, put_ne c hj] at hr
      exact (h.rows j k r hr).onward hon
  · rw [hstep] at he
    exact (h.sent e he r hr).onward hon

/-- **No move makes a row dishonest.** -/
theorem told_step (h : Told past c) (a : Nat × GossipMove) : Told (past ++ [(c.step a).2]) (c.step a).2 := by
  rcases c.step_cases a with heq | ⟨i, s, ha, hr, -⟩ | ⟨i, n, src, env, ha, henv, -⟩ | ⟨i, cfg, ha, hlt, -⟩
  · have hon : Onward past c (past ++ [(c.step a).2]) (c.step a).2 := onward_step h.wf a
    exact ⟨step_wf h.wf a, List.mem_append_right _ (List.mem_singleton.2 rfl),
      fun j k r hr => (h.rows j k r (by rwa [heq] at hr)).onward hon,
      fun env henv r hr => (h.sent env (by rwa [heq] at henv) r hr).onward hon⟩
  · obtain ⟨now, m⟩ := a
    obtain rfl : m = .act i s := ha
    exact told_act h hr now
  · obtain ⟨now, m⟩ := a
    obtain rfl : m = .deliver i n src := ha
    exact told_deliver h henv src now
  · obtain ⟨now, m⟩ := a
    obtain rfl : m = .restart i cfg := ha
    exact told_restart h hlt now

end Step

/-! ## Every run -/

theorem told_start (cfg : NodeId → MeshConfig) (now : NodeId → Nat) : Told [start cfg now] (start cfg now) where
  wf := start_wf cfg now
  now := List.mem_singleton.2 rfl
  rows := fun j k r hr => by
    have hnew : ((start cfg now).node j).membership.rows.lookup k = _ := Membership.new_rows _ _ _ _ _ k
    rw [hnew] at hr
    split at hr
    · obtain rfl := Option.some.inj hr
      exact ⟨le_rfl, ⟨_, List.mem_singleton.2 rfl, rfl, rfl⟩, nofun⟩
    · cases hr
  sent := fun _ h => by cases h

/-- **What a node's row about another proves.**  In every run of a cluster, a row about a node that anybody holds is
stamped no later than that node's own clock, names an address the node advertised in the incarnation the row names, and
says `Left` only if a `Goodbye` of that node was sent. -/
theorem row_is_honest (cfg : NodeId → MeshConfig) (now : NodeId → Nat) (as : List (Nat × GossipMove)) (j : NodeId)
    (r : NodeInfo) (hr : r ∈ ((run step (start cfg now) as).node j).membership.snapshot) :
    r.stamp ≤ (run step (start cfg now) as).clock r.id ∧
    (∃ c ∈ states step (start cfg now) as,
      (c.node r.id).config.epoch = r.epoch ∧ (c.node r.id).config.advertiseAddr = r.addr) ∧
    (r.status = .left → ∃ env ∈ (run step (start cfg now) as).sent, Inner.isGoodbye env = true ∧ env.sender = r.id.raw) := by
  have htold := of_along_past (I := Told) (C := fun _ _ => True) (fun _ _ a h _ => told_step h a) (told_start cfg now)
    (along_of_forall (fun _ _ => trivial) _ as)
  obtain ⟨k, hk⟩ := (Membership.mem_snapshot _ r).1 hr
  have h := htold.rows j k r hk
  exact ⟨h.clock, h.addr, h.left⟩

/-- A node's row after its peer restarted under another address. -/
theorem row_is_honest_moved :
    let as : List (Nat × GossipMove) := [(1, .restart ⟨"b"⟩ { defaultsFor "b" with epoch := 2, advertiseAddr := "mem://b2" }),
      (2, .act ⟨"b"⟩ .sendHello), (3, .deliver ⟨"a"⟩ 0 "mem://b2")]
    ∃ c ∈ states step (start (fun i => defaultsFor i.raw) (fun _ => 0)) as,
      (c.node ⟨"b"⟩).config.epoch = 2 ∧ (c.node ⟨"b"⟩).config.advertiseAddr = "mem://b2" := by
  intro as
  exact (row_is_honest _ _ as ⟨"a"⟩ ⟨⟨"b"⟩, "mem://b2", 2, 1, .alive⟩ (by decide)).2.1

end GossipCluster

end Celium
