import Celium.MeshDepart
import Celium.Lib.Gossip
/-!
# Cluster — every node of a mesh, and the frames between them

A cluster is one `Inner` for each node id and the envelopes sent so far.  A node takes one of its own sections, an
envelope that was sent is handed to some node (any node, any number of times, in any order, or never), or a node is
restarted with a higher `epoch`.  Each move is one abstract act on the replicated VM table (`sim_step`), so what the
library says of owners and their rows holds of the whole cluster.
-/
namespace Celium

open Fixed Runs

structure GossipCluster where
  node : NodeId → Inner
  /-- Every envelope built so far, in order. -/
  sent : List Envelope

inductive GossipMove where
  /-- A section of the node's own; what arrives comes by `deliver`. -/
  | act (i : NodeId) (s : Section)
  /-- The `n`-th envelope sent reaches node `i` from the address `src`. -/
  | deliver (i : NodeId) (n : Nat) (src : String)
  /-- `--epoch`: bumped on every node start. -/
  | restart (i : NodeId) (cfg : MeshConfig)

def Section.isReceive : Section → Bool
  | .receive .. => true
  | _ => false

namespace GossipCluster

/-- The cluster with another state at node `i`. -/
def put (c : GossipCluster) (i : NodeId) (g : Inner) : GossipCluster := { c with node := fun j => if j = i then g else c.node j }

/-- Every node freshly started. -/
def start (cfg : NodeId → MeshConfig) (now : NodeId → Nat) : GossipCluster :=
  { node := fun i => Inner.start { cfg i with nodeId := i } (now i), sent := [] }

/-- One move, at the clock of the node that makes it; the answer is the envelope it built. -/
def step (c : GossipCluster) (a : Nat × GossipMove) : Option Envelope × GossipCluster :=
  match a.2 with
  | .act i s =>
    if s.isReceive then (none, c)
    else
      let r := (c.node i).step (a.1, s)
      (r.1, { c.put i r.2 with sent := c.sent ++ r.1.toList })
  | .deliver i n src =>
    match c.sent[n]? with
    | some env => (none, c.put i ((c.node i).handleEnvelope env src a.1))
    | none => (none, c)
  | .restart i cfg =>
    if (c.node i).config.epoch < cfg.epoch then (none, c.put i (Inner.start { cfg with nodeId := i } a.1))
    else (none, c)

@[simp] theorem put_self (c : GossipCluster) (i : NodeId) (g : Inner) : (c.put i g).node i = g := if_pos rfl

@[simp] theorem put_ne (c : GossipCluster) {i j : NodeId} (h : j ≠ i) (g : Inner) : (c.put i g).node j = c.node j := if_neg h

@[simp] theorem put_sent (c : GossipCluster) (i : NodeId) (g : Inner) : (c.put i g).sent = c.sent := rfl

/-! ## What a move can do -/

/-- A move leaves the cluster alone, or is a section of one node, the delivery of an envelope, or a restart. -/
theorem step_cases (c : GossipCluster) (a : Nat × GossipMove) :
    (c.step a).2 = c ∨
    (∃ i s, a.2 = .act i s ∧ s.isReceive = false ∧ (c.step a).2 =
      { c.put i ((c.node i).step (a.1, s)).2 with sent := c.sent ++ ((c.node i).step (a.1, s)).1.toList }) ∨
    (∃ i n src env, a.2 = .deliver i n src ∧ c.sent[n]? = some env ∧
      (c.step a).2 = c.put i ((c.node i).handleEnvelope env src a.1)) ∨
    (∃ i cfg, a.2 = .restart i cfg ∧ (c.node i).config.epoch < cfg.epoch ∧
      (c.step a).2 = c.put i (Inner.start { cfg with nodeId := i } a.1)) := by
  unfold step
  cases ha : a.2 with
  | act i s =>
    dsimp only
    cases hs : s.isReceive with
    | true => exact .inl rfl
    | false => exact .inr (.inl ⟨i, s, rfl, hs, rfl⟩)
  | deliver i n src =>
    dsimp only
    cases henv : c.sent[n]? with
    | none => exact .inl rfl
    | some env => exact .inr (.inr (.inl ⟨i, n, src, env, rfl, henv, rfl⟩))
  | restart i cfg =>
    dsimp only
    by_cases hlt : (c.node i).config.epoch < cfg.epoch
    · rw [if_pos hlt]
      exact .inr (.inr (.inr ⟨i, cfg, rfl, hlt, rfl⟩))
    · rw [if_neg hlt]
      exact .inl rfl

/-- Every node is in order, under its own id. -/
def Wf (c : GossipCluster) : Prop := ∀ i : NodeId, (c.node i).Wf (c.node i).config ∧ (c.node i).config.nodeId = i

theorem start_wf (cfg : NodeId → MeshConfig) (now : NodeId → Nat) : (start cfg now).Wf :=
  fun _ => ⟨Inner.start_wf _ _, rfl⟩

theorem put_wf {c : GossipCluster} (h : c.Wf) {i : NodeId} {g : Inner} (hg : g.Wf g.config) (hid : g.config.nodeId = i) :
    (c.put i g).Wf := by
  intro j
  by_cases hj : j = i
  · subst hj
    rw [put_self]
    exact ⟨hg, hid⟩
  · rw [put_ne c hj]
    exact h j

theorem step_wf {c : GossipCluster} (h : c.Wf) (a : Nat × GossipMove) : (c.step a).2.Wf := by
  have hkeep : ∀ {cfg : MeshConfig} {g : Inner}, g.Wf cfg → g.Wf g.config := fun hw => by rw [hw.config]; exact hw
  rcases c.step_cases a with heq | ⟨i, s, -, -, heq⟩ | ⟨i, n, src, env, -, -, heq⟩ | ⟨i, cfg, -, -, heq⟩
  · rw [heq]
    exact h
  · have hw := Inner.step_wf (h i).1 (a.1, s)
    rw [heq]
    exact put_wf h (hkeep hw) (by rw [hw.config]; exact (h i).2)
  · have hw := Inner.handleEnvelope_wf (h i).1 env src a.1
    rw [heq]
    exact put_wf h (hkeep hw) (by rw [hw.config]; exact (h i).2)
  · rw [heq]
    exact put_wf h (Inner.start_wf _ _) rfl

/-! ## The clocks -/

/-- A node's incarnation and its clock: what it stamps next is above this. -/
def clock (c : GossipCluster) (i : NodeId) : ℕ ×ₗ ℕ := stampOf (c.node i).config.epoch (c.node i).hlc

theorem stampOf_le {e h h' : UInt64} (hle : h.toNat ≤ h'.toNat) : stampOf e h ≤ stampOf e h' :=
  Prod.Lex.toLex_le_toLex.2 (.inr ⟨rfl, hle⟩)

theorem stampOf_lt_of_epoch {e e' : UInt64} (h : e < e') (hlc hlc' : UInt64) : stampOf e hlc < stampOf e' hlc' :=
  Prod.Lex.toLex_lt_toLex.2 (.inl (UInt64.lt_iff_toNat_lt.1 h))

theorem clock_put {c : GossipCluster} {i : NodeId} {g : Inner} (h : c.clock i ≤ stampOf g.config.epoch g.hlc) (j : NodeId) :
    c.clock j ≤ (c.put i g).clock j := by
  by_cases hj : j = i
  · subst hj
    rw [clock, clock, put_self]
    exact h
  · rw [clock, clock, put_ne c hj]

/-- **No clock of the cluster goes back**, restarts included. -/
theorem step_clock {c : GossipCluster} (h : c.Wf) (a : Nat × GossipMove) (j : NodeId) : c.clock j ≤ (c.step a).2.clock j := by
  rcases c.step_cases a with heq | ⟨i, s, -, -, heq⟩ | ⟨i, n, src, env, -, -, heq⟩ | ⟨i, cfg, -, hlt, heq⟩
  · rw [heq]
  · have hcfg := (Inner.step_wf (h i).1 (a.1, s)).config
    rw [heq]
    refine clock_put (c := c) (i := i) ?_ j
    rw [hcfg]
    exact stampOf_le ((c.node i).step_hlc (a.1, s))
  · have hcfg := (Inner.handleEnvelope_wf (h i).1 env src a.1).config
    rw [heq]
    refine clock_put ?_ j
    rw [hcfg, Inner.handleEnvelope_hlc]
    exact le_rfl
  · rw [heq]
    have hle : c.clock i ≤ stampOf cfg.epoch 0 := le_of_lt (stampOf_lt_of_epoch hlt _ _)
    exact clock_put (g := Inner.start { cfg with nodeId := i } a.1) hle j

/-! ## The VM tables as one replicated table -/

/-- A VM row is filed under its owner and its id. -/
def vmScheme : Gossip.Scheme NodeId (NodeId × UInt32) RemoteVm (ℕ ×ₗ ℕ) := ⟨Prod.fst, RemoteVm.key, RemoteVm.stamp⟩

/-- The row node `j` files under `k`, as it was received. -/
def view (c : GossipCluster) (j : NodeId) (k : NodeId × UInt32) : Option RemoteVm :=
  ((c.node j).federation.rows.lookup k).map RemoteVm.received

/-- A move as an act on the replicated table. -/
def actOf (c : GossipCluster) (a : Nat × GossipMove) : Gossip.Act NodeId (NodeId × UInt32) RemoteVm :=
  match a.2 with
  | .act i (.publish _) => .write i ((c.step a).2.view i)
  | .act i _ => .send i {v | ∃ env ∈ (c.step a).1, ∃ u ∈ Inner.vmsOf env, v = u.received}
  | .deliver i n _ =>
    match c.sent[n]? with
    | some env =>
      .deliver i (if env.cluster = (c.node i).config.cluster then (Inner.vmsOf env).map RemoteVm.received else [])
    | none => .send i ∅
  | .restart i cfg => if (c.node i).config.epoch < cfg.epoch then .reset i else .send i ∅

/-- The cluster and the abstract world side by side, `past` being the clusters passed through. -/
structure Sim (past : List GossipCluster) (c : GossipCluster) (w : Gossip.World NodeId (NodeId × UInt32) RemoteVm) : Prop where
  wf : c.Wf
  sound : Gossip.Sound vmScheme w
  table : ∀ j k, w.table j k = c.view j k
  sent : ∀ env ∈ c.sent, ∀ v ∈ Inner.vmsOf env, v.received ∈ w.sent
  below : ∀ v ∈ w.written, v.stamp ≤ c.clock v.owner
  seen : ∀ v ∈ w.written, ∃ s ∈ past, s.view v.owner v.key = some v
  kept : ∀ s ∈ past, ∀ j k v, s.view j k = some v → v ∈ w.written

theorem view_key {c : GossipCluster} (h : c.Wf) {j : NodeId} {k : NodeId × UInt32} {v : RemoteVm} (hv : c.view j k = some v) :
    v.key = k := by
  obtain ⟨u, hu, rfl⟩ := Option.map_eq_some_iff.1 hv
  exact (h j).1.vms.keyed k u hu

theorem view_put_self (c : GossipCluster) (i : NodeId) (g : Inner) (k : NodeId × UInt32) :
    (c.put i g).view i k = (g.federation.rows.lookup k).map RemoteVm.received := by rw [view, put_self]

theorem view_put_ne (c : GossipCluster) {i j : NodeId} (h : j ≠ i) (g : Inner) (k : NodeId × UInt32) :
    (c.put i g).view j k = c.view j k := by rw [view, put_ne c h, view]

/-- **Between publishing and receiving, a node's VM rows stay as they were received.** -/
theorem step_rows (g : Inner) {a : Nat × Section} (hr : a.2.isReceive = false) (hp : ∀ rows, a.2 ≠ .publish rows)
    (k : NodeId × UInt32) : ((g.step a).2.federation.rows.lookup k).map RemoteVm.received =
      (g.federation.rows.lookup k).map RemoteVm.received := by
  unfold Inner.step
  cases hs : a.2 with
  | publish rows => exact absurd hs (hp rows)
  | receive env src =>
    rw [hs] at hr
    cases hr
  | listVms =>
    dsimp only [Inner.listVms]
    rw [NamespaceFederation.refreshAlive_rows, Option.map_map]
    rfl
  | join addr => rfl
  | sendHello => rfl
  | sendSync => rfl
  | shutdown => rfl
  | sendRequest reqId target op => rfl
  | sendResponse reqId result => rfl
  | gossip order => rfl

/-- **A frame carries VM rows its sender owns and holds.** -/
theorem answer_rows {cfg : MeshConfig} {g : Inner} (h : g.Wf cfg) {a : Nat × Section} {env : Envelope}
    (henv : (g.step a).1 = some env) {v : RemoteVm} (hv : v ∈ Inner.vmsOf env) :
    v.owner = cfg.nodeId ∧ g.federation.rows.lookup v.key = some v := by
  obtain ⟨-, p, rfl, hpayload⟩ := Inner.step_envelope henv
  rcases hpayload with rfl | rfl | rfl | ⟨reqId, target, op, rfl⟩ | ⟨reqId, result, rfl⟩
  · cases hv
  · obtain ⟨hlook, howner⟩ := (h.vms.mem_localRows v).1 hv
    exact ⟨howner.trans h.vm_self, hlook⟩
  · cases hv
  · cases hv
  · cases hv

/-- **What publishing files**: rows of the node, stamped with its clock. -/
theorem publish_rows {cfg : MeshConfig} {g : Inner} (h : g.Wf cfg) {rows : List RemoteVm} {now : Nat}
    {k : NodeId × UInt32} (hk : k.1 = cfg.nodeId) {v : RemoteVm}
    (hv : (g.publishLocalVms rows now).2.federation.rows.lookup k = some v) : v.stamp = stampOf cfg.epoch g.nextHlc := by
  obtain ⟨row, hrow, rfl, -⟩ := NamespaceFederation.setLocal_own (hk.trans h.vm_self.symm) hv
  obtain ⟨r, -, rfl⟩ := List.mem_map.1 hrow
  exact congrArg (fun e => stampOf e g.nextHlc) (congrArg MeshConfig.epoch h.config)

theorem publish_peers {cfg : MeshConfig} {g : Inner} (h : g.Wf cfg) (rows : List RemoteVm) (now : Nat)
    {k : NodeId × UInt32} (hk : k.1 ≠ cfg.nodeId) :
    (g.publishLocalVms rows now).2.federation.rows.lookup k = g.federation.rows.lookup k :=
  NamespaceFederation.setLocal_peers _ _ (fun heq => hk (heq.trans h.vm_self))

/-- **What a delivery does to the rows as they were received**: a merge of the rows it carries. -/
theorem handle_rows {cfg : MeshConfig} {g : Inner} (h : g.Wf cfg) (env : Envelope) (src : String) (now : Nat)
    (k : NodeId × UInt32) :
    ((g.handleEnvelope env src now).federation.rows.lookup k).map RemoteVm.received =
      Lww.mergeAll RemoteVm.stamp RemoteVm.key (fun k => k.1 = cfg.nodeId)
        (fun k => (g.federation.rows.lookup k).map RemoteVm.received)
        (if env.cluster = g.config.cluster then (Inner.vmsOf env).map RemoteVm.received else []) k := by
  by_cases hc : env.cluster = g.config.cluster
  · rw [Inner.handleEnvelope_eq hc, if_pos hc]
    dsimp only
    have hrows : (g.federation.mergeAll (Inner.vmsOf env)).rows.lookup k = _ :=
      congrFun (g.federation.mergeAll_rows (Inner.vmsOf env)) k
    rw [hrows, Lww.mergeAll_map (f := RemoteVm.received) (fun _ => rfl) (fun _ => rfl), List.map_map, h.vm_self]
    rfl
  · rw [if_neg hc, Inner.handleEnvelope, if_pos hc]
    rfl

/-! ## One move is one act -/

section Step

variable {past : List GossipCluster} {c : GossipCluster} {w : Gossip.World NodeId (NodeId × UInt32) RemoteVm}

/-- What is left to show for a move: its act is fair, the tables and the sent rows stay in step, and what is written is
held by its owner afterwards and stamped within its clock. -/
theorem Sim.next (h : Sim past c w) {a : Nat × GossipMove} {act : Gossip.Act NodeId (NodeId × UInt32) RemoteVm}
    (hfair : act.Fair vmScheme w) (htable : ∀ j k, (w.apply vmScheme act).table j k = (c.step a).2.view j k)
    (hsent : ∀ env ∈ (c.step a).2.sent, env ∈ c.sent ∨ ∀ v ∈ Inner.vmsOf env, v.received ∈ (w.apply vmScheme act).sent)
    (hgrow : w.sent ⊆ (w.apply vmScheme act).sent)
    (hnew : ∀ v ∈ (w.apply vmScheme act).written, v ∈ w.written ∨
      ((c.step a).2.view v.owner v.key = some v ∧ v.stamp ≤ (c.step a).2.clock v.owner)) :
    Sim (past ++ [(c.step a).2]) (c.step a).2 (w.apply vmScheme act) := by
  have hsound := Gossip.sound_apply h.sound hfair
  refine ⟨step_wf h.wf a, hsound, htable, ?_, ?_, ?_, ?_⟩
  · intro env henv v hv
    rcases hsent env henv with hold | hrows
    · exact hgrow (h.sent env hold v hv)
    · exact hrows v hv
  · intro v hv
    rcases hnew v hv with hold | ⟨-, hle⟩
    · exact (h.below v hold).trans (step_clock h.wf a v.owner)
    · exact hle
  · intro v hv
    rcases hnew v hv with hold | ⟨hview, -⟩
    · obtain ⟨s, hs, hview⟩ := h.seen v hold
      exact ⟨s, List.mem_append_left _ hs, hview⟩
    · exact ⟨_, List.mem_append_right _ (List.mem_singleton.2 rfl), hview⟩
  · intro s hs j k v hv
    rcases List.mem_append.1 hs with hs | hs
    · exact Gossip.written_apply w act (h.kept s hs j k v hv)
    · obtain rfl := List.mem_singleton.1 hs
      exact hsound.held j k v ((htable j k).trans hv)

/-- A move that leaves every table as received, and sends rows of one node. -/
theorem Sim.next_send (h : Sim past c w) {a : Nat × GossipMove} {i : NodeId} {rows : Set RemoteVm}
    (hrows : ∀ v ∈ rows, v.owner = i ∧ c.view i v.key = some v) (hview : ∀ j k, (c.step a).2.view j k = c.view j k)
    (hsent : ∀ env ∈ (c.step a).2.sent, env ∈ c.sent ∨ ∀ v ∈ Inner.vmsOf env, v.received ∈ rows) :
    (Gossip.Act.send i rows).Fair vmScheme w ∧
      Sim (past ++ [(c.step a).2]) (c.step a).2 (w.apply vmScheme (.send i rows)) := by
  have hfair : (Gossip.Act.send i rows).Fair vmScheme w := by
    intro v hv
    exact ⟨v.key, (hrows v hv).1, (h.table i v.key).trans (hrows v hv).2⟩
  refine ⟨hfair, h.next hfair (fun j k => (h.table j k).trans (hview j k).symm) (fun env henv => ?_)
    Set.subset_union_left (fun v hv => .inl hv)⟩
  rcases hsent env henv with hold | hnew
  · exact .inl hold
  · exact .inr (fun v hv => .inr (hnew v hv))

theorem step_act {c : GossipCluster} {i : NodeId} {s : Section} (hs : s.isReceive = false) (now : Nat) :
    c.step (now, .act i s) = (((c.node i).step (now, s)).1,
      { c.put i ((c.node i).step (now, s)).2 with sent := c.sent ++ ((c.node i).step (now, s)).1.toList }) := by
  simp only [step, hs, Bool.false_eq_true, if_false]

theorem sim_publish (h : Sim past c w) (now : Nat) (i : NodeId) (rows : List RemoteVm) :
    (actOf c (now, .act i (.publish rows))).Fair vmScheme w ∧
      Sim (past ++ [(c.step (now, .act i (.publish rows))).2]) (c.step (now, .act i (.publish rows))).2
        (w.apply vmScheme (actOf c (now, .act i (.publish rows)))) := by
  have hact : actOf c (now, .act i (.publish rows)) =
    .write i ((c.step (now, .act i (.publish rows))).2.view i) := rfl
  have hwf := h.wf i
  have hnode : (c.step (now, .act i (.publish rows))).2 = { c.put i ((c.node i).publishLocalVms rows now).2 with
      sent := c.sent ++ [] } := congrArg Prod.snd (step_act rfl now)
  have hwf' := step_wf h.wf (now, .act i (.publish rows))
  have hkeyed : ∀ k v, (c.step (now, .act i (.publish rows))).2.view i k = some v → v.key = k :=
    fun k v hv => view_key hwf' hv
  have hfair : (Gossip.Act.write i ((c.step (now, .act i (.publish rows))).2.view i)).Fair vmScheme w :=
    fun k v _ hv => hkeyed k v hv
  rw [hact]
  refine ⟨hfair, h.next hfair (fun j k => ?_) (fun env henv => ?_) subset_rfl (fun v hv => ?_)⟩
  · by_cases hj : j = i
    · subst hj
      rw [Gossip.apply_write_self]
      by_cases hk : k.1 = j
      · exact if_pos hk
      · refine (if_neg hk).trans ?_
        rw [h.table, hnode]
        refine Eq.trans ?_ (view_put_self c j _ k).symm
        rw [publish_peers hwf.1 rows now (fun heq => hk (heq.trans hwf.2))]
        rfl
    · rw [Gossip.apply_other w hj, h.table, hnode]
      exact (view_put_ne c hj _ k).symm
  · rw [hnode] at henv
    exact .inl (by simpa using henv)
  · rcases hv with hold | ⟨k, hk, hv⟩
    · exact .inl hold
    · right
      obtain rfl := hkeyed k v hv
      obtain rfl : v.owner = i := hk
      refine ⟨hv, ?_⟩
      rw [hnode] at hv ⊢
      have hlook := (view_put_self c v.owner ((c.node v.owner).publishLocalVms rows now).2 v.key).symm.trans hv
      obtain ⟨u, hu, hru⟩ := Option.map_eq_some_iff.1 hlook
      have hstamp := publish_rows hwf.1 (k := v.key) hwf.2.symm hu
      have hsu : u.received.stamp = v.stamp := congrArg RemoteVm.stamp hru
      rw [← hsu]
      refine (le_of_eq hstamp).trans ?_
      change _ ≤ (c.put v.owner ((c.node v.owner).publishLocalVms rows now).2).clock v.owner
      rw [clock, put_self]
      exact le_rfl

/-- **Every move is one fair act on the replicated table.** -/
theorem sim_step (h : Sim past c w) (a : Nat × GossipMove) : (actOf c a).Fair vmScheme w ∧
    Sim (past ++ [(c.step a).2]) (c.step a).2 (w.apply vmScheme (actOf c a)) := by
  obtain ⟨now, m⟩ := a
  cases m with
  | act i s =>
    by_cases hr : s.isReceive = true
    · -- nothing happens
      have hidle : c.step (now, .act i s) = (none, c) := by simp only [step, hr, if_true]
      have hact : actOf c (now, .act i s) = .send i ∅ := by
        cases s with
        | receive env src =>
          simp only [actOf, hidle]
          congr 1
          ext v
          simp
        | _ => cases hr
      rw [hact, hidle]
      have hsend := h.next_send (a := (now, .act i s)) (i := i) (fun v (hv : v ∈ (∅ : Set RemoteVm)) => hv.elim) (fun j k => by rw [hidle])
        (fun env henv => .inl (by rwa [hidle] at henv))
      rwa [hidle] at hsend
    · have hr : s.isReceive = false := by simpa using hr
      by_cases hp : ∃ rows, s = .publish rows
      · obtain ⟨rows, rfl⟩ := hp
        exact sim_publish h now i rows
      · have hact : actOf c (now, .act i s) =
            .send i {v | ∃ env ∈ (c.step (now, .act i s)).1, ∃ u ∈ Inner.vmsOf env, v = u.received} := by
          cases s with
          | publish rows => exact absurd ⟨rows, rfl⟩ hp
          | _ => rfl
        have hstep := step_act (c := c) (i := i) hr now
        rw [hact]
        refine h.next_send ?_ (fun j k => ?_) (fun env henv => ?_)
        · rintro v ⟨env, henv, u, hu, rfl⟩
          rw [hstep] at henv
          obtain ⟨howner, hlook⟩ := answer_rows (h.wf i).1 (Option.mem_def.1 henv) hu
          refine ⟨howner.trans (h.wf i).2, ?_⟩
          exact congrArg (Option.map RemoteVm.received) hlook
        · rw [hstep]
          by_cases hj : j = i
          · subst hj
            refine (view_put_self c j _ k).trans ?_
            exact step_rows (c.node j) (a := (now, s)) hr (fun rows heq => hp ⟨rows, heq⟩) k
          · exact view_put_ne c hj _ k
        · rw [hstep] at henv ⊢
          rcases List.mem_append.1 henv with hold | hnew
          · exact .inl hold
          · exact .inr (fun v hv => ⟨env, Option.mem_toList.1 hnew, v, hv, rfl⟩)
  | deliver i n src =>
    cases henv : c.sent[n]? with
    | none =>
      have hidle : c.step (now, .deliver i n src) = (none, c) := by simp only [step, henv]
      have hact : actOf c (now, .deliver i n src) = .send i ∅ := by simp only [actOf, henv]
      have hsend := h.next_send (a := (now, .deliver i n src)) (i := i) (fun v (hv : v ∈ (∅ : Set RemoteVm)) => hv.elim)
        (fun j k => by rw [hidle]) (fun env henv => .inl (by rwa [hidle] at henv))
      rw [hact]
      exact hsend
    | some env =>
      have hstep : c.step (now, .deliver i n src) = (none, c.put i ((c.node i).handleEnvelope env src now)) := by
        simp only [step, henv]
      have hact : actOf c (now, .deliver i n src) = .deliver i
          (if env.cluster = (c.node i).config.cluster then (Inner.vmsOf env).map RemoteVm.received else []) := by
        simp only [actOf, henv]
      rw [hact]
      have hfair : (Gossip.Act.deliver i (if env.cluster = (c.node i).config.cluster then
          (Inner.vmsOf env).map RemoteVm.received else [])).Fair vmScheme w := by
        intro v hv
        split at hv
        · obtain ⟨u, hu, rfl⟩ := List.mem_map.1 hv
          exact h.sent env (List.mem_of_getElem? henv) u hu
        · cases hv
      refine ⟨hfair, h.next hfair (fun j k => ?_) (fun e he => ?_) subset_rfl (fun v hv => .inl hv)⟩
      · rw [hstep]
        by_cases hj : j = i
        · subst hj
          have hrows := handle_rows (h.wf j).1 env src now k
          rw [(h.wf j).2] at hrows
          rw [Gossip.apply_deliver_self, view_put_self, hrows]
          have htable : w.table j = fun k => c.view j k := funext (h.table j)
          rw [htable]
          rfl
        · rw [Gossip.apply_other w hj, h.table]
          exact (view_put_ne c hj _ k).symm
      · rw [hstep] at he
        exact .inl he
  | restart i cfg =>
    by_cases hlt : (c.node i).config.epoch < cfg.epoch
    · have hstep : c.step (now, .restart i cfg) = (none, c.put i (Inner.start { cfg with nodeId := i } now)) := by
        simp only [step, if_pos hlt]
      have hact : actOf c (now, .restart i cfg) = .reset i := by simp only [actOf, if_pos hlt]
      have hfair : (Gossip.Act.reset i).Fair vmScheme w := trivial
      rw [hact]
      refine ⟨hfair, h.next hfair (fun j k => ?_) (fun e he => ?_) subset_rfl (fun v hv => .inl hv)⟩
      · rw [hstep]
        by_cases hj : j = i
        · subst hj
          rw [view_put_self]
          exact congrFun (w.put_self j _) k
        · rw [Gossip.apply_other w hj, h.table]
          exact (view_put_ne c hj _ k).symm
      · rw [hstep] at he
        exact .inl he
    · have hidle : c.step (now, .restart i cfg) = (none, c) := by simp only [step, if_neg hlt]
      have hact : actOf c (now, .restart i cfg) = .send i ∅ := by simp only [actOf, if_neg hlt]
      have hsend := h.next_send (a := (now, .restart i cfg)) (i := i) (fun v (hv : v ∈ (∅ : Set RemoteVm)) => hv.elim)
        (fun j k => by rw [hidle]) (fun env henv => .inl (by rwa [hidle] at henv))
      rw [hact]
      exact hsend

end Step

end GossipCluster

end Celium
