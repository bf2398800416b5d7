import Celium.Mesh
/-!
# MeshSpec — what a section can do to the shared state

The node's own rows change only when it publishes, its peers' rows only when it receives; the clock never goes back; the
identity of the node never changes.  Every result about runs of sections is derived from these.
-/
namespace Celium

open Fixed Runs

/-! ## Merging a list of rows -/

namespace Membership

/-- Rows merged one after another, each at its own time. -/
def mergeAll (m : Membership) (l : List (NodeInfo × Nat)) : Membership := l.foldl (fun m e => (m.merge e.1 e.2).2) m

theorem mergeAll_same (m : Membership) (l : List (NodeInfo × Nat)) : m.Same (m.mergeAll l) := by
  induction l generalizing m with
  | nil => exact ⟨rfl, rfl, rfl, rfl⟩
  | cons e l ih =>
    have h1 := m.merge_same e.1 e.2
    have h2 := ih (m.merge e.1 e.2).2
    exact ⟨h2.selfId.trans h1.selfId, h2.cluster.trans h1.cluster, h2.suspect.trans h1.suspect, h2.dead.trans h1.dead⟩

theorem mergeAll_rows (m : Membership) (l : List (NodeInfo × Nat)) :
    (fun k => (m.mergeAll l).rows.lookup k) =
      Lww.mergeAll NodeInfo.stamp NodeInfo.id (· = m.selfId) (fun k => m.rows.lookup k) (l.map (·.1)) := by
  induction l generalizing m with
  | nil => rfl
  | cons e l ih =>
    have h1 := ih (m.merge e.1 e.2).2
    rw [merge_rows, (m.merge_same e.1 e.2).selfId] at h1
    exact h1

theorem mergeAll_self {m : Membership} {k : NodeId} (hk : k = m.selfId) (l : List (NodeInfo × Nat)) :
    (m.mergeAll l).get k = m.get k := by
  have h : (m.mergeAll l).get k = Lww.mergeAll NodeInfo.stamp NodeInfo.id (· = m.selfId)
      (fun k => m.rows.lookup k) (l.map (·.1)) k := congrFun (m.mergeAll_rows l) k
  exact h.trans (Lww.mergeAll_closed (k := k) hk _ _)

theorem mergeAll_wf {m : Membership} (h : m.Wf) (l : List (NodeInfo × Nat)) : (m.mergeAll l).Wf := by
  induction l generalizing m with
  | nil => exact h
  | cons e l ih => exact ih (merge_wf h e.1 e.2)

end Membership

namespace NamespaceFederation

def mergeAll (f : NamespaceFederation) (vs : List RemoteVm) : NamespaceFederation := vs.foldl (fun f v => (f.merge v).2) f

@[simp] theorem mergeAll_selfId (f : NamespaceFederation) (vs : List RemoteVm) : (f.mergeAll vs).selfId = f.selfId := by
  induction vs generalizing f with
  | nil => rfl
  | cons v vs ih => exact (ih _).trans (f.merge_selfId v)

theorem mergeAll_rows (f : NamespaceFederation) (vs : List RemoteVm) :
    (fun k => (f.mergeAll vs).rows.lookup k) =
      Lww.mergeAll RemoteVm.stamp RemoteVm.key (fun k => k.1 = f.selfId) (fun k => f.rows.lookup k)
        (vs.map RemoteVm.received) := by
  induction vs generalizing f with
  | nil => rfl
  | cons v vs ih =>
    have h1 := ih (f.merge v).2
    rw [merge_rows, f.merge_selfId v] at h1
    exact h1

theorem mergeAll_wf {f : NamespaceFederation} (h : f.Wf) (vs : List RemoteVm) : (f.mergeAll vs).Wf := by
  induction vs generalizing f with
  | nil => exact h
  | cons v vs ih => exact ih (merge_wf h v)

theorem mergeAll_own_rows (f : NamespaceFederation) (vs : List RemoteVm) {k : NodeId × UInt32} (hk : k.1 = f.selfId) :
    (f.mergeAll vs).rows.lookup k = f.rows.lookup k := by
  have h : (f.mergeAll vs).rows.lookup k = Lww.mergeAll RemoteVm.stamp RemoteVm.key (fun k => k.1 = f.selfId)
      (fun k => f.rows.lookup k) (vs.map RemoteVm.received) k := congrFun (f.mergeAll_rows vs) k
  exact h.trans (Lww.mergeAll_closed (k := k) hk _ _)

end NamespaceFederation

/-! ## Sections -/

namespace Inner

theorem mergeNodes_eq (g : Inner) (nodes : List NodeInfo) (now : Nat) :
    g.mergeNodes nodes now = { g with membership := g.membership.mergeAll (nodes.map (fun n => (n, now))) } := by
  unfold mergeNodes Membership.mergeAll
  rw [List.foldl_map]

/-- What a received envelope brings to the two tables. -/
def nodesOf (env : Envelope) : List NodeInfo :=
  match env.payload with
  | .hello node => [node]
  | .sync nodes _ => nodes
  | _ => []

def vmsOf (env : Envelope) : List RemoteVm :=
  match env.payload with
  | .sync _ vms => vms
  | _ => []

def isGoodbye (env : Envelope) : Bool :=
  match env.payload with
  | .goodbye => true
  | _ => false

/-- **What receiving does**: rows merged into both tables, and the sender marked as departed by a `Goodbye`. -/
theorem handleEnvelope_eq {g : Inner} {env : Envelope} (hc : env.cluster = g.config.cluster) (src : String) (now : Nat) :
    g.handleEnvelope env src now = { g.join src with
      membership :=
        if isGoodbye env then g.membership.markLeft ⟨env.sender⟩
        else g.membership.mergeAll ((nodesOf env).map (fun n => (n, now)))
      federation := g.federation.mergeAll (vmsOf env) } := by
  rw [handleEnvelope, if_neg (not_not.2 hc)]
  unfold isGoodbye nodesOf vmsOf
  cases env.payload with
  | hello node => rfl
  | sync nodes vms =>
    simp only [mergeNodes_eq, mergeVms, join, NamespaceFederation.mergeAll, Bool.false_eq_true, if_false]
  | goodbye => rfl
  | request reqId target op => rfl
  | response reqId result => rfl

/-- The identity of a node, and its two tables in order. -/
structure Wf (cfg : MeshConfig) (g : Inner) : Prop where
  config : g.config = cfg
  members : g.membership.Wf
  member_self : g.membership.selfId = cfg.nodeId
  vms : g.federation.Wf
  vm_self : g.federation.selfId = cfg.nodeId
  own : ∀ k v, g.federation.rows.lookup k = some v → v.owner = cfg.nodeId → v.epoch = cfg.epoch ∧ v.hlc.toNat ≤ g.hlc.toNat
  self : ∃ r, g.membership.get cfg.nodeId = some r ∧ r.epoch = cfg.epoch ∧ r.status = .alive

theorem nextHlc_le (g : Inner) : g.hlc.toNat ≤ g.nextHlc.toNat := by
  have := le_u64Max g.hlc
  rw [nextHlc, toNat_satAdd64]
  omega

theorem nextHlc_lt {g : Inner} (h : g.hlc.toNat < u64Max) : g.hlc.toNat < g.nextHlc.toNat := by
  have hone : (1 : UInt64).toNat = 1 := rfl
  rw [nextHlc, toNat_satAdd64, hone]
  omega

theorem start_wf (cfg : MeshConfig) (now : Nat) : (start cfg now).Wf cfg where
  config := rfl
  members := Membership.new_wf _ _ _ _ _
  member_self := rfl
  vms := NamespaceFederation.new_wf _
  vm_self := rfl
  own := fun k v h => by cases h
  self := ⟨_, (Membership.new_rows _ _ _ _ _ _).trans (if_pos rfl), rfl, rfl⟩

theorem Wf.tick {cfg : MeshConfig} {g : Inner} (h : g.Wf cfg) : g.tickHlc.Wf cfg where
  config := h.config
  members := h.members
  member_self := h.member_self
  vms := h.vms
  vm_self := h.vm_self
  own := fun k v hv ho => ⟨(h.own k v hv ho).1, (h.own k v hv ho).2.trans g.nextHlc_le⟩
  self := h.self

theorem listVms_wf {cfg : MeshConfig} {g : Inner} (h : g.Wf cfg) : g.listVms.2.Wf cfg where
  config := h.config
  members := h.members
  member_self := h.member_self
  vms := NamespaceFederation.refreshAlive_wf h.vms _
  vm_self := h.vm_self
  own := fun k v hv ho => by
    rw [listVms] at hv
    dsimp only at hv
    rw [NamespaceFederation.refreshAlive_rows] at hv
    obtain ⟨w, hw, rfl⟩ := Option.map_eq_some_iff.1 hv
    exact h.own k w hw ho
  self := h.self

theorem publish_wf {cfg : MeshConfig} {g : Inner} (h : g.Wf cfg) (rows : List RemoteVm) (now : Nat) :
    (g.publishLocalVms rows now).2.Wf cfg where
  config := h.config
  members := Membership.bumpSelf_wf h.members _ _
  member_self := h.member_self
  vms := NamespaceFederation.setLocal_wf h.vms _
  vm_self := h.vm_self
  own := fun k v hv ho => by
    have hkey : v.key = k := (NamespaceFederation.setLocal_wf h.vms _).keyed k v hv
    have hk : k.1 = g.federation.selfId := by
      rw [← hkey, h.vm_self]
      exact ho
    obtain ⟨row, hrow, rfl, -⟩ := NamespaceFederation.setLocal_own hk hv
    rw [stamped, List.mem_map] at hrow
    obtain ⟨r, -, rfl⟩ := hrow
    exact ⟨congrArg MeshConfig.epoch h.config, le_rfl⟩
  self := by
    obtain ⟨r, hr, hepoch, -⟩ := h.self
    rw [← h.member_self] at hr ⊢
    exact ⟨{ r with hlc := max r.hlc g.nextHlc, status := .alive }, Membership.bumpSelf_self hr _ _, hepoch, rfl⟩

theorem handleEnvelope_wf {cfg : MeshConfig} {g : Inner} (h : g.Wf cfg) (env : Envelope) (src : String) (now : Nat) :
    (g.handleEnvelope env src now).Wf cfg := by
  by_cases hc : env.cluster = g.config.cluster
  · rw [handleEnvelope_eq hc]
    refine ⟨h.config, ?_, ?_, NamespaceFederation.mergeAll_wf h.vms _, ?_, ?_, ?_⟩
    · dsimp only
      split
      · exact Membership.markLeft_wf h.members _
      · exact Membership.mergeAll_wf h.members _
    · dsimp only
      split
      · exact (Membership.markLeft_same _ _).selfId.trans h.member_self
      · exact (Membership.mergeAll_same _ _).selfId.trans h.member_self
    · exact (NamespaceFederation.mergeAll_selfId _ _).trans h.vm_self
    · intro k v hv ho
      dsimp only at hv
      have hkey : v.key = k := (NamespaceFederation.mergeAll_wf h.vms _).keyed k v hv
      have hk : k.1 = g.federation.selfId := by
        rw [← hkey, h.vm_self]
        exact ho
      rw [NamespaceFederation.mergeAll_own_rows _ _ hk] at hv
      exact h.own k v hv ho
    · obtain ⟨r, hr, hrest⟩ := h.self
      refine ⟨r, ?_, hrest⟩
      dsimp only
      split
      · exact (Membership.markLeft_self h.member_self.symm _).trans hr
      · exact (Membership.mergeAll_self h.member_self.symm _).trans hr
  · rw [handleEnvelope, if_pos hc]
    exact h

theorem step_wf {cfg : MeshConfig} {g : Inner} (h : g.Wf cfg) (a : Nat × Section) : (g.step a).2.Wf cfg := by
  unfold step
  cases a.2 with
  | join addr => exact ⟨h.config, h.members, h.member_self, h.vms, h.vm_self, h.own, h.self⟩
  | listVms => exact listVms_wf h
  | publish rows => exact publish_wf h rows a.1
  | sendHello => exact h.tick
  | sendSync => exact h.tick
  | shutdown => exact h.tick
  | sendRequest reqId target op => exact h.tick
  | sendResponse reqId result => exact h.tick
  | receive env src => exact handleEnvelope_wf h env src a.1
  | gossip order =>
    obtain ⟨r, hr, hrest⟩ := h.self
    exact ⟨h.config, Membership.tick_wf h.members a.1, h.member_self, h.vms, h.vm_self, h.own,
      ⟨r, Membership.tick_self h.member_self.symm hr a.1, hrest⟩⟩

theorem run_wf (cfg : MeshConfig) (now : Nat) (as : List (Nat × Section)) : (run step (start cfg now) as).Wf cfg :=
  inv_run (I := Wf cfg) (fun _ a h => step_wf h a) (start_wf cfg now) as

/-! ## The clock and the own rows -/

theorem handleEnvelope_hlc (g : Inner) (env : Envelope) (src : String) (now : Nat) :
    (g.handleEnvelope env src now).hlc = g.hlc := by
  by_cases hc : env.cluster = g.config.cluster
  · rw [handleEnvelope_eq hc]
    rfl
  · rw [handleEnvelope, if_pos hc]

/-- **The clock never goes back.** -/
theorem step_hlc (g : Inner) (a : Nat × Section) : g.hlc.toNat ≤ (g.step a).2.hlc.toNat := by
  unfold step
  cases a.2 with
  | join addr => exact le_rfl
  | listVms => exact le_rfl
  | publish rows => exact g.nextHlc_le
  | sendHello => exact g.nextHlc_le
  | sendSync => exact g.nextHlc_le
  | shutdown => exact g.nextHlc_le
  | sendRequest reqId target op => exact g.nextHlc_le
  | sendResponse reqId result => exact g.nextHlc_le
  | receive env src => exact le_of_eq (congrArg UInt64.toNat (g.handleEnvelope_hlc env src a.1)).symm
  | gossip order => exact le_rfl

/-- **Only `publish_local_vms` changes the rows a node owns.** -/
theorem step_own {cfg : MeshConfig} {g : Inner} (h : g.Wf cfg) (a : Nat × Section) {k : NodeId × UInt32}
    (hk : k.1 = cfg.nodeId) :
    (g.step a).2.federation.rows.lookup k = g.federation.rows.lookup k ∨
      ∃ rows, a.2 = .publish rows ∧
        (g.step a).2.federation.rows.lookup k = (g.publishLocalVms rows a.1).2.federation.rows.lookup k := by
  unfold step
  cases a.2 with
  | join addr => exact .inl rfl
  | publish rows => exact .inr ⟨rows, rfl, rfl⟩
  | sendHello => exact .inl rfl
  | sendSync => exact .inl rfl
  | shutdown => exact .inl rfl
  | sendRequest reqId target op => exact .inl rfl
  | sendResponse reqId result => exact .inl rfl
  | gossip order => exact .inl rfl
  | receive env src =>
    left
    dsimp only
    by_cases hc : env.cluster = g.config.cluster
    · rw [handleEnvelope_eq hc]
      exact NamespaceFederation.mergeAll_own_rows _ _ (hk.trans h.vm_self.symm)
    · rw [handleEnvelope, if_pos hc]
  | listVms =>
    left
    dsimp only [listVms]
    rw [NamespaceFederation.refreshAlive_rows]
    cases hv : g.federation.rows.lookup k with
    | none => rfl
    | some v =>
      have hkey := h.vms.keyed k v hv
      have howner : v.owner = g.federation.selfId := by
        rw [h.vm_self, ← hk, ← hkey]
        rfl
      have halive := h.vms.own k v hv howner
      rw [Option.map_some, if_pos howner, ← halive]

end Inner

end Celium
