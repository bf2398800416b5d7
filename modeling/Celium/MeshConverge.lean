import Celium.MeshSpec
/-!
# MeshConverge — gossip is order-independent, and a publisher never contradicts itself

Merging rows into either table leaves, for each key that is not the node's own, the row with the highest
`(epoch, hlc)`, whatever the order and however often each row came.  That needs rows of one stamp to be one row, which
`publish_local_vms` ensures as long as its clock has not saturated: a row it stamps is stamped above everything it
published before (`Later`).
-/
namespace Celium

open Fixed Runs

theorem stampOf_inj {e h e' h' : UInt64} (heq : stampOf e h = stampOf e' h') : e = e' ∧ h = h' := by
  have hpair : (e.toNat, h.toNat) = (e'.toNat, h'.toNat) := toLex_inj.1 heq
  obtain ⟨he, hh⟩ := Prod.mk.inj hpair
  exact ⟨UInt64.toNat_inj.1 he, UInt64.toNat_inj.1 hh⟩

/-! ## What a publisher stamps -/

namespace Inner

/-- The clock has not saturated. -/
def Unsaturated (g : Inner) (_ : Nat × Section) : Prop := g.hlc.toNat < u64Max

/-- `g'` comes after `g`: each row the node owns in it was there already or is stamped above the clock of `g`. -/
structure Later (cfg : MeshConfig) (g g' : Inner) : Prop where
  hlc : g.hlc.toNat ≤ g'.hlc.toNat
  own : ∀ k v, k.1 = cfg.nodeId → g'.federation.rows.lookup k = some v →
    g.federation.rows.lookup k = some v ∨ g.hlc.toNat < v.hlc.toNat

theorem Later.trans {cfg : MeshConfig} {g g' g'' : Inner} (h : Later cfg g g') (h' : Later cfg g' g'') :
    Later cfg g g'' := by
  refine ⟨h.hlc.trans h'.hlc, fun k v hk hv => ?_⟩
  rcases h'.own k v hk hv with hv' | hlt
  · exact h.own k v hk hv'
  · exact .inr (lt_of_le_of_lt h.hlc hlt)

theorem step_later {cfg : MeshConfig} {g : Inner} (h : g.Wf cfg) {a : Nat × Section} (hu : g.Unsaturated a) :
    Later cfg g (g.step a).2 := by
  refine ⟨g.step_hlc a, fun k v hk hv => ?_⟩
  rcases step_own h a hk with heq | ⟨rows, -, heq⟩
  · exact .inl (heq.symm.trans hv)
  · right
    rw [heq] at hv
    obtain ⟨row, hrow, rfl, -⟩ := NamespaceFederation.setLocal_own (hk.trans h.vm_self.symm) hv
    rw [stamped, List.mem_map] at hrow
    obtain ⟨r, -, rfl⟩ := hrow
    exact nextHlc_lt hu

theorem run_later {cfg : MeshConfig} {g : Inner} (h : g.Wf cfg) {as : List (Nat × Section)}
    (hu : Along step Unsaturated g as) : Later cfg g (run step g as) := by
  induction as generalizing g with
  | nil => exact ⟨le_rfl, fun k v _ hv => .inl hv⟩
  | cons a as ih => exact (step_later h hu.1).trans (ih (step_wf h a) hu.2)

/-- **Under one stamp a key has one content**, in any two states of which one comes after the other. -/
theorem Later.same_content {cfg : MeshConfig} {g g' : Inner} (h : g.Wf cfg) (hl : Later cfg g g') {k : NodeId × UInt32}
    (hk : k.1 = cfg.nodeId) {v v' : RemoteVm} (hv : g.federation.rows.lookup k = some v)
    (hv' : g'.federation.rows.lookup k = some v') (hstamp : v.stamp = v'.stamp) : v = v' := by
  rcases hl.own k v' hk hv' with heq | hlt
  · exact Option.some.inj (hv.symm.trans heq)
  · have howner : v.owner = cfg.nodeId := (congrArg Prod.fst (h.vms.keyed k v hv)).trans hk
    have hle := (h.own k v hv howner).2
    rw [(stampOf_inj hstamp).2] at hle
    omega

/-- Any two states of a run, one before the other. -/
theorem states_later {cfg : MeshConfig} {g0 g g' : Inner} (h : g0.Wf cfg) {as : List (Nat × Section)}
    (hu : Along step Unsaturated g0 as) (hg : g ∈ states step g0 as) (hg' : g' ∈ states step g0 as) :
    Later cfg g g' ∨ Later cfg g' g := by
  obtain ⟨pre, post, hpre, rfl⟩ := (mem_states_iff g0 g as).1 hg
  obtain ⟨pre', post', hpre', rfl⟩ := (mem_states_iff g0 g' as).1 hg'
  have hwf : ∀ bs, (run step g0 bs).Wf cfg := fun bs => inv_run (I := Wf cfg) (fun _ a hw => step_wf hw a) h bs
  rcases List.append_eq_append_iff.1 (hpre.symm.trans hpre') with ⟨mid, rfl, -⟩ | ⟨mid, rfl, -⟩
  · left
    rw [hpre', along_append, along_append] at hu
    rw [run_append]
    exact run_later (hwf pre) hu.1.2
  · right
    rw [hpre, along_append, along_append] at hu
    rw [run_append]
    exact run_later (hwf pre') hu.1.2

end Inner

/-! ## Convergence -/

/-- Two rows of one node with one stamp are one row. -/
def NodesAgree (rows : List NodeInfo) : Prop := ∀ r ∈ rows, ∀ r' ∈ rows, r.id = r'.id → r.stamp = r'.stamp → r = r'

def VmsAgree (rows : List RemoteVm) : Prop := ∀ r ∈ rows, ∀ r' ∈ rows, r.key = r'.key → r.stamp = r'.stamp → r = r'

namespace Membership

theorem mergeAll_settled (m : Membership) (l : List (NodeInfo × Nat)) :
    Lww.Settled NodeInfo.stamp NodeInfo.id (· = m.selfId) (fun k => m.rows.lookup k)
      (fun k => (m.mergeAll l).rows.lookup k) (l.map (·.1)) := by
  rw [mergeAll_rows]
  exact Lww.mergeAll_settled _ _

theorem mergeAll_congr (m : Membership) {l l' : List (NodeInfo × Nat)} (hagree : NodesAgree (l.map (·.1)))
    (hmem : ∀ r, r ∈ l.map (·.1) ↔ r ∈ l'.map (·.1)) (k : NodeId) :
    (m.mergeAll l).rows.lookup k = (m.mergeAll l').rows.lookup k :=
  (m.mergeAll_settled l).unique hagree hmem (m.mergeAll_settled l') k

/-- **`merge` answers `true` exactly when the row in the table changed.** -/
theorem merge_true_iff (m : Membership) (r : NodeInfo) (now : Nat) :
    (m.merge r now).1 = true ↔ (m.merge r now).2.rows.lookup r.id ≠ m.rows.lookup r.id := by
  have hrows : (m.merge r now).2.rows.lookup r.id = _ := congrFun (m.merge_rows r now) r.id
  rw [merge_fst, hrows, Lww.merge]
  by_cases hself : r.id = m.selfId
  · rw [if_neg (fun h => h.2 hself)]
    simp [hself]
  · rw [if_pos ⟨rfl, hself⟩, Lww.keep_ne_iff]
    exact and_iff_right hself

end Membership

namespace NamespaceFederation

theorem mergeAll_settled (f : NamespaceFederation) (vs : List RemoteVm) :
    Lww.Settled RemoteVm.stamp RemoteVm.key (fun k => k.1 = f.selfId) (fun k => f.rows.lookup k)
      (fun k => (f.mergeAll vs).rows.lookup k) (vs.map RemoteVm.received) := by
  rw [mergeAll_rows]
  exact Lww.mergeAll_settled _ _

theorem mergeAll_congr (f : NamespaceFederation) {vs vs' : List RemoteVm} (hagree : VmsAgree vs)
    (hmem : ∀ v, v ∈ vs ↔ v ∈ vs') (k : NodeId × UInt32) :
    (f.mergeAll vs).rows.lookup k = (f.mergeAll vs').rows.lookup k := by
  refine (f.mergeAll_settled vs).unique (fun v hv w hw hkey hstamp => ?_) (fun v => ?_) (f.mergeAll_settled vs') k
  · obtain ⟨v', hv', rfl⟩ := List.mem_map.1 hv
    obtain ⟨w', hw', rfl⟩ := List.mem_map.1 hw
    rw [hagree v' hv' w' hw' hkey hstamp]
  · simp only [List.mem_map, hmem]

theorem merge_true_iff (f : NamespaceFederation) (v : RemoteVm) :
    (f.merge v).1 = true ↔ (f.merge v).2.rows.lookup v.key ≠ f.rows.lookup v.key := by
  have hrows : (f.merge v).2.rows.lookup v.key = _ := congrFun (f.merge_rows v) v.key
  rw [merge_fst, hrows, Lww.merge]
  by_cases hself : v.owner = f.selfId
  · rw [if_neg (fun h => h.2 hself)]
    simp [hself]
  · rw [if_pos ⟨rfl, hself⟩, Lww.keep_ne_iff]
    exact and_iff_right hself

end NamespaceFederation

/-- **Last writer wins converges.**  Each table settles on the rows stamped highest, alike for every order and every
repetition of the rows, a VM row filed with `owner_alive` set; `merge` answers whether the stored row changed; and no
two states of an unsaturated run of sections give a VM of the node two contents under one stamp. -/
theorem gossip_converges (m : Membership) (l l' : List (NodeInfo × Nat)) (hl : NodesAgree (l.map (·.1)))
    (hll : ∀ r, r ∈ l.map (·.1) ↔ r ∈ l'.map (·.1)) (f : NamespaceFederation) (vs vs' : List RemoteVm)
    (hv : VmsAgree vs) (hvv : ∀ v, v ∈ vs ↔ v ∈ vs') (cfg : MeshConfig) (start : Nat) (as : List (Nat × Section))
    (hu : Along Inner.step Inner.Unsaturated (.start cfg start) as) :
    (Lww.Settled NodeInfo.stamp NodeInfo.id (· = m.selfId) (fun k => m.rows.lookup k)
        (fun k => (m.mergeAll l).rows.lookup k) (l.map (·.1)) ∧
      (∀ k, (m.mergeAll l).rows.lookup k = (m.mergeAll l').rows.lookup k) ∧
      ∀ r now, (m.merge r now).1 = true ↔ (m.merge r now).2.rows.lookup r.id ≠ m.rows.lookup r.id) ∧
    (Lww.Settled RemoteVm.stamp RemoteVm.key (fun k => k.1 = f.selfId) (fun k => f.rows.lookup k)
        (fun k => (f.mergeAll vs).rows.lookup k) (vs.map RemoteVm.received) ∧
      (∀ k, (f.mergeAll vs).rows.lookup k = (f.mergeAll vs').rows.lookup k) ∧
      ∀ v, (f.merge v).1 = true ↔ (f.merge v).2.rows.lookup v.key ≠ f.rows.lookup v.key) ∧
    ∀ g ∈ states Inner.step (.start cfg start) as, ∀ g' ∈ states Inner.step (.start cfg start) as,
      ∀ v ∈ g.federation.localRows, ∀ v' ∈ g'.federation.localRows, v.key = v'.key → v.stamp = v'.stamp → v = v' := by
  refine ⟨⟨m.mergeAll_settled l, m.mergeAll_congr hl hll, m.merge_true_iff⟩,
    ⟨f.mergeAll_settled vs, f.mergeAll_congr hv hvv, f.merge_true_iff⟩, ?_⟩
  intro g hg g' hg' v hvg v' hvg' hkey hstamp
  have hwf : ∀ s ∈ states Inner.step (.start cfg start) as, s.Wf cfg :=
    inv_states (I := Inner.Wf cfg) (fun _ a h => Inner.step_wf h a) (Inner.start_wf cfg start) as
  obtain ⟨hlook, hown⟩ := ((hwf g hg).vms.mem_localRows v).1 hvg
  obtain ⟨hlook', -⟩ := ((hwf g' hg').vms.mem_localRows v').1 hvg'
  have hk : v.key.1 = cfg.nodeId := hown.trans (hwf g hg).vm_self
  rw [← hkey] at hlook'
  rcases Inner.states_later (Inner.start_wf cfg start) hu hg hg' with h | h
  · exact h.same_content (hwf g hg) hk hlook hlook' hstamp
  · exact (h.same_content (hwf g' hg') hk hlook' hlook hstamp.symm).symm

/-- A VM row of node `b`, as a peer may send it. -/
def vmOfB (vmId : UInt32) (hlc : UInt64) (ownerAlive : Bool) : RemoteVm :=
  { owner := ⟨"b"⟩, vmId, label := "web", state := "created", lastExit := none, epoch := 1, hlc, ownerAlive,
    restartPolicy := .always, volumes := [], imagePath := none, cpuCount := none, memoryMib := none,
    bootBlobCrc32c := none }

/-- The defaults a node `id` starts with. -/
def defaultsFor (id : String) : MeshConfig :=
  { cluster := "celium", nodeId := ⟨id⟩, advertiseAddr := "mem://" ++ id, epoch := 1, seeds := [],
    gossipInterval := 50000000, timeoutSuspect := 500000000, timeoutDead := 1500000000, supervisorInterval := 0 }

/-- Two rows of a peer in both orders, and a node that publishes twice. -/
theorem gossip_converges_twoRows :
    let node (hlc : UInt64) : NodeInfo := ⟨⟨"b"⟩, "mem://b", 1, hlc, .alive⟩
    let m := Membership.new "celium" ⟨⟨"a"⟩, "mem://a", 1, 0, .alive⟩ 50 100 0
    let f := NamespaceFederation.new ⟨"a"⟩
    let twice : List (Nat × Section) := [(1, .publish [vmOfB 0 0 true]), (2, .publish [])]
    (m.mergeAll [(node 1, 1), (node 2, 2)]).rows.lookup ⟨"b"⟩ =
      (m.mergeAll [(node 2, 1), (node 1, 2)]).rows.lookup ⟨"b"⟩ ∧
    (f.mergeAll [vmOfB 0 1 true, vmOfB 0 2 true]).rows.lookup (⟨"b"⟩, 0) =
      (f.mergeAll [vmOfB 0 2 true, vmOfB 0 1 true]).rows.lookup (⟨"b"⟩, 0) ∧
    Along Inner.step Inner.Unsaturated (.start (defaultsFor "b") 0) twice := by
  intro node m f twice
  have hu : Along Inner.step Inner.Unsaturated (.start (defaultsFor "b") 0) twice :=
    ⟨by unfold Inner.Unsaturated; decide, by unfold Inner.Unsaturated; decide, trivial⟩
  have h := gossip_converges m [(node 1, 1), (node 2, 2)] [(node 2, 1), (node 1, 2)] (by unfold NodesAgree; decide)
    (fun r => by simp [or_comm]) f [vmOfB 0 1 true, vmOfB 0 2 true] [vmOfB 0 2 true, vmOfB 0 1 true]
    (by unfold VmsAgree; decide) (fun v => by simp [or_comm]) (defaultsFor "b") 0 twice hu
  exact ⟨h.1.2.1 _, h.2.1.2.1 _, hu⟩

/-- A VM row sent with `owner_alive = false` is not what the table then holds. -/
theorem merge_sets_owner_alive : ¬ ∀ (f : NamespaceFederation) (vs : List RemoteVm), VmsAgree vs →
    Lww.Settled RemoteVm.stamp RemoteVm.key (fun k => k.1 = f.selfId) (fun k => f.rows.lookup k)
      (fun k => (f.mergeAll vs).rows.lookup k) vs := by
  intro hall
  have h := (hall (.new ⟨"a"⟩) [vmOfB 0 1 false] (by unfold VmsAgree; decide)).open_ (⟨"b"⟩, 0) (by decide)
  have hheld : ((NamespaceFederation.new ⟨"a"⟩).mergeAll [vmOfB 0 1 false]).rows.lookup (⟨"b"⟩, 0) =
      some (vmOfB 0 1 true) := by decide
  rcases h with ⟨heq, -⟩ | ⟨v, hv, heq, -, -⟩
  · rw [hheld] at heq
    cases heq
  · rw [hheld] at heq
    obtain rfl := Option.some.inj heq
    exact absurd hv (by decide)

end Celium
