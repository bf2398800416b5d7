import Celium.MeshDepart
/-!
# MeshMirror — when a receiver's view of an owner is the owner's last `Sync`

A `Sync` carries every VM its sender owns, but the receiver merges the rows one by one and never drops one.  So after
any processing of an owner's `Sync` frames the receiver lists, for each VM that any of them carried, the newest row:
what the last frame carried, and every VM that an earlier one carried and the last one does not (`mirror_iff`).
-/
namespace Celium

open Fixed Runs

namespace Inner

def isSync (env : Envelope) : Bool :=
  match env.payload with
  | .sync .. => true
  | _ => false

/-- The receiver lists exactly `vms` as the VMs of `owner`, up to `owner_alive`, and takes no other for an orphan. -/
structure Mirrors (g : Inner) (owner : NodeId) (vms : List RemoteVm) : Prop where
  listed : ∀ v, v ∈ (g.listVms.1.filter (fun r => r.owner = owner)).map RemoteVm.received ↔ v ∈ vms
  orphaned : ∀ v ∈ g.orphanedVms.1, v.owner = owner → v.received ∈ vms

/-! ## The receiver -/

/-- **Processing frames merges the VM rows they carry**, in order. -/
theorem process_federation {g : Inner} {ds : List Delivery} (hc : ∀ d ∈ ds, d.env.cluster = g.config.cluster) :
    (g.process ds).federation = g.federation.mergeAll (ds.flatMap (fun d => vmsOf d.env)) := by
  induction ds generalizing g with
  | nil => rfl
  | cons d ds ih =>
    have hd : (g.handleEnvelope d.env d.src d.now).federation = g.federation.mergeAll (vmsOf d.env) := by
      rw [handleEnvelope_eq (hc d List.mem_cons_self)]
    have hcfg := (g.handleEnvelope_fixed d.env d.src d.now).1
    have hrest : ((g.handleEnvelope d.env d.src d.now).process ds).federation = _ :=
      ih (fun d' hd' => by rw [hcfg]; exact hc d' (List.mem_cons_of_mem d hd'))
    rw [hd] at hrest
    rw [List.flatMap_cons, NamespaceFederation.mergeAll, List.foldl_append]
    exact hrest

theorem mem_listed {g : Inner} (h : g.federation.Wf) (owner : NodeId) (v : RemoteVm) :
    v ∈ (g.listVms.1.filter (fun r => r.owner = owner)).map RemoteVm.received ↔
      ∃ u, g.federation.rows.lookup u.key = some u ∧ u.owner = owner ∧ v = u.received := by
  have hwf := NamespaceFederation.refreshAlive_wf h g.aliveOf
  simp only [List.mem_map, List.mem_filter, decide_eq_true_eq]
  constructor
  · rintro ⟨u, ⟨hu, howner⟩, rfl⟩
    have hlook : (g.federation.refreshAlive g.aliveOf).rows.lookup u.key = some u := (hwf.mem_list u).1 hu
    rw [NamespaceFederation.refreshAlive_rows] at hlook
    obtain ⟨w, hw, rfl⟩ := Option.map_eq_some_iff.1 hlook
    exact ⟨w, hw, howner, rfl⟩
  · rintro ⟨u, hu, howner, rfl⟩
    refine ⟨{ u with ownerAlive := if u.owner = g.federation.selfId then true else g.aliveOf u.owner },
      ⟨(hwf.mem_list _).2 ?_, howner⟩, rfl⟩
    have hrows := NamespaceFederation.refreshAlive_rows g.federation g.aliveOf u.key
    rw [hu] at hrows
    exact hrows

/-- An orphan is a listed VM. -/
theorem orphaned_listed {g : Inner} {v : RemoteVm} (h : v ∈ g.orphanedVms.1) : v ∈ g.listVms.1 :=
  (List.mem_filter.1 h).1

/-! ## The owner -/

/-- **A `Sync` carries the rows its sender owns when it builds it**, at a state of the run whose clock is its stamp. -/
theorem sync_state {cfg : MeshConfig} {start : Nat} {as : List (Nat × Section)} {env : Envelope}
    (h : some env ∈ answers step (Inner.start cfg start) as) (hs : isSync env = true) :
    ∃ g ∈ states step (Inner.start cfg start) as, vmsOf env = g.federation.localRows ∧ env.hlc = g.hlc ∧
      env.cluster = cfg.cluster := by
  obtain ⟨pre, a, post, rfl, hstep⟩ := (mem_answers_iff _ _ _).1 h
  have hwf := run_wf cfg start pre
  have hmem : ((run step (Inner.start cfg start) pre).step a).2 ∈
      states step (Inner.start cfg start) (pre ++ a :: post) := by
    refine (mem_states_iff _ _ _).2 ⟨pre ++ [a], post, by simp, ?_⟩
    rw [run_append]
    rfl
  obtain ⟨hnext, p, rfl, hpayload⟩ := step_envelope hstep
  refine ⟨_, hmem, ?_⟩
  rw [hnext]
  rcases hpayload with rfl | rfl | rfl | ⟨reqId, target, op, rfl⟩ | ⟨reqId, result, rfl⟩
  · cases hs
  · exact ⟨rfl, rfl, congrArg MeshConfig.cluster hwf.config⟩
  · cases hs
  · cases hs
  · cases hs

/-- **Of two frames the later one has the newer row of a VM both carry**, or the same one. -/
theorem row_le_of_hlc_le {cfg : MeshConfig} {g g' : Inner} (h : g.Wf cfg) (h' : g'.Wf cfg)
    (hl : Later cfg g g' ∨ Later cfg g' g) (hle : g.hlc ≤ g'.hlc) {v w : RemoteVm} (hv : v ∈ g.federation.localRows)
    (hw : w ∈ g'.federation.localRows) (hvw : v.vmId = w.vmId) : v = w ∨ v.stamp < w.stamp := by
  obtain ⟨hv, hvo⟩ := (h.vms.mem_localRows v).1 hv
  obtain ⟨hw, hwo⟩ := (h'.vms.mem_localRows w).1 hw
  have hkey : v.key = w.key := by
    rw [RemoteVm.key, RemoteVm.key, hvw, hvo, hwo, h.vm_self, h'.vm_self]
  have hk : v.key.1 = cfg.nodeId := hvo.trans h.vm_self
  obtain ⟨hve, hvh⟩ := h.own _ v hv (hvo.trans h.vm_self)
  obtain ⟨hwe, hwh⟩ := h'.own _ w hw (hwo.trans h'.vm_self)
  have hle' : g.hlc.toNat ≤ g'.hlc.toNat := UInt64.le_iff_toNat_le.1 hle
  rw [← hkey] at hw
  rcases hl with hl | hl
  · rcases hl.own _ w hk hw with heq | hlt
    · exact .inl (Option.some.inj (hv.symm.trans heq))
    · right
      rw [RemoteVm.stamp, RemoteVm.stamp, stampOf, stampOf, hve, hwe, Prod.Lex.toLex_lt_toLex]
      exact .inr ⟨rfl, lt_of_le_of_lt hvh hlt⟩
  · -- the two clocks are equal here, so nothing was published in between
    rcases hl.own _ v hk hv with heq | hlt
    · exact .inl (Option.some.inj (heq.symm.trans hw))
    · omega

/-! ## Frames of one owner at a receiver -/

section Synced

variable {cfg : MeshConfig} {start : Nat} {as : List (Nat × Section)} {ds : List Delivery}

/-- Every processed frame is a `Sync` the owner built in its run. -/
def Synced (cfg : MeshConfig) (start : Nat) (as : List (Nat × Section)) (ds : List Delivery) : Prop :=
  ∀ d ∈ ds, some d.env ∈ answers step (Inner.start cfg start) as ∧ isSync d.env = true

theorem states_wf (cfg : MeshConfig) (start : Nat) (as : List (Nat × Section)) :
    ∀ s ∈ states step (Inner.start cfg start) as, s.Wf cfg :=
  inv_states (I := Wf cfg) (fun _ a h => step_wf h a) (start_wf cfg start) as

/-- The rows of a processed frame are the owner's, and are filed as they come. -/
theorem Synced.row (hds : Synced cfg start as ds) {d : Delivery} (hd : d ∈ ds) {v : RemoteVm} (hv : v ∈ vmsOf d.env) :
    v.owner = cfg.nodeId ∧ v.received = v := by
  obtain ⟨s, hs, hvms, -, -⟩ := sync_state (hds d hd).1 (hds d hd).2
  have hwf := states_wf cfg start as s hs
  rw [hvms] at hv
  obtain ⟨hlook, hown⟩ := (hwf.vms.mem_localRows v).1 hv
  refine ⟨hown.trans hwf.vm_self, ?_⟩
  have halive := hwf.vms.own _ v hlook hown
  rw [RemoteVm.received, ← halive]

theorem Synced.newest (hds : Synced cfg start as ds) (hu : Along step Unsaturated (Inner.start cfg start) as)
    {d last : Delivery} (hd : d ∈ ds) (hlast : last ∈ ds) (hle : d.env.hlc ≤ last.env.hlc) {v w : RemoteVm}
    (hv : v ∈ vmsOf d.env) (hw : w ∈ vmsOf last.env) (hvw : v.vmId = w.vmId) : v = w ∨ v.stamp < w.stamp := by
  obtain ⟨s, hs, hvms, hhlc, -⟩ := sync_state (hds d hd).1 (hds d hd).2
  obtain ⟨s', hs', hvms', hhlc', -⟩ := sync_state (hds last hlast).1 (hds last hlast).2
  rw [hvms] at hv
  rw [hvms'] at hw
  rw [hhlc, hhlc'] at hle
  exact row_le_of_hlc_le (states_wf cfg start as s hs) (states_wf cfg start as s' hs')
    (states_later (start_wf cfg start) hu hs hs') hle hv hw hvw

theorem Synced.cluster (hds : Synced cfg start as ds) {d : Delivery} (hd : d ∈ ds) : d.env.cluster = cfg.cluster := by
  obtain ⟨s, -, -, -, hcluster⟩ := sync_state (hds d hd).1 (hds d hd).2
  exact hcluster

/-- The rows that arrive for one VM. -/
theorem Synced.carried (hds : Synced cfg start as ds) (vm : UInt32) (v : RemoteVm) :
    v ∈ ((ds.flatMap (fun d => vmsOf d.env)).map RemoteVm.received).filter (fun v => v.key = (cfg.nodeId, vm)) ↔
      ∃ d ∈ ds, v ∈ vmsOf d.env ∧ v.vmId = vm := by
  simp only [List.mem_filter, List.mem_map, List.mem_flatMap, decide_eq_true_eq]
  constructor
  · rintro ⟨⟨u, ⟨d, hd, hu⟩, rfl⟩, hkey⟩
    rw [(hds.row hd hu).2] at hkey ⊢
    exact ⟨d, hd, hu, congrArg Prod.snd hkey⟩
  · rintro ⟨d, hd, hv, rfl⟩
    refine ⟨⟨v, ⟨d, hd, hv⟩, (hds.row hd hv).2⟩, ?_⟩
    rw [RemoteVm.key, (hds.row hd hv).1]

/-- **What a receiver that knew no VM of the owner holds for one**: nothing if no frame carried it, and otherwise the
newest row of it. -/
theorem Synced.held (hds : Synced cfg start as ds) {g : Inner} {rcfg : MeshConfig} (hg : g.Wf rcfg)
    (hne : cfg.nodeId ≠ rcfg.nodeId) (hc : cfg.cluster = rcfg.cluster)
    (hfresh : ∀ vm, g.federation.rows.lookup (cfg.nodeId, vm) = none) (vm : UInt32) :
    ((g.process ds).federation.rows.lookup (cfg.nodeId, vm) = none ∧ ∀ d ∈ ds, ∀ v ∈ vmsOf d.env, v.vmId ≠ vm) ∨
    ∃ u, (g.process ds).federation.rows.lookup (cfg.nodeId, vm) = some u ∧ (∃ d ∈ ds, u ∈ vmsOf d.env ∧ u.vmId = vm) ∧
      ∀ d ∈ ds, ∀ v ∈ vmsOf d.env, v.vmId = vm → v.stamp ≤ u.stamp := by
  have hcl : ∀ d ∈ ds, d.env.cluster = g.config.cluster := fun d hd => by rw [hds.cluster hd, hc, hg.config]
  have hopen := (g.federation.mergeAll_settled (ds.flatMap (fun d => vmsOf d.env))).open_ (cfg.nodeId, vm)
    (by rw [hg.vm_self]; exact hne)
  rw [hfresh vm] at hopen
  rw [process_federation hcl]
  rcases hopen with ⟨heq, hnone⟩ | ⟨u, hu, heq, -, hmax⟩
  · exact .inl ⟨heq, fun d hd v hv hvm => hnone v ((hds.carried vm v).2 ⟨d, hd, hv, hvm⟩) trivial⟩
  · exact .inr ⟨u, heq, (hds.carried vm u).1 hu, fun d hd v hv hvm => hmax v ((hds.carried vm v).2 ⟨d, hd, hv, hvm⟩)⟩

/-- **A VM in the last frame is held as that frame has it.** -/
theorem Synced.held_last (hds : Synced cfg start as ds) (hu : Along step Unsaturated (Inner.start cfg start) as)
    {g : Inner} {rcfg : MeshConfig} (hg : g.Wf rcfg) (hne : cfg.nodeId ≠ rcfg.nodeId) (hc : cfg.cluster = rcfg.cluster)
    (hfresh : ∀ vm, g.federation.rows.lookup (cfg.nodeId, vm) = none) {last : Delivery} (hmem : last ∈ ds)
    (hlast : ∀ d ∈ ds, d.env.hlc ≤ last.env.hlc) {w : RemoteVm} (hw : w ∈ vmsOf last.env) :
    (g.process ds).federation.rows.lookup (cfg.nodeId, w.vmId) = some w := by
  rcases hds.held hg hne hc hfresh w.vmId with ⟨-, hnone⟩ | ⟨u, heq, ⟨d, hd, hud, hvm⟩, hmax⟩
  · exact absurd rfl (hnone last hmem w hw)
  · rcases hds.newest hu hd hmem (hlast d hd) hud hw hvm with rfl | hlt
    · exact heq
    · exact absurd hlt (not_lt.2 (hmax last hmem w hw rfl))

/-- **The rows a receiver lists for the owner** are those it holds for it, as they were sent. -/
theorem Synced.listed (hds : Synced cfg start as ds) {g : Inner} {rcfg : MeshConfig} (hg : g.Wf rcfg)
    (hne : cfg.nodeId ≠ rcfg.nodeId) (hc : cfg.cluster = rcfg.cluster)
    (hfresh : ∀ vm, g.federation.rows.lookup (cfg.nodeId, vm) = none) (v : RemoteVm) :
    v ∈ ((g.process ds).listVms.1.filter (fun r => r.owner = cfg.nodeId)).map RemoteVm.received ↔
      (g.process ds).federation.rows.lookup (cfg.nodeId, v.vmId) = some v := by
  have hcl : ∀ d ∈ ds, d.env.cluster = g.config.cluster := fun d hd => by rw [hds.cluster hd, hc, hg.config]
  have hfwf : (g.process ds).federation.Wf := by
    rw [process_federation hcl]
    exact NamespaceFederation.mergeAll_wf hg.vms _
  have hheld : ∀ u vm, (g.process ds).federation.rows.lookup (cfg.nodeId, vm) = some u →
      u.owner = cfg.nodeId ∧ u.received = u := by
    intro u vm hlook
    rcases hds.held hg hne hc hfresh vm with ⟨hnone, -⟩ | ⟨u', heq, ⟨d, hd, hud, -⟩, -⟩
    · cases hnone.symm.trans hlook
    · obtain rfl := Option.some.inj (heq.symm.trans hlook)
      exact hds.row hd hud
  rw [mem_listed hfwf]
  constructor
  · rintro ⟨u, hlook, huo, rfl⟩
    rw [RemoteVm.key, huo] at hlook
    rw [(hheld u _ hlook).2]
    exact hlook
  · intro hlook
    obtain ⟨hvo, hvr⟩ := hheld v _ hlook
    exact ⟨v, by rw [RemoteVm.key, hvo]; exact hlook, hvo, hvr.symm⟩

end Synced

end Inner

open Delivery

/-- **A receiver mirrors an owner exactly when no VM has gone.**  `last` is the processed `Sync` with the highest `hlc`;
the receiver lists its VMs and no others if and only if every VM that some processed `Sync` carried is still in it. -/
theorem mirror_iff (cfg : MeshConfig) (start : Nat) (as : List (Nat × Section))
    (hu : Along Inner.step Inner.Unsaturated (.start cfg start) as) (rcfg : MeshConfig) (rstart : Nat)
    (bs : List (Nat × Section)) (hne : cfg.nodeId ≠ rcfg.nodeId) (hc : cfg.cluster = rcfg.cluster)
    (hfresh : ∀ vm, (run Inner.step (.start rcfg rstart) bs).federation.rows.lookup (cfg.nodeId, vm) = none)
    (ds : List Delivery) (hds : Inner.Synced cfg start as ds) (last : Delivery) (hmem : last ∈ ds)
    (hlast : ∀ d ∈ ds, d.env.hlc ≤ last.env.hlc) :
    ((run Inner.step (.start rcfg rstart) bs).process ds).Mirrors cfg.nodeId (Inner.vmsOf last.env) ↔
      ∀ d ∈ ds, ∀ v ∈ Inner.vmsOf d.env, ∃ w ∈ Inner.vmsOf last.env, w.vmId = v.vmId := by
  have hg := Inner.run_wf rcfg rstart bs
  set g := run Inner.step (.start rcfg rstart) bs
  have hlisted := hds.listed hg hne hc hfresh
  constructor
  · intro hmirror d hd v hv
    rcases hds.held hg hne hc hfresh v.vmId with ⟨-, hnone⟩ | ⟨u, heq, ⟨-, -, -, hvm⟩, -⟩
    · exact absurd rfl (hnone d hd v hv)
    · rw [← hvm] at heq
      exact ⟨u, (hmirror.listed u).1 ((hlisted u).2 heq), hvm⟩
  · intro hall
    have hlist : ∀ v, v ∈ ((g.process ds).listVms.1.filter (fun r => r.owner = cfg.nodeId)).map RemoteVm.received ↔
        v ∈ Inner.vmsOf last.env := by
      intro v
      rw [hlisted]
      refine ⟨fun hlook => ?_, fun hv => hds.held_last hu hg hne hc hfresh hmem hlast hv⟩
      rcases hds.held hg hne hc hfresh v.vmId with ⟨heq, -⟩ | ⟨u, heq, ⟨d, hd, hud, -⟩, -⟩
      · cases heq.symm.trans hlook
      · obtain rfl := Option.some.inj (heq.symm.trans hlook)
        obtain ⟨w, hw, hwvm⟩ := hall d hd u hud
        have hwl := hds.held_last hu hg hne hc hfresh hmem hlast hw
        rw [hwvm] at hwl
        exact Option.some.inj (hwl.symm.trans hlook) ▸ hw
    refine ⟨hlist, fun v hv hvo => (hlist v.received).1 ?_⟩
    exact List.mem_map.2 ⟨v, List.mem_filter.2 ⟨Inner.orphaned_listed hv, decide_eq_true hvo⟩, rfl⟩

/-! ## A deleted VM that stays -/

/-- Node `b` publishes one VM and syncs, deletes it and syncs again. -/
def sectionsDeleting : List (Nat × Section) :=
  [(0, .publish [vmOfB 0 0 true]), (0, .sendSync), (0, .publish []), (0, .sendSync)]

def syncWith : Envelope := (run Inner.step (.start (defaultsFor "b") 0) (sectionsDeleting.take 1)).sendSync.1
def syncWithout : Envelope := (run Inner.step (.start (defaultsFor "b") 0) (sectionsDeleting.take 3)).sendSync.1

theorem sectionsDeleting_unsaturated :
    Along Inner.step Inner.Unsaturated (.start (defaultsFor "b") 0) sectionsDeleting := by
  refine ⟨?_, ?_, ?_, ?_, trivial⟩ <;> unfold Inner.Unsaturated <;> decide

theorem sectionsDeleting_synced {ds : List Delivery}
    (h : ∀ d ∈ ds, d.env = syncWith ∨ d.env = syncWithout) : Inner.Synced (defaultsFor "b") 0 sectionsDeleting ds := by
  have hans : answers Inner.step (.start (defaultsFor "b") 0) sectionsDeleting =
      [none, some syncWith, none, some syncWithout] := rfl
  intro d hd
  rw [hans]
  rcases h d hd with heq | heq <;> rw [heq] <;> exact ⟨by simp, rfl⟩

/-- A frame received twice leaves the receiver with its one VM. -/
theorem mirror_twice :
    ((run Inner.step (.start (defaultsFor "a") 0) []).process [atA syncWith, atA syncWith]).Mirrors ⟨"b"⟩
      (Inner.vmsOf syncWith) := by
  refine (mirror_iff (defaultsFor "b") 0 sectionsDeleting sectionsDeleting_unsaturated (defaultsFor "a") 0 [] (by decide)
    rfl (fun vm => rfl) [atA syncWith, atA syncWith] (sectionsDeleting_synced ?_) (atA syncWith) (by simp) ?_).2 ?_
  · simp [atA]
  · simp
  · intro d hd v hv
    have hd : d = atA syncWith := by simpa using hd
    subst hd
    exact ⟨v, hv, rfl⟩

/-- The VM that `b` has deleted is still listed by `a` after the `Sync` without it. -/
theorem deleted_vm_stays : ¬ ∀ (cfg : MeshConfig) (start : Nat) (as : List (Nat × Section)) (rcfg : MeshConfig)
    (rstart : Nat) (bs : List (Nat × Section)) (ds : List Delivery) (last : Delivery),
    Along Inner.step Inner.Unsaturated (.start cfg start) as → cfg.nodeId ≠ rcfg.nodeId → cfg.cluster = rcfg.cluster →
    (∀ vm, (run Inner.step (.start rcfg rstart) bs).federation.rows.lookup (cfg.nodeId, vm) = none) →
    Inner.Synced cfg start as ds → last ∈ ds → (∀ d ∈ ds, d.env.hlc ≤ last.env.hlc) →
    ((run Inner.step (.start rcfg rstart) bs).process ds).Mirrors cfg.nodeId (Inner.vmsOf last.env) := by
  intro hall
  have h := hall (defaultsFor "b") 0 sectionsDeleting (defaultsFor "a") 0 [] [atA syncWith, atA syncWithout]
    (atA syncWithout) sectionsDeleting_unsaturated (by decide) rfl (fun vm => rfl)
    (sectionsDeleting_synced (by simp [atA])) (by simp) (by simp only [List.forall_mem_cons]; decide)
  have hin : vmOfB 0 1 true ∈ ((((run Inner.step (.start (defaultsFor "a") 0) []).process
      [atA syncWith, atA syncWithout]).listVms.1.filter (fun r => r.owner = ⟨"b"⟩)).map RemoteVm.received) := by decide
  have hnil : Inner.vmsOf syncWithout = [] := by decide
  have hout := (h.listed _).1 hin
  rw [show Inner.vmsOf (atA syncWithout).env = [] from hnil] at hout
  cases hout

end Celium
