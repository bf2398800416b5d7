import Celium.SupervisorOnce
/-!
# Publish — the calls that change a node's host, and what the node then publishes

A local `invoke`, an inbound `Request` and a supervisor pass all run on one node at the same time.  Between the steps of
one of them, its calls of the host (`handle`, `snapshot`, `attach_preserved`) and `publish_local_vms`, any other may take
a step of its own, and so may the gossip tasks.  A `HostCall` is one of them in flight, with what it has still to do.

The node's run begins with `set_host`, which reads the host and publishes nothing: what a host already has when it is
registered stays out of the federation until some call republishes.
-/
namespace Celium

open Runs

/-- A row without its stamps. -/
def RemoteVm.bare (v : RemoteVm) : RemoteVm := { v with epoch := 0, hlc := 0, ownerAlive := true }

/-- A call in flight, by what it does next. -/
inductive HostCall where
  /-- An `invoke` or a `Request`, about to call the host. -/
  | handling (op : VmOp)
  /-- `republish_after_op`, about to read the host. -/
  | snapshotting
  /-- `republish_after_op`, about to publish what it read. -/
  | publishing (rows : List RemoteVm)
  /-- A supervisor pass, about to look for orphans. -/
  | scanning
  /-- A pass, about to read the labels on the host. -/
  | listing (orphans : List RemoteVm)
  /-- A pass in its loop: whether it has made a VM. -/
  | recovering (existing : List String) (orphans : List RemoteVm) (made : Bool)
  /-- A pass that has made a VM, about to give it the volumes of `orphan`. -/
  | attaching (existing : List String) (vmId : UInt32) (orphan : RemoteVm) (orphans : List RemoteVm)

structure Node (σ : Type) where
  inner : Inner
  host : σ
  calls : List HostCall

section Host

variable {σ : Type} (H : VmHost σ)

/-- One step of a call: what it does next, if it is not over, and the shared state and the host after it. -/
def HostCall.progress (g : Inner) (h : σ) (now : Nat) : HostCall → Option HostCall × Inner × σ
  | .handling op =>
    match H.handle h op with
    | (.error _, h) => (none, g, h)
    | (.ok _, h) => (some .snapshotting, g, h)
  | .snapshotting =>
    let (rows, h) := H.snapshot h g.config.nodeId
    (some (.publishing rows), g, h)
  | .publishing rows => (none, (g.publishLocalVms rows now).2, h)
  | .scanning =>
    if !g.isSupervisor then (none, g, h)
    else
      let (orphans, g) := g.orphanedVms
      if orphans.isEmpty then (none, g, h) else (some (.listing orphans), g, h)
  | .listing orphans =>
    let (rows, h) := H.snapshot h g.config.nodeId
    (some (.recovering (rows.map (·.label)) orphans false), g, h)
  | .recovering _ [] made => (if made then some .snapshotting else none, g, h)
  | .recovering existing (orphan :: orphans) made =>
    match recoveryLabel orphan with
    -- The source panics here, and what the pass has made stays unpublished.
    | none => (none, g, h)
    | some newLabel =>
      if newLabel ∈ existing then (some (.recovering existing orphans made), g, h)
      else match H.handle h (recoveryOp newLabel orphan) with
        | (.error _, h) => (none, g, h)
        | (.ok (.created vmId), h) =>
          if orphan.volumes.isEmpty then (some (.recovering existing orphans true), g, h)
          else (some (.attaching existing vmId orphan orphans), g, h)
        | (.ok _, h) => (some (.recovering existing orphans made), g, h)
  | .attaching existing vmId orphan orphans =>
    (some (.recovering existing orphans true), g, (H.attachPreserved h vmId orphan.volumes).2)

/-- `set_host`: the host learns its owner from a `snapshot`, whose rows are not used. -/
def Inner.setHost (g : Inner) (h : σ) : Node σ := ⟨g, (H.snapshot h g.config.nodeId).2, []⟩

inductive NodeEvent where
  /-- `invoke` with this node as its target. -/
  | invoke (op : VmOp)
  /-- An envelope comes in; a `Request` for this node begins a call. -/
  | receive (env : Envelope) (src : String)
  | supervise
  /-- The call at this place in the list takes a step. -/
  | advance (i : Nat)
  /-- Another task holds the lock. -/
  | other (s : Section)

/-- The call a received envelope begins. -/
def Inner.requested (g : Inner) (env : Envelope) : Option HostCall :=
  if env.cluster ≠ g.config.cluster then none
  else match env.payload with
    | .request _ target op => if target ≠ g.config.nodeId.raw then none else some (.handling op)
    | _ => none

def Section.isPublish : Section → Bool
  | .publish _ => true
  | _ => false

def Node.step (n : Node σ) (e : Nat × NodeEvent) : Unit × Node σ :=
  ((), match e.2 with
    | .invoke op => { n with calls := n.calls ++ [.handling op] }
    | .receive env src =>
      { n with inner := n.inner.handleEnvelope env src e.1, calls := n.calls ++ (n.inner.requested env).toList }
    | .supervise => { n with calls := n.calls ++ [.scanning] }
    | .advance i =>
      match n.calls[i]? with
      | none => n
      | some c =>
        let (next, g, h) := c.progress H n.inner n.host e.1
        { inner := g, host := h, calls := n.calls.eraseIdx i ++ next.toList }
    | .other s => if s.isPublish then n else { n with inner := (n.inner.step (e.1, s)).2 })

namespace Node

variable (n : Node σ)

/-- What the host would answer now. -/
def current : List RemoteVm := (H.snapshot n.host n.inner.config.nodeId).1

/-- **The published rows are the host's**, up to their stamps. -/
def Follows : Prop := (n.inner.federation.localRows.map RemoteVm.bare).Perm ((n.current H).map RemoteVm.bare)

instance : Decidable (n.Follows H) := inferInstanceAs (Decidable (List.Perm _ _))

end Node

end Host

/-! ## What is asked of a host -/

/-- The host lists each VM once and under the owner it is asked for; reading it changes nothing it lists, and neither
does an operation it refuses; a `Create` it grants is answered as one. -/
structure VmHost.Lawful {σ : Type} (H : VmHost σ) : Prop where
  owner : ∀ h o, ∀ r ∈ (H.snapshot h o).1, r.owner = o
  distinct : ∀ h o, ((H.snapshot h o).1.map (·.vmId)).Nodup
  reads : ∀ h o o', (H.snapshot (H.snapshot h o).2 o').1 = (H.snapshot h o').1
  refused : ∀ h op e h' o, H.handle h op = (.error e, h') → (H.snapshot h' o).1 = (H.snapshot h o).1
  creates : ∀ h l o reply h', H.handle h (recoveryOp l o) = (.ok reply, h') → ∃ i, reply = .created i

namespace MemVmHost

theorem rememberOwner_slots (h : MemVmHost) (owner : NodeId) : (h.rememberOwner owner).slots = h.slots := by
  unfold rememberOwner
  split <;> rfl

/-- What the host lists is a matter of its slots. -/
theorem snapshot_congr {h h' : MemVmHost} (heq : h'.slots = h.slots) (o : NodeId) :
    (host.snapshot h' o).1 = (host.snapshot h o).1 := by
  change (currentRows h' o).1 = (currentRows h o).1
  simp only [currentRows, rememberOwner_slots, heq]

/-- The rows of slots from number `n` on are numbered from `n`, and each has a number of its own. -/
theorem rows_distinct (owner : NodeId) (l : List (Option Slot)) (n : Nat) (hn : n + l.length ≤ 4) :
    (∀ r ∈ (l.zipIdx n).filterMap (fun e => e.1.map (row owner e.2)), n ≤ r.vmId.toNat) ∧
    (((l.zipIdx n).filterMap (fun e => e.1.map (row owner e.2))).map (·.vmId)).Nodup := by
  induction l generalizing n with
  | nil => exact ⟨fun r hr => absurd hr List.not_mem_nil, List.nodup_nil⟩
  | cons o l ih =>
    rw [List.length_cons] at hn
    obtain ⟨hle, hnd⟩ := ih (n + 1) (by omega)
    rw [List.zipIdx_cons]
    cases o with
    | none => exact ⟨fun r hr => (Nat.le_succ n).trans (hle r hr), hnd⟩
    | some s =>
      have hid : (row owner n s).vmId.toNat = n := by
        change (UInt32.ofNat n).toNat = n
        rw [UInt32.toNat_ofNat']
        omega
      rw [List.filterMap_cons_some (by rfl), List.map_cons, List.nodup_cons]
      refine ⟨fun r hr => ?_, fun hmem => ?_, hnd⟩
      · rcases List.mem_cons.1 hr with rfl | hr
        · exact hid.ge
        · exact (Nat.le_succ n).trans (hle r hr)
      · obtain ⟨r, hr, heq⟩ := List.mem_map.1 hmem
        have hlt := hle r hr
        rw [heq, hid] at hlt
        omega

/-! ### What is refused leaves the slots alone -/

section Refused

variable {h : MemVmHost} {e : String} {vmId : UInt32} {volumeId : VolumeId} {mountName : String}

theorem create_refused {label : String} {policy : RestartPolicy} {image : Option String} {cpu : Option UInt32}
    {mem : Option UInt64} {crc : Option UInt32} (herr : (h.create label policy image cpu mem crc).1 = .error e) :
    (h.create label policy image cpu mem crc).2.slots = h.slots := by
  unfold create at herr ⊢
  split at herr
  · rw [if_pos ‹_›]
  · rw [if_neg ‹_›]
    cases hk : h.freeSlot with
    | none => rfl
    | some k =>
      rw [hk] at herr
      cases herr

theorem start_refused (herr : (h.start vmId).1 = .error e) : (h.start vmId).2.slots = h.slots := by
  unfold start at herr ⊢
  cases hs : h.slotMut vmId with
  | error e => rfl
  | ok s =>
    rw [hs] at herr
    dsimp only at herr ⊢
    split
    · rfl
    · rw [if_neg ‹_›] at herr
      split
      · rfl
      · rw [if_neg ‹_›] at herr
        cases herr

theorem stop_refused (herr : (h.stop vmId).1 = .error e) : (h.stop vmId).2.slots = h.slots := by
  unfold stop at herr ⊢
  cases hs : h.slotMut vmId with
  | error e => rfl
  | ok s =>
    rw [hs] at herr
    cases herr

theorem delete_refused (herr : (h.delete vmId).1 = .error e) : (h.delete vmId).2.slots = h.slots := by
  unfold delete at herr ⊢
  cases hs : h.slotMut vmId with
  | error e => rfl
  | ok s =>
    rw [hs] at herr
    dsimp only at herr ⊢
    split
    · rfl
    · rw [if_neg ‹_›] at herr
      cases herr

theorem attachVolume_refused (herr : (h.attachVolume vmId volumeId mountName).1 = .error e) :
    (h.attachVolume vmId volumeId mountName).2.slots = h.slots := by
  unfold attachVolume at herr ⊢
  split
  · rfl
  · rw [if_neg ‹_›] at herr
    split
    · rfl
    · rw [if_neg ‹_›] at herr
      cases hs : h.slotMut vmId with
      | error e => rfl
      | ok s =>
        rw [hs] at herr
        dsimp only at herr ⊢
        split
        · rfl
        · rw [if_neg ‹_›] at herr
          cases herr

theorem detachVolume_refused (herr : (h.detachVolume vmId volumeId).1 = .error e) :
    (h.detachVolume vmId volumeId).2.slots = h.slots := by
  unfold detachVolume at herr ⊢
  cases hs : h.slotMut vmId with
  | error e => rfl
  | ok s =>
    rw [hs] at herr
    cases herr

/-- **An operation that is refused leaves the slots alone**; those on volumes, networks and the like always do. -/
theorem dispatch_refused {op : VmOp} (herr : (h.dispatch op).1 = .error e) : (h.dispatch op).2.slots = h.slots := by
  cases op with
  | create => exact create_refused herr
  | start => exact start_refused herr
  | stop => exact stop_refused herr
  | delete => exact delete_refused herr
  | attachVolume => exact attachVolume_refused herr
  | detachVolume => exact detachVolume_refused herr
  | createVolume =>
    simp only [dispatch, createVolume]
    split <;> rfl
  | deleteVolume =>
    simp only [dispatch, deleteVolume]
    split <;> rfl
  | readVolume =>
    simp only [dispatch, readVolume]
    split <;> rfl
  | writeVolume =>
    simp only [dispatch, writeVolume]
    split <;> rfl
  | createNetwork =>
    simp only [dispatch, createNetwork]
    split
    · rfl
    · split <;> rfl
  | attachNic =>
    simp only [dispatch, attachNic]
    split
    · rfl
    · split <;> rfl
  | createSecurityGroup =>
    simp only [dispatch, createSecurityGroup]
    split <;> rfl
  | createLoadBalancer =>
    simp only [dispatch, createLoadBalancer]
    split
    · rfl
    · split <;> rfl
  | list | listVolumes | createSnapshot | listSnapshots | deleteSnapshot | restoreSnapshot | deleteNetwork | listNetworks
  | detachNic | listNics | deleteSecurityGroup | listSecurityGroups | deleteLoadBalancer | listLoadBalancers => rfl

end Refused

/-- **The in-memory host is one.** -/
theorem host_lawful : host.Lawful where
  owner := by
    intro h o r hr
    obtain ⟨e, -, he⟩ := List.mem_filterMap.1 hr
    obtain ⟨s, -, rfl⟩ := Option.map_eq_some_iff.1 he
    rfl
  distinct := fun h o => (rows_distinct o (h.rememberOwner o).slots.toList 0 (by simp)).2
  reads := fun h o o' => snapshot_congr (h.rememberOwner_slots o) o'
  refused := by
    intro h op e h' o heq
    refine snapshot_congr ?_ o
    change h.apply op = (.error e, h') at heq
    unfold apply at heq
    split at heq
    · rw [← (Prod.mk.inj heq).2]
    · have hafter : h' = (h.dispatch op).2 := by rw [heq]
      have hres : (h.dispatch op).1 = .error e := by rw [heq]
      rw [hafter]
      exact dispatch_refused hres
  creates := by
    intro h l o reply h' heq
    by_cases hg : h.Grants l
    · obtain ⟨vmId, h'', hc, -⟩ := recovery_granted (o := o) hg
      rw [hc] at heq
      exact ⟨vmId, (Except.ok.inj (Prod.mk.inj heq).1).symm⟩
    · obtain ⟨e, hc⟩ := recovery_refused (o := o) hg
      rw [hc] at heq
      cases (Prod.mk.inj heq).1

end MemVmHost

/-! ## Publication -/

namespace Inner

/-- **What is published is what was given**, up to the stamps. -/
theorem publish_localRows {cfg : MeshConfig} {g : Inner} (hg : g.Wf cfg) {rows : List RemoteVm}
    (hnd : (rows.map (·.vmId)).Nodup) (hown : ∀ r ∈ rows, r.owner = cfg.nodeId) (now : Nat) :
    ((g.publishLocalVms rows now).2.federation.localRows.map RemoteVm.bare).Perm (rows.map RemoteVm.bare) := by
  set f := g.federation with hf
  set given := g.tickHlc.stamped g.tickHlc.hlc rows with hgiven
  have hwf : (f.setLocal given).Wf := NamespaceFederation.setLocal_wf hg.vms given
  have hids : (given.map (·.vmId)).Nodup := by
    rw [hgiven, stamped, List.map_map]
    exact hnd
  have hbare : ∀ r ∈ rows, ∀ s ∈ given, s.vmId = r.vmId → (f.owned s).bare = r.bare := by
    intro r hr s hs hid
    obtain ⟨r', hr', rfl⟩ := List.mem_map.1 hs
    obtain rfl : r' = r := List.inj_on_of_nodup_map hnd hr' hr hid
    have hself : r'.owner = f.selfId := (hown r' hr).trans hg.vm_self.symm
    simp only [NamespaceFederation.owned, RemoteVm.bare, ← hself]
  change ((f.setLocal given).localRows.map RemoteVm.bare).Perm _
  refine (List.perm_ext_iff_of_nodup ?_ ?_).2 (fun v => ?_)
  · refine hwf.localRows_nodup.map_on (fun a ha b hb hab => ?_)
    rw [hwf.mem_localRows] at ha hb
    have hkey : a.bare.key = b.bare.key := by rw [hab]
    change a.key = b.key at hkey
    rw [hkey] at ha
    exact Option.some.inj (ha.1.symm.trans hb.1)
  · refine List.Nodup.of_map (·.vmId) ?_
    rw [List.map_map]
    exact hnd
  · simp only [List.mem_map]
    constructor
    · rintro ⟨a, ha, rfl⟩
      rw [hwf.mem_localRows] at ha
      obtain ⟨s, hs, rfl, -⟩ := NamespaceFederation.setLocal_own ha.2 ha.1
      obtain ⟨r, hr, hrs⟩ := List.mem_map.1 hs
      exact ⟨r, hr, (hbare r hr s hs (by rw [← hrs])).symm⟩
    · rintro ⟨r, hr, rfl⟩
      obtain ⟨s, hs, hid⟩ : ∃ s ∈ given, s.vmId = r.vmId := ⟨_, List.mem_map.2 ⟨r, hr, rfl⟩, rfl⟩
      exact ⟨f.owned s, (hwf.mem_localRows _).2 ⟨NamespaceFederation.setLocal_mem hids hs, rfl⟩, hbare r hr s hs hid⟩

end Inner

/-! ## Who will publish what the host has -/

/-- The call is bound to read the host again. -/
def HostCall.owes : HostCall → Bool
  | .snapshotting => true
  | .recovering _ _ made => made
  | .attaching .. => true
  | _ => false

/-- The call will publish `rows`, the host's, or what it finds there later. -/
def HostCall.Settles (rows : List RemoteVm) (c : HostCall) : Prop :=
  c.owes = true ∨ ∃ held, c = .publishing held ∧ held.Perm rows

section Host

variable {σ : Type} (H : VmHost σ)

/-- The loop stops at this orphan: its label cannot be cut, or the host refuses to create it. -/
def Stops (h : σ) (existing : List String) (orphan : RemoteVm) : Prop :=
  ∀ l, recoveryLabel orphan = some l → l ∉ existing ∧ ∃ e, (H.handle h (recoveryOp l orphan)).1 = .error e

namespace Node

/-- Some call in flight other than the one at `i` will publish what the host has. -/
def OtherSettles (n : Node σ) (i : Nat) : Prop := ∃ c ∈ n.calls.eraseIdx i, c.Settles (n.current H)

/-- A call publishes rows that are no longer the host's, or a pass that has made a VM stops short, only while what the
host has is still to be published by another call. -/
def Safe (n : Node σ) (e : Nat × NodeEvent) : Prop :=
  match e.2 with
  | .advance i =>
    match n.calls[i]? with
    | some (.publishing rows) => rows.Perm (n.current H) ∨ n.OtherSettles H i
    | some (.recovering existing (orphan :: _) true) =>
      Stops H n.host existing orphan → n.Follows H ∨ n.OtherSettles H i
    | _ => True
  | _ => True

/-- The published rows are the host's, or some call in flight will make them so. -/
structure Inv (cfg : MeshConfig) (n : Node σ) : Prop where
  wf : n.inner.Wf cfg
  settled : n.Follows H ∨ ∃ c ∈ n.calls, c.Settles (n.current H)

variable {H}

/-- Nothing that matters changed: the identity, the own rows and what the host lists. -/
structure Still (n : Node σ) (g : Inner) (h : σ) : Prop where
  own : ∀ k : NodeId × UInt32, k.1 = n.inner.config.nodeId → g.federation.rows.lookup k = n.inner.federation.rows.lookup k
  rows : (H.snapshot h g.config.nodeId).1 = n.current H

theorem Still.follows {cfg : MeshConfig} {n : Node σ} {g : Inner} {h : σ} {calls : List HostCall} (hn : n.inner.Wf cfg)
    (hg : g.Wf cfg) (hs : n.Still (H := H) g h) (hf : n.Follows H) : Node.Follows H ⟨g, h, calls⟩ := by
  unfold Follows current at hf ⊢
  dsimp only
  rw [hs.rows]
  refine (List.Perm.map _ ?_).trans hf
  refine hn.vms.localRows_perm hg.vms (hg.vm_self.trans hn.vm_self.symm) (fun k hk => hs.own k ?_)
  rw [hk, hn.vm_self, hn.config]

variable {cfg : MeshConfig} {n : Node σ} {i : Nat} {c : HostCall}

theorem mem_calls (hc : n.calls[i]? = some c) (x : HostCall) : x ∈ n.calls ↔ x = c ∨ x ∈ n.calls.eraseIdx i := by
  obtain ⟨hlt, rfl⟩ := List.getElem?_eq_some_iff.1 hc
  rw [← (List.getElem_cons_eraseIdx_perm hlt).mem_iff, List.mem_cons]

/-- A step in which nothing that matters changed keeps the invariant, if a call that would have settled it has somebody
to take its place. -/
theorem Inv.still (hi : n.Inv H cfg) (hc : n.calls[i]? = some c) {g : Inner} {h : σ} (hg : g.Wf cfg)
    (hs : n.Still (H := H) g h) (next : Option HostCall)
    (hnext : c.Settles (n.current H) →
      n.Follows H ∨ n.OtherSettles H i ∨ ∃ c', next = some c' ∧ c'.Settles (n.current H)) :
    Node.Inv H cfg ⟨g, h, n.calls.eraseIdx i ++ next.toList⟩ := by
  refine ⟨hg, ?_⟩
  have hcur : Node.current H ⟨g, h, n.calls.eraseIdx i ++ next.toList⟩ = n.current H := hs.rows
  rw [hcur]
  have hother : n.OtherSettles H i → ∃ c' ∈ n.calls.eraseIdx i ++ next.toList, c'.Settles (n.current H) :=
    fun ⟨c', hmem, hset⟩ => ⟨c', List.mem_append_left _ hmem, hset⟩
  rcases hi.settled with hf | ⟨x, hx, hset⟩
  · exact .inl (hs.follows hi.wf hg hf)
  · rcases (mem_calls hc x).1 hx with rfl | hx
    · rcases hnext hset with hf | ho | ⟨c', rfl, hset'⟩
      · exact .inl (hs.follows hi.wf hg hf)
      · exact .inr (hother ho)
      · exact .inr ⟨c', List.mem_append_right _ List.mem_cons_self, hset'⟩
    · exact .inr (hother ⟨x, hx, hset⟩)

/-- A call that is bound to read the host again keeps the invariant, whatever happened to the host. -/
theorem Inv.owed {g : Inner} {h : σ} {rest : List HostCall} (hg : g.Wf cfg) (howes : c.owes = true) :
    Node.Inv H cfg ⟨g, h, rest ++ [c]⟩ :=
  ⟨hg, .inr ⟨c, List.mem_append_right _ List.mem_cons_self, .inl howes⟩⟩

theorem Still.same (n : Node σ) {h : σ} (hrows : (H.snapshot h n.inner.config.nodeId).1 = n.current H) :
    n.Still (H := H) n.inner h := ⟨fun _ _ => rfl, hrows⟩

/-- A section other than a publication changes nothing that matters. -/
theorem Still.section (hn : n.inner.Wf cfg) (a : Nat × Section) (ha : a.2.isPublish = false) :
    n.Still (H := H) (n.inner.step a).2 n.host := by
  refine ⟨fun k hk => ?_, ?_⟩
  · rw [hn.config] at hk
    rcases Inner.step_own hn a hk with heq | ⟨rows, hpub, -⟩
    · exact heq
    · rw [hpub] at ha
      cases ha
  · rw [(Inner.step_wf hn a).config]
    exact congrArg (fun c : MeshConfig => (H.snapshot n.host c.nodeId).1) hn.config.symm

theorem Inv.other (hi : n.Inv H cfg) (a : Nat × Section) (ha : a.2.isPublish = false) (more : List HostCall) :
    Node.Inv H cfg ⟨(n.inner.step a).2, n.host, n.calls ++ more⟩ := by
  have hs : n.Still (H := H) (n.inner.step a).2 n.host := .section hi.wf a ha
  have hg := Inner.step_wf hi.wf a
  refine ⟨hg, ?_⟩
  rw [show Node.current H ⟨(n.inner.step a).2, n.host, n.calls ++ more⟩ = n.current H from hs.rows]
  rcases hi.settled with hf | ⟨x, hx, hset⟩
  · exact .inl (hs.follows hi.wf hg hf)
  · exact .inr ⟨x, List.mem_append_left _ hx, hset⟩

/-- **Publishing what the host has makes the published rows its own**; publishing anything else is for another call to
put right. -/
theorem Inv.published (hH : H.Lawful) (hi : n.Inv H cfg) {rows : List RemoteVm}
    (hsafe : rows.Perm (n.current H) ∨ n.OtherSettles H i) (now : Nat) :
    Node.Inv H cfg ⟨(n.inner.publishLocalVms rows now).2, n.host, n.calls.eraseIdx i⟩ := by
  refine ⟨Inner.publish_wf hi.wf rows now, ?_⟩
  have hcur : Node.current H ⟨(n.inner.publishLocalVms rows now).2, n.host, n.calls.eraseIdx i⟩ = n.current H := rfl
  rcases hsafe with hperm | hother
  · left
    unfold Follows
    rw [hcur]
    refine (Inner.publish_localRows hi.wf ?_ ?_ now).trans (hperm.map _)
    · exact (hperm.map _).nodup_iff.2 (hH.distinct _ _)
    · intro r hr
      rw [hH.owner _ _ r (hperm.mem_iff.1 hr), hi.wf.config]
  · right
    rw [hcur]
    exact hother

theorem settles_iff {rows : List RemoteVm} (hc : ∀ held, c ≠ .publishing held) : c.Settles rows ↔ c.owes = true := by
  constructor
  · rintro (howes | ⟨held, heq, -⟩)
    · exact howes
    · exact absurd heq (hc held)
  · exact .inl

theorem not_settles {rows : List RemoteVm} (hc : ∀ held, c ≠ .publishing held) (howes : c.owes = false) :
    ¬ c.Settles rows := by
  rw [settles_iff hc, howes]
  exact Bool.false_ne_true

/-- A turn of a pass in its loop. -/
theorem Inv.recovering (hH : H.Lawful) (hi : n.Inv H cfg) {existing : List String} {o : RemoteVm} {os : List RemoteVm}
    {made : Bool} (hc : n.calls[i]? = some (.recovering existing (o :: os) made))
    (hsafe : made = true → Stops H n.host existing o → n.Follows H ∨ n.OtherSettles H i) (now : Nat) :
    let r := HostCall.progress H n.inner n.host now (.recovering existing (o :: os) made)
    Node.Inv H cfg ⟨r.2.1, r.2.2, n.calls.eraseIdx i ++ r.1.toList⟩ := by
  have howes : HostCall.Settles (n.current H) (.recovering existing (o :: os) made) → made = true :=
    (settles_iff (fun held heq => by cases heq)).1
  intro r
  simp only [r, HostCall.progress]
  cases hl : recoveryLabel o with
  | none =>
    refine hi.still hc hi.wf (.same n rfl) none (fun hset => ?_)
    have hstops : Stops H n.host existing o := fun l h => by rw [hl] at h; cases h
    exact (hsafe (howes hset) hstops).imp_right .inl
  | some l =>
    dsimp only
    by_cases hex : l ∈ existing
    · rw [if_pos hex]
      exact hi.still hc hi.wf (.same n rfl) _ (fun hset => .inr (.inr ⟨_, rfl, .inl (howes hset)⟩))
    · rw [if_neg hex]
      rcases hh : H.handle n.host (recoveryOp l o) with ⟨res, h'⟩
      cases res with
      | error e =>
        refine hi.still hc hi.wf (.same n (hH.refused _ _ e h' _ hh)) none (fun hset => ?_)
        have hstops : Stops H n.host existing o := by
          intro l' hl'
          obtain rfl := Option.some.inj (hl.symm.trans hl')
          exact ⟨hex, e, by rw [hh]⟩
        exact (hsafe (howes hset) hstops).imp_right .inl
      | ok reply =>
        obtain ⟨vmId, rfl⟩ := hH.creates _ _ _ _ _ hh
        dsimp only
        split
        · exact .owed hi.wf rfl
        · exact .owed hi.wf rfl

/-- **A call that moves on keeps the invariant.** -/
theorem Inv.advance (hH : H.Lawful) (hi : n.Inv H cfg) {c : HostCall} (hc : n.calls[i]? = some c) (now : Nat)
    (hsafe : n.Safe H (now, .advance i)) :
    let r := c.progress H n.inner n.host now
    Node.Inv H cfg ⟨r.2.1, r.2.2, n.calls.eraseIdx i ++ r.1.toList⟩ := by
  simp only [Safe, hc] at hsafe
  cases c with
  | handling op =>
    simp only [HostCall.progress]
    rcases hh : H.handle n.host op with ⟨res, h'⟩
    cases res with
    | ok reply => exact .owed hi.wf rfl
    | error e =>
      exact hi.still hc hi.wf (.same n (hH.refused _ _ e h' _ hh)) none (fun hset => absurd hset (not_settles nofun rfl))
  | snapshotting =>
    refine hi.still hc hi.wf (.same n (hH.reads _ _ _)) _ (fun _ => .inr (.inr ⟨_, rfl, .inr ⟨_, rfl, ?_⟩⟩))
    exact .refl _
  | publishing rows =>
    simp only [HostCall.progress, Option.toList_none, List.append_nil]
    exact hi.published hH hsafe now
  | scanning =>
    have hno : ∀ P : Prop, HostCall.Settles (n.current H) .scanning → P :=
      fun P hset => absurd hset (not_settles nofun rfl)
    have hs : n.Still (H := H) n.inner.orphanedVms.2 n.host := .section hi.wf (now, .listVms) rfl
    simp only [HostCall.progress]
    split
    · exact hi.still hc hi.wf (.same n rfl) none (hno _)
    · split
      · exact hi.still hc (Inner.listVms_wf hi.wf) hs none (hno _)
      · exact hi.still hc (Inner.listVms_wf hi.wf) hs _ (hno _)
  | listing orphans =>
    exact hi.still hc hi.wf (.same n (hH.reads _ _ _)) _ (fun hset => absurd hset (not_settles nofun rfl))
  | recovering existing orphans made =>
    cases orphans with
    | nil =>
      cases made with
      | true => exact .owed hi.wf rfl
      | false => exact hi.still hc hi.wf (.same n rfl) none (fun hset => absurd hset (not_settles nofun rfl))
    | cons o os =>
      refine hi.recovering hH hc (fun hmade hstops => ?_) now
      subst hmade
      exact hsafe hstops
  | attaching existing vmId orphan orphans => exact .owed hi.wf rfl

/-- **One step keeps the invariant.** -/
theorem step_inv (hH : H.Lawful) (hi : n.Inv H cfg) (e : Nat × NodeEvent) (hsafe : n.Safe H e) :
    (n.step H e).2.Inv H cfg := by
  obtain ⟨now, e⟩ := e
  have hmore : ∀ more : List HostCall, Node.Inv H cfg ⟨n.inner, n.host, n.calls ++ more⟩ := by
    refine fun more => ⟨hi.wf, hi.settled.imp_right ?_⟩
    rintro ⟨x, hx, hset⟩
    exact ⟨x, List.mem_append_left _ hx, hset⟩
  cases e with
  | invoke op => exact hmore _
  | supervise => exact hmore _
  | receive env src => exact hi.other (now, .receive env src) rfl _
  | other s =>
    unfold step
    dsimp only
    by_cases hs : s.isPublish = true
    · rw [if_pos hs]
      exact hi
    · rw [if_neg hs]
      have h := hi.other (now, s) (by simpa using hs) []
      rwa [List.append_nil] at h
  | advance i =>
    unfold step
    dsimp only
    cases hc : n.calls[i]? with
    | none => exact hi
    | some c => exact hi.advance hH hc now hsafe

end Node

/-- From a state in which the published rows are the host's, in any interleaving whose steps are safe, they are whenever
nothing is in flight. -/
theorem Node.follows_along {H : VmHost σ} (hH : H.Lawful) {cfg : MeshConfig} {n : Node σ} (hn : n.inner.Wf cfg)
    (hfollows : n.Follows H) {es : List (Nat × NodeEvent)} (hsafe : Along (Node.step H) (Node.Safe H) n es) :
    ∀ n' ∈ states (Node.step H) n es, n'.calls = [] → n'.Follows H := by
  intro n' hn' hquiet
  have hinv : n'.Inv H cfg :=
    of_along (I := Node.Inv H cfg) (fun _ e hi hs => Node.step_inv hH hi e hs) ⟨hn, .inl hfollows⟩ hsafe n' hn'
  rcases hinv.settled with hf | ⟨c, hc, -⟩
  · exact hf
  · rw [hquiet] at hc
    exact absurd hc List.not_mem_nil

namespace Inner

/-- Before anything is published a node has no row of its own. -/
theorem no_own_rows (cfg : MeshConfig) (now : Nat) {before : List (Nat × Section)}
    (hbefore : ∀ a ∈ before, a.2.isPublish = false) :
    (run step (start cfg now) before).Wf cfg ∧ (run step (start cfg now) before).federation.localRows = [] := by
  have hinv : ∀ g ∈ states step (start cfg now) before,
      g.Wf cfg ∧ ∀ k : NodeId × UInt32, k.1 = cfg.nodeId → g.federation.rows.lookup k = none := by
    refine of_along (C := fun _ a => a.2.isPublish = false) (fun g a hg ha => ⟨step_wf hg.1 a, fun k hk => ?_⟩)
      ⟨start_wf cfg now, fun _ _ => rfl⟩ (along_of_mem hbefore _)
    rcases step_own hg.1 a hk with heq | ⟨rows, hpub, -⟩
    · rw [heq, hg.2 k hk]
    · rw [hpub] at ha
      cases ha
  obtain ⟨hwf, hnone⟩ := hinv _ (run_mem_states _ _)
  refine ⟨hwf, List.eq_nil_iff_forall_not_mem.2 fun v hv => ?_⟩
  obtain ⟨hlookup, howner⟩ := (hwf.vms.mem_localRows v).1 hv
  rw [hnone v.key (howner.trans hwf.vm_self)] at hlookup
  cases hlookup

/-- **A host that is registered has its rows published exactly if it has none.** -/
theorem setHost_follows_iff {H : VmHost σ} (hH : H.Lawful) {cfg : MeshConfig} {g : Inner} (hg : g.Wf cfg)
    (hnone : g.federation.localRows = []) (h : σ) : (g.setHost H h).Follows H ↔ (H.snapshot h cfg.nodeId).1 = [] := by
  have hcur : (g.setHost H h).current H = (H.snapshot h cfg.nodeId).1 := by
    change (H.snapshot (H.snapshot h g.config.nodeId).2 g.config.nodeId).1 = _
    rw [hH.reads, hg.config]
  unfold Node.Follows
  rw [hcur]
  change (g.federation.localRows.map RemoteVm.bare).Perm _ ↔ _
  rw [hnone, List.map_nil, List.nil_perm, List.map_eq_nil_iff]

end Inner

/-- **Published rows follow the host.**  A node runs for a while and gets a host; in any interleaving from then on whose
steps are safe the published rows are the host's whenever nothing is in flight, exactly if the host had no VM when it was
registered. -/
theorem published_follows {H : VmHost σ} (hH : H.Lawful) (cfg : MeshConfig) (now : Nat) (before : List (Nat × Section))
    (hbefore : ∀ a ∈ before, a.2.isPublish = false) (h : σ) (es : List (Nat × NodeEvent))
    (hsafe : Along (Node.step H) (Node.Safe H) ((run Inner.step (.start cfg now) before).setHost H h) es) :
    (∀ n ∈ states (Node.step H) ((run Inner.step (.start cfg now) before).setHost H h) es, n.calls = [] → n.Follows H) ↔
      (H.snapshot h cfg.nodeId).1 = [] := by
  obtain ⟨hwf, hnone⟩ := Inner.no_own_rows cfg now hbefore
  rw [← Inner.setHost_follows_iff hH hwf hnone h]
  constructor
  · exact fun hall => hall _ (mem_states_self _ _) rfl
  · exact fun hfollows => Node.follows_along hH hwf hfollows hsafe

end Host

/-! ## Two calls at a time -/

/-- Node `a` as it starts, with an empty host. -/
def quietA : Node MemVmHost := (Inner.start (defaultsFor "a") 0).setHost MemVmHost.host .new

def createNamed (label : String) : VmOp := .create label .never none none none none

/-- One `Create`, from the call to the publication. -/
def createAlone : List (Nat × NodeEvent) :=
  [(0, .invoke (createNamed "x")), (0, .advance 0), (0, .advance 0), (0, .advance 0)]

theorem published_follows_alone :
    (run (Node.step MemVmHost.host) quietA createAlone).calls = [] ∧
      ∀ n ∈ states (Node.step MemVmHost.host) quietA createAlone, n.calls = [] → n.Follows MemVmHost.host := by
  refine ⟨by decide +kernel, (published_follows MemVmHost.host_lawful (defaultsFor "a") 0 [] nofun .new createAlone ?_).2
    (by decide +kernel)⟩
  exact ⟨trivial, trivial, trivial, .inl (by decide +kernel), trivial⟩

/-- Two `Create`s; the first has read the host before the second changes it, and publishes last. -/
def createTogether : List (Nat × NodeEvent) :=
  [(0, .invoke (createNamed "x")), (0, .invoke (createNamed "y")), (0, .advance 0), (0, .advance 1), (0, .advance 0),
    (0, .advance 1), (0, .advance 1), (0, .advance 0)]

/-- The older snapshot stays published, under the newer clock. -/
theorem stale_snapshot_wins : ¬ ∀ (cfg : MeshConfig) (now : Nat) (h : MemVmHost),
    (MemVmHost.host.snapshot h cfg.nodeId).1 = [] → ∀ es, ∀ n ∈ states (Node.step MemVmHost.host)
      ((Inner.start cfg now).setHost MemVmHost.host h) es, n.calls = [] → n.Follows MemVmHost.host := by
  intro hall
  have hquiet : (run (Node.step MemVmHost.host) quietA createTogether).calls.length = 0 := by decide +kernel
  have h := (hall (defaultsFor "a") 0 .new (by decide +kernel) createTogether _ (run_mem_states _ _)
    (List.length_eq_zero_iff.1 hquiet)).length_eq
  simp only [List.length_map] at h
  have hpublished : (run (Node.step MemVmHost.host) quietA createTogether).inner.federation.localRows.length = 1 := by
    decide +kernel
  have hthere : ((run (Node.step MemVmHost.host) quietA createTogether).current MemVmHost.host).length = 2 := by
    decide +kernel
  exact absurd (hpublished.symm.trans (h.trans hthere)) (by decide)

end Celium
