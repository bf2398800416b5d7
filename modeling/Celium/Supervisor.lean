import Celium.MemHost
import Celium.MeshMirror
import Celium.MemberDetect
/-!
# Supervisor — recreating the VMs that a peer left behind

`celmesh::mesh::run_supervisor_step`.  The trait `VmHost` is a structure of the three calls a mesh makes on a host whose
state is of any type, and `MemVmHost` is one instance; a host that fails now and then has what it fails by in its state.
The pass takes its list of orphans once and then works through it: a label that is on the host already is passed over, a
refused `Create` ends the pass, and so does a label that cannot be cut at byte 32, where the source panics.
-/
namespace Celium

open Runs

/-- The trait `VmHost`. -/
structure VmHost (σ : Type) where
  handle : σ → VmOp → HostResult × σ
  snapshot : σ → NodeId → List RemoteVm × σ
  attachPreserved : σ → UInt32 → List VolumeAttachment → Except String Unit × σ

/-- `impl VmHost for MemVmHost`. -/
def MemVmHost.host : VmHost MemVmHost := ⟨MemVmHost.apply, MemVmHost.currentRows, MemVmHost.attachPreserved⟩

structure RestartedVm where
  originalOwner : NodeId
  originalVmId : UInt32
  newVmId : UInt32
  label : String
deriving DecidableEq, Repr

/-- The label of the VM made for an orphan, cut to 32 bytes; none where the cut falls inside a character. -/
def recoveryLabel (orphan : RemoteVm) : Option String :=
  let newLabel := orphan.label ++ "@" ++ orphan.owner.raw
  if newLabel.utf8ByteSize > 32 then (Text.sliceTo 32 newLabel.toList).map String.ofList else some newLabel

/-- The `Create` the supervisor asks its host for. -/
def recoveryOp (newLabel : String) (orphan : RemoteVm) : VmOp :=
  .create newLabel .never orphan.imagePath orphan.cpuCount orphan.memoryMib orphan.bootBlobCrc32c

/-- How the loop over the orphans ends. -/
inductive LoopEnd where
  | done
  | failed (e : CelError)
  | panicked
deriving DecidableEq, Repr

section Host

variable {σ : Type} (H : VmHost σ)

/-- The volumes an orphan had go to the VM made for it; a failure is only logged. -/
def VmHost.reattach (h : σ) (vmId : UInt32) (orphan : RemoteVm) : σ :=
  if orphan.volumes.isEmpty then h else (H.attachPreserved h vmId orphan.volumes).2

/-- The loop over the orphans, with what it has made when it ends. -/
def VmHost.recover (existing : List String) : List RemoteVm → σ → LoopEnd × List RestartedVm × σ
  | [], h => (.done, [], h)
  | orphan :: orphans, h =>
    match recoveryLabel orphan with
    | none => (.panicked, [], h)
    | some newLabel =>
      if newLabel ∈ existing then VmHost.recover existing orphans h
      else match H.handle h (recoveryOp newLabel orphan) with
        | (.error s, h) => (.failed (.io ("supervisor create: " ++ s)), [], h)
        | (.ok (.created vmId), h) =>
          let (ending, out, h) := VmHost.recover existing orphans (H.reattach h vmId orphan)
          (ending, ⟨orphan.owner, orphan.vmId, vmId, newLabel⟩ :: out, h)
        | (.ok _, h) => VmHost.recover existing orphans h

/-- The `Sync` to each peer that follows a publication. -/
def Inner.burst (g : Inner) (peers : List String) : Inner := peers.foldl (fun g _ => g.sendSync.2) g

def Inner.republishAfterOp (g : Inner) (h : σ) (now : Nat) : Inner × σ :=
  let (rows, h) := H.snapshot h g.config.nodeId
  let (peers, g) := g.publishLocalVms rows now
  (g.burst peers, h)

/-- What a pass answers: `none` is a panic. -/
abbrev PassResult := Option (CelResult (List RestartedVm))

/-- One pass: its answer, the VMs it made whatever it answers, and the state and the host it leaves. -/
structure Pass (σ : Type) where
  result : PassResult
  made : List RestartedVm
  inner : Inner
  host : Option σ

/-- The end of a pass: what its loop made is published, if it came to an end and made something. -/
def Inner.endPass (g : Inner) (now : Nat) : LoopEnd × List RestartedVm × σ → Pass σ
  | (.panicked, out, h) => ⟨none, out, g, some h⟩
  | (.failed e, out, h) => ⟨some (.error e), out, g, some h⟩
  | (.done, out, h) =>
    if out.isEmpty then ⟨some (.ok []), out, g, some h⟩
    else
      let (g, h) := g.republishAfterOp H h now
      ⟨some (.ok out), out, g, some h⟩

/-- `run_supervisor_step`. -/
def Inner.runSupervisorStep (g : Inner) (host : Option σ) (now : Nat) : Pass σ :=
  if !g.isSupervisor then ⟨some (.ok []), [], g, host⟩
  else match host with
    | none => ⟨some (.error (.invalid "no VmHost registered")), [], g, none⟩
    | some h =>
      let (orphans, g) := g.orphanedVms
      if orphans.isEmpty then ⟨some (.ok []), [], g, some h⟩
      else
        let (rows, h) := H.snapshot h g.config.nodeId
        g.endPass H now (H.recover (rows.map (·.label)) orphans h)

end Host

/-! ## What a pass makes -/

/-- The orphans a pass comes to: those before the first whose label cannot be cut. -/
def Inner.reached (g : Inner) : List RemoteVm := g.orphanedVms.1.takeWhile (fun o => (recoveryLabel o).isSome)

section Host

variable {σ : Type} (H : VmHost σ)

theorem recover_cut {existing : List String} {o : RemoteVm} {os : List RemoteVm} {h : σ} (hl : recoveryLabel o = none) :
    H.recover existing (o :: os) h = (.panicked, [], h) := by
  rw [VmHost.recover, hl]

theorem recover_skip {existing : List String} {o : RemoteVm} {os : List RemoteVm} {h : σ} {l : String}
    (hl : recoveryLabel o = some l) (hex : l ∈ existing) :
    H.recover existing (o :: os) h = H.recover existing os h := by
  rw [VmHost.recover, hl]
  exact if_pos hex

theorem recover_refused {existing : List String} {o : RemoteVm} {os : List RemoteVm} {h h' : σ} {l e : String}
    (hl : recoveryLabel o = some l) (hex : l ∉ existing) (hc : H.handle h (recoveryOp l o) = (.error e, h')) :
    H.recover existing (o :: os) h = (.failed (.io ("supervisor create: " ++ e)), [], h') := by
  rw [VmHost.recover, hl]
  dsimp only
  rw [if_neg hex, hc]

theorem recover_made {existing : List String} {o : RemoteVm} {os : List RemoteVm} {h h' : σ} {l : String} {i : UInt32}
    (hl : recoveryLabel o = some l) (hex : l ∉ existing) (hc : H.handle h (recoveryOp l o) = (.ok (.created i), h')) :
    H.recover existing (o :: os) h = ((H.recover existing os (H.reattach h' i o)).1,
      ⟨o.owner, o.vmId, i, l⟩ :: (H.recover existing os (H.reattach h' i o)).2.1,
      (H.recover existing os (H.reattach h' i o)).2.2) := by
  rw [VmHost.recover, hl]
  dsimp only
  rw [if_neg hex, hc]

theorem recover_other {existing : List String} {o : RemoteVm} {os : List RemoteVm} {h h' : σ} {l : String}
    {reply : VmOpReply} (hl : recoveryLabel o = some l) (hex : l ∉ existing)
    (hc : H.handle h (recoveryOp l o) = (.ok reply, h')) (hr : ∀ i, reply ≠ .created i) :
    H.recover existing (o :: os) h = H.recover existing os h' := by
  rw [VmHost.recover, hl]
  dsimp only
  rw [if_neg hex, hc]
  cases reply with
  | created i => exact absurd rfl (hr i)
  | _ => rfl

/-- **Everything a pass makes is made for an orphan it comes to.** -/
theorem recover_origin (existing : List String) (os : List RemoteVm) (h : σ) :
    ∀ r ∈ (H.recover existing os h).2.1, ∃ o ∈ os.takeWhile (fun o => (recoveryLabel o).isSome),
      r.originalOwner = o.owner ∧ r.originalVmId = o.vmId := by
  induction os generalizing h with
  | nil => exact fun r hr => absurd hr List.not_mem_nil
  | cons o os ih =>
    intro r hr
    cases hl : recoveryLabel o with
    | none =>
      rw [recover_cut H hl] at hr
      exact absurd hr List.not_mem_nil
    | some l =>
      rw [List.takeWhile_cons_of_pos (by simp [hl])]
      have hlater : ∀ h', r ∈ (H.recover existing os h').2.1 →
          ∃ o' ∈ o :: os.takeWhile (fun o => (recoveryLabel o).isSome),
            r.originalOwner = o'.owner ∧ r.originalVmId = o'.vmId := by
        intro h' hr'
        obtain ⟨o', ho', heq⟩ := ih h' r hr'
        exact ⟨o', List.mem_cons_of_mem o ho', heq⟩
      by_cases hex : l ∈ existing
      · rw [recover_skip H hl hex] at hr
        exact hlater h hr
      · rcases hc : H.handle h (recoveryOp l o) with ⟨res, h'⟩
        cases res with
        | error e =>
          rw [recover_refused H hl hex hc] at hr
          exact absurd hr List.not_mem_nil
        | ok reply =>
          by_cases hcreated : ∃ i, reply = .created i
          · obtain ⟨i, rfl⟩ := hcreated
            rw [recover_made H hl hex hc] at hr
            rcases List.mem_cons.1 hr with rfl | hr
            · exact ⟨o, List.mem_cons_self, rfl, rfl⟩
            · exact hlater _ hr
          · rw [recover_other H hl hex hc (fun i hi => hcreated ⟨i, hi⟩)] at hr
            exact hlater h' hr

theorem Inner.endPass_made (g : Inner) (now : Nat) (r : LoopEnd × List RestartedVm × σ) :
    (g.endPass H now r).made = r.2.1 := by
  obtain ⟨_ | e | _, out, h⟩ := r
  · unfold endPass
    dsimp only
    split <;> rfl
  · rfl
  · rfl

/-- **The VMs a pass makes** are those of its loop, whatever it then answers. -/
theorem Inner.runSupervisorStep_made (g : Inner) (h : σ) (now : Nat) :
    (g.runSupervisorStep H (some h) now).made =
      if g.isSupervisor then
        (H.recover ((H.snapshot h g.config.nodeId).1.map (·.label)) g.orphanedVms.1 (H.snapshot h g.config.nodeId).2).2.1
      else [] := by
  unfold runSupervisorStep
  by_cases hsup : g.isSupervisor = true
  · rw [if_pos hsup, if_neg (by simp [hsup])]
    dsimp only
    split
    · rename_i hnil
      rw [List.isEmpty_iff.1 hnil]
      rfl
    · exact Inner.endPass_made H _ now _
  · rw [if_neg hsup, if_pos (by simpa using hsup)]

end Host

/-- A host with no VM of its own that grants every `Create`. -/
def grantingHost : VmHost Unit where
  handle := fun _ _ => (.ok (.created 0), ())
  snapshot := fun _ _ => ([], ())
  attachPreserved := fun _ _ _ => (.ok (), ())

theorem grantingHost_makes {o : RemoteVm} {os : List RemoteVm}
    (ho : o ∈ os.takeWhile (fun o => (recoveryLabel o).isSome)) :
    ∃ r ∈ (grantingHost.recover [] os ()).2.1, r.originalOwner = o.owner := by
  induction os with
  | nil => exact absurd ho List.not_mem_nil
  | cons o' os ih =>
    cases hl : recoveryLabel o' with
    | none =>
      rw [List.takeWhile_cons_of_neg (by simp [hl])] at ho
      exact absurd ho List.not_mem_nil
    | some l =>
      rw [List.takeWhile_cons_of_pos (by simp [hl])] at ho
      rw [recover_made grantingHost hl List.not_mem_nil (i := 0) (show _ = (_, ()) from rfl)]
      rcases List.mem_cons.1 ho with rfl | ho
      · exact ⟨_, List.mem_cons_self, rfl⟩
      · obtain ⟨r, hr, heq⟩ := ih ho
        exact ⟨r, List.mem_cons_of_mem _ hr, heq⟩

/-! ## Whose VMs are recreated -/

namespace Inner

/-- **The map of `list_vms` agrees with the table.** -/
theorem aliveOf_iff {g : Inner} (hm : g.membership.Wf) (x : NodeId) :
    g.aliveOf x = true ↔ ∃ r, g.membership.get x = some r ∧ r.status = .alive := by
  unfold aliveOf
  cases hfind : g.membership.snapshot.reverse.find? (fun r => r.id == x) with
  | some r =>
    have hid : r.id = x := by simpa using List.find?_some hfind
    obtain ⟨k, hk⟩ := (g.membership.mem_snapshot r).1 (List.mem_reverse.1 (List.mem_of_find?_eq_some hfind))
    have hget : g.membership.get x = some r := by
      rw [← hid, hm.keyed k r hk]
      exact hk
    simp [hget]
  | none =>
    simp only [Option.map_none, Option.getD_none, Bool.false_eq_true, false_iff, not_exists]
    rintro r ⟨hr, -⟩
    have hin : r ∈ g.membership.snapshot.reverse := List.mem_reverse.2 ((g.membership.mem_snapshot r).2 ⟨x, hr⟩)
    exact absurd (by simpa using hm.keyed x r hr) (List.find?_eq_none.1 hfind r hin)

/-- **An orphan is a peer's row with the policy `Always`, and that peer is not `Alive`.** -/
theorem mem_orphanedVms (g : Inner) (o : RemoteVm) :
    o ∈ g.orphanedVms.1 ↔ ∃ k v, g.federation.rows.lookup k = some v ∧ v.owner ≠ g.federation.selfId ∧
      g.aliveOf v.owner = false ∧ v.restartPolicy = .always ∧ o = { v with ownerAlive := false } := by
  unfold orphanedVms listVms
  dsimp only
  rw [List.mem_filter, NamespaceFederation.mem_list]
  simp only [NamespaceFederation.refreshAlive_rows, Option.map_eq_some_iff, Bool.and_eq_true, Bool.not_eq_true',
    beq_iff_eq]
  constructor
  · rintro ⟨⟨k, v, hv, rfl⟩, halive, hpolicy⟩
    dsimp only at halive hpolicy ⊢
    by_cases hown : v.owner = g.federation.selfId
    · rw [if_pos hown] at halive
      cases halive
    · rw [if_neg hown] at halive ⊢
      exact ⟨k, v, hv, hown, halive, hpolicy, by rw [halive]⟩
  · rintro ⟨k, v, hv, hown, halive, hpolicy, rfl⟩
    exact ⟨⟨k, v, hv, by rw [if_neg hown, halive]⟩, rfl, hpolicy⟩

end Inner

/-- **A supervisor recreates no VM of a node that may still run exactly when no owner it comes to is in doubt**: each is
in the table, and none is `Suspect`. -/
theorem recreated_gone_iff {g : Inner} (hm : g.membership.Wf) (now : Nat) :
    (∀ (σ : Type) (H : VmHost σ) (h : σ), ∀ r ∈ (g.runSupervisorStep H (some h) now).made,
      g.membership.Gone r.originalOwner) ↔
    (g.isSupervisor = true → ∀ o ∈ g.reached, ∃ r, g.membership.get o.owner = some r ∧ r.status ≠ .suspect) := by
  constructor
  · intro hall hsup o ho
    obtain ⟨r, hr, howner⟩ := grantingHost_makes ho
    have hmade := g.runSupervisorStep_made grantingHost () now
    rw [if_pos hsup] at hmade
    have hgone := hall Unit grantingHost () r (by rw [hmade]; exact hr)
    rw [howner] at hgone
    obtain ⟨i, hi, hst⟩ := hgone
    refine ⟨i, hi, ?_⟩
    rcases hst with hst | hst <;> rw [hst] <;> decide
  · intro hcond σ H h r hr
    rw [Inner.runSupervisorStep_made] at hr
    by_cases hsup : g.isSupervisor = true
    · rw [if_pos hsup] at hr
      obtain ⟨o, ho, howner, -⟩ := recover_origin H _ _ _ r hr
      obtain ⟨i, hi, hst⟩ := hcond hsup o ho
      obtain ⟨k, v, -, -, halive, -, rfl⟩ := (g.mem_orphanedVms o).1 (List.takeWhile_subset _ ho)
      rw [howner]
      refine ⟨i, hi, ?_⟩
      have hna : i.status ≠ .alive := by
        intro hst
        rw [(Inner.aliveOf_iff hm _).2 ⟨i, hi, hst⟩] at halive
        cases halive
      cases hs : i.status with
      | alive => exact absurd hs hna
      | suspect => exact absurd hs hst
      | dead => exact .inl rfl
      | left => exact .inr rfl
    · rw [if_neg hsup] at hr
      exact absurd hr List.not_mem_nil

/-- Node `a` after a `Sync` from `b` that carries one VM, and a round of the failure detector `elapsed` later. -/
def silentFor (elapsed : Nat) : Inner :=
  run Inner.step (.start (defaultsFor "a") 0) [(0, .receive syncWith "mem://b"), (elapsed, .gossip (.asStored String))]

theorem silentFor_wf (elapsed : Nat) : (silentFor elapsed).Wf (defaultsFor "a") := Inner.run_wf _ _ _

/-- Once `b` is `Dead` its VM is recreated, and may be. -/
theorem recreated_gone_dead :
    ((silentFor 1500000000).runSupervisorStep MemVmHost.host (some .new) 0).made ≠ [] ∧
      ∀ r ∈ ((silentFor 1500000000).runSupervisorStep MemVmHost.host (some .new) 0).made,
        (silentFor 1500000000).membership.Gone r.originalOwner := by
  refine ⟨by decide +kernel,
    (recreated_gone_iff (silentFor_wf _).members 0).2 (fun _ o ho => ?_) _ MemVmHost.host .new⟩
  have hall : ∀ o ∈ (silentFor 1500000000).reached, ((silentFor 1500000000).membership.get o.owner).map (·.status) =
      some .dead := by decide +kernel
  obtain ⟨i, hi, hst⟩ := Option.map_eq_some_iff.1 (hall o ho)
  exact ⟨i, hi, by rw [hst]; decide⟩

/-- A node whose gossip is late has its VM recreated while it may still run it. -/
theorem suspect_recreated : ¬ ∀ (g : Inner), g.membership.Wf → ∀ (σ : Type) (H : VmHost σ) (h : σ) (now : Nat),
    ∀ r ∈ (g.runSupervisorStep H (some h) now).made, g.membership.Gone r.originalOwner := by
  intro hall
  have hmade : (⟨⟨"b"⟩, 0, 0, "web@b"⟩ : RestartedVm) ∈
      ((silentFor 600000000).runSupervisorStep MemVmHost.host (some .new) 0).made := by decide +kernel
  obtain ⟨i, hi, hst⟩ := hall _ (silentFor_wf _).members _ MemVmHost.host .new 0 _ hmade
  have hsuspect : ((silentFor 600000000).membership.get ⟨"b"⟩).map (·.status) = some .suspect := by decide +kernel
  rw [hi] at hsuspect
  have hst' : i.status = .suspect := Option.some.inj hsuspect
  rcases hst with hst | hst <;> rw [hst'] at hst <;> cases hst

end Celium
