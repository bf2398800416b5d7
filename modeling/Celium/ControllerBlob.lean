import Celium.Controller
/-!
# ControllerBlob — the staged blob and the digest on record

The record of a VM says which blob the last successful start staged for it.  A start writes the blob first and checks
afterwards, so that one which is refused for its page leaves a page on disk that the record does not describe.
-/
namespace Celium

open Checked Controller Runs

theorem stagePath_inj {root : String} {a b : UInt32} (h : stagePath root a = stagePath root b) : a = b := by
  have hlist := congrArg String.toList h
  simp only [stagePath, stageDir, String.toList_append, List.append_assoc, List.append_cancel_left_eq,
    List.append_cancel_right_eq] at hlist
  exact UInt32.toNat_inj.1 (Text.toString_toList_inj hlist)

/-- The blob of a VM has the CRC and the length on record. -/
def VmRecord.Matches (r : VmRecord) (disk : BlobFiles) (root : String) : Prop :=
  ∀ crc, r.bootBlobCrc32c = some crc → ∃ bytes, disk (stagePath root r.id) = some bytes ∧ Util.crc32c bytes = crc ∧
    r.bootBlobLen = some bytes.length

namespace VmRecord

variable {r r' : VmRecord} {disk : BlobFiles} {root : String} {page : List UInt8}

theorem matches_congr (hid : r'.id = r.id) (hlen : r'.bootBlobLen = r.bootBlobLen)
    (hcrc : r'.bootBlobCrc32c = r.bootBlobCrc32c) : r'.Matches disk root ↔ r.Matches disk root := by
  rw [Matches, Matches, hid, hlen, hcrc]

theorem matches_put_self (hid : r'.id = r.id) : r'.Matches (put disk root r page) root ↔
    ∀ crc, r'.bootBlobCrc32c = some crc → Util.crc32c page = crc ∧ r'.bootBlobLen = some page.length := by
  have hput : put disk root r page (stagePath root r'.id) = some page := by
    rw [hid]
    exact Function.update_self _ _ _
  unfold Matches
  simp only [hput, Option.some.injEq, exists_eq_left']

theorem matches_put_other (hid : r'.id ≠ r.id) :
    r'.Matches (put disk root r page) root ↔ r'.Matches disk root := by
  have hput : put disk root r page (stagePath root r'.id) = disk (stagePath root r'.id) :=
    Function.update_of_ne (fun h => hid (stagePath_inj h)) _ _
  rw [Matches, Matches, hput]

end VmRecord

namespace StageHost

/-- A controller without VMs, over whatever lies under its stage root. -/
def fresh (root : String) (sink : Bool) (disk : BlobFiles) : StageHost := ⟨.inMemory root sink, disk⟩

/-- Every record has the number of its slot. -/
def Numbered (h : StageHost) : Prop := ∀ i r, h.controller.state.slots i = some r → r.id = UInt32.ofNat i

def BlobsMatch (h : StageHost) : Prop :=
  ∀ root i r, h.controller.stageRoot = some root → h.controller.state.slots i = some r → r.Matches h.disk root

/-- A page that a start puts in place of a blob on record has the CRC on record, and has the length on record unless the
sink lets the start go on. -/
def SamePage (h : StageHost) : ControllerCall → Prop
  | .start w id => ∀ i r root page, h.controller.Stages w id i r root page → ∀ prev, r.bootBlobCrc32c = some prev →
      Util.crc32c page = prev ∧ (r.bootBlobLen = some page.length ∨ h.controller.Ships w page)
  | _ => True

variable {h : StageHost}

theorem numbered_setSlot {disk : BlobFiles} (hnum : h.Numbered) {i : Fin maxVms} {new : Option VmRecord}
    (hnew : ∀ r, new = some r → r.id = UInt32.ofNat i) : StageHost.Numbered ⟨h.controller.setSlot i new, disk⟩ := by
  intro j r hr
  simp only [setSlot_slots] at hr
  split at hr
  · rename_i hj
    rw [hj]
    exact hnew r hr
  · exact hnum j r hr

theorem blobsMatch_setSlot (hmatch : h.BlobsMatch) {i : Fin maxVms} {new : Option VmRecord}
    (hnew : ∀ root r, h.controller.stageRoot = some root → new = some r → r.Matches h.disk root) :
    StageHost.BlobsMatch ⟨h.controller.setSlot i new, h.disk⟩ := by
  intro root j r hroot hr
  simp only [setSlot_slots] at hr
  split at hr
  · exact hnew root r hroot hr
  · exact hmatch root j r hroot hr

theorem numbered_change {c : Controller} {disk : BlobFiles} (hnum : h.Numbered) (hc : h.controller.Change c) :
    StageHost.Numbered ⟨c, disk⟩ := by
  cases hc with
  | stay => exact hnum
  | move hr hid hlen hcrc =>
    refine numbered_setSlot hnum fun r' hr' => ?_
    rw [← Option.some.inj hr', hid]
    exact hnum _ _ hr
  | remove i =>
    refine numbered_setSlot hnum fun r hr => ?_
    cases hr

theorem blobsMatch_change {c : Controller} (hmatch : h.BlobsMatch) (hc : h.controller.Change c) :
    StageHost.BlobsMatch ⟨c, h.disk⟩ := by
  cases hc with
  | stay => exact hmatch
  | move hr hid hlen hcrc =>
    refine blobsMatch_setSlot hmatch fun root r' hroot hr' => ?_
    rw [← Option.some.inj hr', VmRecord.matches_congr hid hlen hcrc]
    exact hmatch root _ _ hroot hr
  | remove i =>
    refine blobsMatch_setSlot hmatch fun root r hroot hr => ?_
    cases hr

theorem numbered_start (hnum : h.Numbered) (w : Surroundings) (id : UInt32) : (h.step (.start w id)).2.Numbered := by
  rw [step_start]
  rcases h.controller.startVm_cases w h.disk id with ⟨e, heq, -⟩ | ⟨i, r, hfound, -, heq⟩ |
    ⟨i, r, root, page, hst, ⟨e, -, heq⟩ | ⟨-, heq⟩⟩
  · rw [heq]
    exact hnum
  · rw [heq]
    exact numbered_change hnum (.move (lookup_ok.1 hfound).2 rfl rfl rfl)
  · rw [heq]
    exact hnum
  · rw [heq]
    refine numbered_setSlot hnum fun r' hr' => ?_
    rw [← Option.some.inj hr']
    exact hnum i r (lookup_ok.1 hst.found).2

theorem numbered_step (hnum : h.Numbered) (call : ControllerCall) : (h.step call).2.Numbered := by
  cases call with
  | create spec =>
    rw [step_create]
    rcases h.controller.createVmWith_cases spec with ⟨e, heq⟩ | ⟨i, -, heq⟩
    · rw [heq]
      exact hnum
    · rw [heq]
      refine numbered_setSlot hnum fun r hr => ?_
      rw [← Option.some.inj hr]
      rfl
  | start w id => exact numbered_start hnum w id
  | reset id => exact numbered_change hnum (h.controller.change_resetVm id)
  | stop id => exact numbered_change hnum (h.controller.change_stopVm id)
  | delete id => exact numbered_change hnum (h.controller.change_deleteVm id)

/-- The records of other slots match the blobs as before. -/
theorem matches_put_slot (hnum : h.Numbered) {root : String} {i j : Fin maxVms} {r r' : VmRecord} {page : List UInt8}
    (hr : h.controller.state.slots i = some r) (hr' : h.controller.state.slots j = some r') (hij : j ≠ i) :
    r'.Matches (put h.disk root r page) root ↔ r'.Matches h.disk root := by
  refine VmRecord.matches_put_other fun hid => hij ?_
  rw [hnum i r hr, hnum j r' hr'] at hid
  exact ofNat_inj hid

/-- **A start keeps the blobs and the records together** exactly if it writes no other page than the one on record. -/
theorem blobsMatch_start (hnum : h.Numbered) (hmatch : h.BlobsMatch) (w : Surroundings) (id : UInt32) :
    (h.step (.start w id)).2.BlobsMatch ↔ h.SamePage (.start w id) := by
  rw [step_start]
  rcases h.controller.startVm_cases w h.disk id with ⟨e, heq, hnone⟩ | ⟨i, r, hfound, hplain, heq⟩ |
    ⟨i, r, root, page, hst, ⟨e, hstop, heq⟩ | ⟨hgo, heq⟩⟩
  · rw [heq]
    exact iff_of_true hmatch fun i r root page hst => absurd hst (hnone i r root page)
  · rw [heq]
    have hmove : h.controller.Change (h.controller.setSlot i (some (r.started none))) :=
      .move (lookup_ok.1 hfound).2 rfl rfl rfl
    refine iff_of_true (blobsMatch_change hmatch hmove) fun i' r' root page hst => ?_
    obtain ⟨rfl, rfl⟩ := Prod.mk.inj (Except.ok.inj (hst.found.symm.trans hfound))
    rcases hplain with himg | hroot
    · have := hst.image
      rw [himg] at this
      cases this
    · have := hst.bound
      rw [hroot] at this
      cases this
  · rw [heq]
    have hr := (lookup_ok.1 hst.found).2
    constructor
    · intro hafter i' r' root' page' hst' prev hprev
      obtain ⟨rfl, rfl, rfl, rfl⟩ := hst.unique hst'
      obtain ⟨hcrc, hlen⟩ := (VmRecord.matches_put_self rfl).1 (hafter root' i' r' hst.bound hr) prev hprev
      exact ⟨hcrc, .inl hlen⟩
    · intro hsame root' j r' hroot' hr'
      obtain rfl : root' = root := Option.some.inj (hroot'.symm.trans hst.bound)
      by_cases hj : j = i
      · subst hj
        obtain rfl : r' = r := Option.some.inj (hr'.symm.trans hr)
        refine (VmRecord.matches_put_self rfl).2 fun prev hprev => ?_
        obtain ⟨hcrc, hlen | hships⟩ := hsame _ _ _ _ hst prev hprev
        · exact ⟨hcrc, hlen⟩
        -- The sink agrees and so does the digest: such a start is not refused.
        · refine absurd ⟨fun prev' hprev' => ?_, hships⟩ hstop
          rw [hcrc]
          exact Option.some.inj (hprev.symm.trans hprev')
      · exact (matches_put_slot hnum hr hr' hj).2 (hmatch root' j r' hroot' hr')
  · rw [heq]
    have hr := (lookup_ok.1 hst.found).2
    refine iff_of_true ?_ fun i' r' root' page' hst' prev hprev => ?_
    · intro root' j r' hroot' hr'
      obtain rfl : root' = root := Option.some.inj (hroot'.symm.trans hst.bound)
      simp only [setSlot_slots] at hr'
      split at hr'
      · obtain rfl := Option.some.inj hr'
        refine (VmRecord.matches_put_self rfl).2 fun crc hcrc => ⟨Option.some.inj hcrc, rfl⟩
      · rename_i hj
        exact (matches_put_slot hnum hr hr' hj).2 (hmatch root' j r' hroot' hr')
    · obtain ⟨rfl, rfl, rfl, rfl⟩ := hst.unique hst'
      exact ⟨hgo.1 prev hprev, .inr hgo.2⟩

theorem blobsMatch_step (hnum : h.Numbered) (hmatch : h.BlobsMatch) (call : ControllerCall) :
    (h.step call).2.BlobsMatch ↔ h.SamePage call := by
  cases call with
  | create spec =>
    refine iff_of_true ?_ trivial
    rw [step_create]
    rcases h.controller.createVmWith_cases spec with ⟨e, heq⟩ | ⟨i, -, heq⟩
    · rw [heq]
      exact hmatch
    · rw [heq]
      refine blobsMatch_setSlot hmatch fun root r hroot hr => ?_
      intro crc hcrc
      rw [← Option.some.inj hr] at hcrc
      cases hcrc
  | start w id => exact blobsMatch_start hnum hmatch w id
  | reset id => exact iff_of_true (blobsMatch_change hmatch (h.controller.change_resetVm id)) trivial
  | stop id => exact iff_of_true (blobsMatch_change hmatch (h.controller.change_stopVm id)) trivial
  | delete id => exact iff_of_true (blobsMatch_change hmatch (h.controller.change_deleteVm id)) trivial

/-- **When the staged blobs match the records**: in every state of a run, exactly if each start that replaces the blob of
a VM with a digest on record replaces it with a page of that CRC, and of the recorded length unless the sink lets the
start go on. -/
theorem blobs_match_iff (root : String) (sink : Bool) (disk : BlobFiles) (calls : List ControllerCall) :
    (∀ h ∈ states step (fresh root sink disk) calls, h.BlobsMatch) ↔ Along step SamePage (fresh root sink disk) calls := by
  refine states_iff_along (fun h call hnum => numbered_step hnum call)
    (fun h call hnum hmatch => blobsMatch_step hnum hmatch call) ?_ ?_ calls
  · intro i r hr
    cases hr
  · intro root' i r _ hr
    cases hr

/-- A VM is started, reset, and started again when its image has other content. -/
def driftCalls : List ControllerCall :=
  [.create imageVm, .start (.calm (oneByte 0xC3)) 0, .reset 0, .start (.calm (oneByte 0xAA)) 0]

/-- **The start that is refused for drift leaves the drifted page in place.** -/
theorem refused_start_leaves_page :
    (answers step (fresh "stage" false (fun _ => none)) driftCalls).getLast? =
      some (.error (.err (.invalid "boot blob: image content changed since last start"))) ∧
    ∃ h ∈ states step (fresh "stage" false (fun _ => none)) driftCalls, ¬ h.BlobsMatch := by
  refine ⟨by rfl, _, run_mem_states _ _, fun hmatch => ?_⟩
  have hslot : ((run step (fresh "stage" false (fun _ => none)) driftCalls).controller.state.slots ⟨0, Nat.zero_lt_succ 3⟩) =
      some ⟨0, .created, none, "drift", some "disk.img", none, none, some 1, some (Util.crc32c [0xC3])⟩ := by rfl
  have hdisk : (run step (fresh "stage" false (fun _ => none)) driftCalls).disk (stagePath "stage" 0) = some [0xAA] := by rfl
  obtain ⟨bytes, hbytes, hcrc, -⟩ := hmatch "stage" ⟨0, Nat.zero_lt_succ 3⟩ _ rfl hslot _ rfl
  rw [hdisk] at hbytes
  obtain rfl := Option.some.inj hbytes
  exact absurd hcrc (by decide)

end StageHost

end Celium
