import Celium.Controller
/-!
# ControllerHistory — drift detection over saves and loads

The digest on record is what a later start of a VM is checked against, and a save and a load carry it from one process
to the next.  To say which starts are starts of one VM, a ledger that the code does not have numbers the VMs in the order
of their creation, keeps the numbers with the table that is saved, and lists the CRC of every blob that a successful start
staged.
-/
namespace Celium

open Checked Controller Runs

/-! ## State files -/

/-- What a state file holds.  A table that was written reads back as it was. -/
inductive StateFile where
  | state (s : ControllerState)
  | malformed

abbrev StateFiles := String → Option StateFile

/-- The errors that the operating system gives while a state file is written, each with the paths in its text. -/
structure SaveFaults where
  mkdir : Option String
  create : Option String
  write : Option String
  fsync : Option String
  rename : Option String
deriving DecidableEq, Repr

/-- A step of a save, with the word in front of its error. -/
def saveStep (what : String) : Option String → CelResult Unit
  | none => .ok ()
  | some detail => .error (.io (what ++ " " ++ detail))

def SaveFaults.steps (f : SaveFaults) : CelResult Unit := do
  saveStep "mkdir" f.mkdir
  saveStep "create" f.create
  saveStep "write" f.write
  saveStep "fsync" f.fsync
  saveStep "rename" f.rename

namespace Controller

def save (c : Controller) (f : SaveFaults) (files : StateFiles) : CelResult Unit × StateFiles :=
  match c.path with
  | none => (.ok (), files)
  | some path =>
    match f.steps with
    | .error e => (.error e, files)
    | .ok () => (.ok (), Function.update files path (some (.state c.state)))

/-- The table that `Controller::load` starts from. -/
def loadState (files : StateFiles) (path : String) (fault : Option String) : CelResult ControllerState :=
  match files path with
  | none => .ok .fresh
  | some file =>
    match fault, file with
    | some e, _ => .error (.io ("read " ++ path ++ ": " ++ e))
    | none, .malformed => .error (.invalid "controller state: malformed json")
    | none, .state s =>
      if s.version ≠ stateVersion then .error (.invalid "controller state: version mismatch") else .ok s

end Controller

/-! ## The console -/

/-- The numbers of the VMs in the table and in the state files, the next number, and the CRC of each blob that a
successful start staged, under the number of its VM. -/
structure VmLedger where
  births : UInt32 → Nat
  saved : String → UInt32 → Nat
  next : Nat
  staged : List (Nat × UInt32)

/-- A controller with the files around it, and the ledger. -/
structure Console where
  host : StageHost
  files : StateFiles
  ledger : VmLedger

/-- After a load the new controller is bound to a stage root again. -/
inductive ConsoleCall where
  | call (call : ControllerCall)
  | save (faults : SaveFaults)
  | load (path : String) (fault : Option String) (root : String) (sink : Bool)

/-- The blob that a successful start of `id` staged, read from the disk after it. -/
def StageHost.stagedBlob (h : StageHost) (id : UInt32) (disk : BlobFiles) : Option (List UInt8) :=
  match h.controller.lookup id, h.controller.stageRoot with
  | .ok (_, r), some root => if r.imagePath.isSome then disk (stagePath root r.id) else none
  | _, _ => none

/-- The ledger after a call to the controller that was answered. -/
def VmLedger.record (l : VmLedger) (before after : StageHost) :
    ControllerCall → Checked.Outcome CelError ControllerReply → VmLedger
  | .create _, .ok (.id id) => { l with births := Function.update l.births id l.next, next := l.next + 1 }
  | .start _ id, .ok _ =>
    match before.stagedBlob id after.disk with
    | none => l
    | some bytes => { l with staged := (l.births id, Util.crc32c bytes) :: l.staged }
  | _, _ => l

namespace Console

/-- No VM and no state file yet. -/
def fresh (root : String) (sink : Bool) (disk : BlobFiles) : Console :=
  ⟨⟨.inMemory root sink, disk⟩, fun _ => none, ⟨fun _ => 0, fun _ _ => 0, 0, []⟩⟩

/-- A save and a load answer with nothing. -/
def step (s : Console) : ConsoleCall → Checked.Outcome CelError (Option ControllerReply) × Console
  | .call call =>
    let (answer, after) := s.host.step call
    (answer.map some, { s with host := after, ledger := s.ledger.record s.host after call answer })
  | .save faults =>
    match s.host.controller.save faults s.files with
    | (.error e, files) => (.error (.err e), { s with files })
    | (.ok (), files) =>
      (.ok none, { s with files, ledger := { s.ledger with saved :=
        match s.host.controller.path with
        | none => s.ledger.saved
        | some path => Function.update s.ledger.saved path s.ledger.births } })
  | .load path fault root sink =>
    match loadState s.files path fault with
    | .error e => (.error (.err e), s)
    | .ok state =>
      (.ok none, { s with
        host := { s.host with controller := ⟨state, some path, some root, sink⟩ }
        ledger := { s.ledger with births := s.ledger.saved path } })

end Console

/-! ## What the ledger says of a table -/

namespace VmLedger

/-- All blobs staged for one VM have one CRC. -/
def OneCrc (staged : List (Nat × UInt32)) : Prop :=
  ∀ vm crc crc', (vm, crc) ∈ staged → (vm, crc') ∈ staged → crc = crc'

/-- The VMs of a table have different numbers, below the next one, and a digest on record was staged. -/
structure Tracked (next : Nat) (staged : List (Nat × UInt32)) (slots : Fin maxVms → Option VmRecord)
    (births : UInt32 → Nat) : Prop where
  below : ∀ {i r}, slots i = some r → births (UInt32.ofNat i) < next
  distinct : ∀ {i j r r'}, slots i = some r → slots j = some r' →
    births (UInt32.ofNat i) = births (UInt32.ofNat j) → i = j
  digest : ∀ {i r crc}, slots i = some r → r.bootBlobCrc32c = some crc → (births (UInt32.ofNat i), crc) ∈ staged

/-- For a VM without a digest on record no blob was staged. -/
def Unstaged (staged : List (Nat × UInt32)) (slots : Fin maxVms → Option VmRecord) (births : UInt32 → Nat) : Prop :=
  ∀ i r, slots i = some r → r.bootBlobCrc32c = none → ∀ crc, (births (UInt32.ofNat i), crc) ∉ staged

variable {next next' : Nat} {staged staged' : List (Nat × UInt32)} {slots : Fin maxVms → Option VmRecord}
  {births : UInt32 → Nat} {i : Fin maxVms} {r r' : VmRecord}

theorem Tracked.mono (h : Tracked next staged slots births) (hnext : next ≤ next')
    (hstaged : ∀ e ∈ staged, e ∈ staged') : Tracked next' staged' slots births where
  below hr := Nat.lt_of_lt_of_le (h.below hr) hnext
  distinct := h.distinct
  digest hr hcrc := hstaged _ (h.digest hr hcrc)

theorem Tracked.remove (h : Tracked next staged slots births) (i : Fin maxVms) :
    Tracked next staged (Function.update slots i none) births := by
  have hold : ∀ {j r}, Function.update slots i none j = some r → slots j = some r := by
    intro j r hr
    rw [Function.update_apply] at hr
    split at hr
    · cases hr
    · exact hr
  exact ⟨fun hr => h.below (hold hr), fun hr hr' => h.distinct (hold hr) (hold hr'), fun hr => h.digest (hold hr)⟩

/-- A record whose digest was staged for the VM takes the place of the record it has. -/
theorem Tracked.move (h : Tracked next staged slots births) (hr : slots i = some r)
    (hdigest : ∀ crc, r'.bootBlobCrc32c = some crc → (births (UInt32.ofNat i), crc) ∈ staged) :
    Tracked next staged (Function.update slots i (some r')) births := by
  have hold : ∀ {j r₁}, Function.update slots i (some r') j = some r₁ → ∃ r₀, slots j = some r₀ := by
    intro j r₁ hj
    rw [Function.update_apply] at hj
    split at hj
    · rename_i hji
      exact ⟨r, hji ▸ hr⟩
    · exact ⟨r₁, hj⟩
  refine ⟨fun hj => h.below (hold hj).choose_spec,
    fun hj hk => h.distinct (hold hj).choose_spec (hold hk).choose_spec, ?_⟩
  intro j r₁ crc hj hcrc
  rw [Function.update_apply] at hj
  split at hj
  · rename_i hji
    rw [hji]
    exact hdigest crc (Option.some.inj hj ▸ hcrc)
  · exact h.digest hj hcrc

/-- A new VM gets the next number. -/
theorem Tracked.create (h : Tracked next staged slots births) (hcrc : r.bootBlobCrc32c = none) :
    Tracked (next + 1) staged (Function.update slots i (some r)) (Function.update births (UInt32.ofNat i) next) := by
  have hnew : Function.update births (UInt32.ofNat i) next (UInt32.ofNat i) = next := Function.update_self _ _ _
  have hold : ∀ {j r'}, j ≠ i → Function.update slots i (some r) j = some r' → slots j = some r' ∧
      Function.update births (UInt32.ofNat i) next (UInt32.ofNat j) = births (UInt32.ofNat j) := by
    intro j r' hj hr'
    rw [Function.update_of_ne hj] at hr'
    exact ⟨hr', Function.update_of_ne (fun heq => hj (ofNat_inj heq)) _ _⟩
  refine ⟨?_, ?_, ?_⟩
  · intro j r' hr'
    by_cases hj : j = i
    · rw [hj, hnew]
      exact Nat.lt_succ_self next
    · rw [(hold hj hr').2]
      exact Nat.lt_succ_of_lt (h.below (hold hj hr').1)
  · intro j k r₁ r₂ hj hk heq
    by_cases hji : j = i
    · by_cases hki : k = i
      · rw [hji, hki]
      · rw [hji, hnew, (hold hki hk).2] at heq
        exact absurd heq (Nat.ne_of_gt (h.below (hold hki hk).1))
    · by_cases hki : k = i
      · rw [hki, hnew, (hold hji hj).2] at heq
        exact absurd heq (Nat.ne_of_lt (h.below (hold hji hj).1))
      · rw [(hold hji hj).2, (hold hki hk).2] at heq
        exact h.distinct (hold hji hj).1 (hold hki hk).1 heq
  · intro j r' crc hr' hsome
    by_cases hj : j = i
    · rw [hj, Function.update_self] at hr'
      rw [← Option.some.inj hr', hcrc] at hsome
      cases hsome
    · rw [(hold hj hr').2]
      exact h.digest (hold hj hr').1 hsome

theorem Unstaged.create (h : Unstaged staged slots births) (hknown : ∀ e ∈ staged, e.1 < next) :
    Unstaged staged (Function.update slots i (some r)) (Function.update births (UInt32.ofNat i) next) := by
  intro j r' hr' hnone crc hmem
  by_cases hj : j = i
  · rw [hj, Function.update_self] at hmem
    exact Nat.lt_irrefl next (hknown _ hmem)
  · rw [Function.update_of_ne hj] at hr'
    rw [Function.update_of_ne (fun heq => hj (ofNat_inj heq))] at hmem
    exact h j r' hr' hnone crc hmem

theorem Unstaged.remove (h : Unstaged staged slots births) (i : Fin maxVms) :
    Unstaged staged (Function.update slots i none) births := by
  intro j r hr
  rw [Function.update_apply] at hr
  split at hr
  · cases hr
  · exact h j r hr

theorem Unstaged.move (h : Unstaged staged slots births)
    (hnone : r'.bootBlobCrc32c = none → ∀ crc, (births (UInt32.ofNat i), crc) ∉ staged) :
    Unstaged staged (Function.update slots i (some r')) births := by
  intro j r₁ hj hcrc
  rw [Function.update_apply] at hj
  split at hj
  · rename_i hji
    rw [hji]
    exact hnone (Option.some.inj hj ▸ hcrc)
  · exact h j r₁ hj hcrc

end VmLedger

namespace Console

open VmLedger

/-- What every call keeps, where no load brings back an older record of a VM. -/
structure Traced (s : Console) : Prop where
  one : OneCrc s.ledger.staged
  known : ∀ e ∈ s.ledger.staged, e.1 < s.ledger.next
  live : Tracked s.ledger.next s.ledger.staged s.host.controller.state.slots s.ledger.births
  unstaged : Unstaged s.ledger.staged s.host.controller.state.slots s.ledger.births
  saved : ∀ path state, s.files path = some (.state state) →
    Tracked s.ledger.next s.ledger.staged state.slots (s.ledger.saved path)

/-- A load gives no VM back without its digest: where a blob was staged for a VM in the file, the file has the digest. -/
def KeepsDigests (s : Console) : ConsoleCall → Prop
  | .load path fault _ _ => ∀ state, loadState s.files path fault = .ok state →
      Unstaged s.ledger.staged state.slots (s.ledger.saved path)
  | _ => True

variable {s : Console}

theorem traced_fresh (root : String) (sink : Bool) (disk : BlobFiles) : (fresh root sink disk).Traced where
  one := by
    intro vm crc crc' h
    cases h
  known := by
    intro e h
    cases h
  live := ⟨fun h => (by cases h), fun h => (by cases h), fun h => (by cases h)⟩
  unstaged := by
    intro i r h
    cases h
  saved := by
    intro path state h
    cases h

theorem loadState_ok {files : StateFiles} {path : String} {fault : Option String} {state : ControllerState}
    (h : loadState files path fault = .ok state) : state = .fresh ∨ files path = some (.state state) := by
  unfold loadState at h
  split at h
  · exact .inl (Except.ok.inj h).symm
  · rename_i file hfile
    split at h
    · cases h
    · cases h
    · split at h
      · cases h
      · exact .inr (Except.ok.inj h ▸ hfile)

theorem traced_load (h : s.Traced) {path : String} {fault : Option String} {root : String} {sink : Bool}
    (hkeep : s.KeepsDigests (.load path fault root sink)) : (s.step (.load path fault root sink)).2.Traced := by
  simp only [step]
  split
  · exact h
  · rename_i state hstate
    refine ⟨h.one, h.known, ?_, hkeep state hstate, h.saved⟩
    rcases loadState_ok hstate with rfl | hfile
    · exact ⟨fun h => (by cases h), fun h => (by cases h), fun h => (by cases h)⟩
    · exact h.saved path state hfile

theorem traced_save (h : s.Traced) (faults : SaveFaults) : (s.step (.save faults)).2.Traced := by
  simp only [step, save]
  cases hpath : s.host.controller.path with
  | none => exact ⟨h.one, h.known, h.live, h.unstaged, h.saved⟩
  | some path =>
    simp only
    cases faults.steps with
    | error e => exact ⟨h.one, h.known, h.live, h.unstaged, h.saved⟩
    | ok u =>
      refine ⟨h.one, h.known, h.live, h.unstaged, fun path' state hfile => ?_⟩
      simp only [Function.update_apply] at hfile ⊢
      split at hfile
      · obtain rfl := StateFile.state.inj (Option.some.inj hfile)
        rename_i heq
        rw [if_pos heq]
        exact h.live
      · rename_i hne
        rw [if_neg hne]
        exact h.saved path' state hfile

/-- Where the ledger stays as it is, a change of the table that moves or removes a VM is traced. -/
theorem traced_change (h : s.Traced) {c : Controller} {disk : BlobFiles} (hc : s.host.controller.Change c) :
    Console.Traced { s with host := ⟨c, disk⟩ } := by
  cases hc with
  | stay => exact ⟨h.one, h.known, h.live, h.unstaged, h.saved⟩
  | move hr hid hlen hcrc =>
    refine ⟨h.one, h.known, h.live.move hr fun crc hsome => ?_, h.unstaged.move fun hnone => ?_, h.saved⟩
    · exact h.live.digest hr (hcrc ▸ hsome)
    · exact h.unstaged _ _ hr (hcrc ▸ hnone)
  | remove i => exact ⟨h.one, h.known, h.live.remove i, h.unstaged.remove i, h.saved⟩

theorem traced_create (h : s.Traced) (spec : VmSpec) : (s.step (.call (.create spec))).2.Traced := by
  rcases s.host.controller.createVmWith_cases spec with ⟨e, heq⟩ | ⟨i, hfree, heq⟩
  · simp only [step, StageHost.step, StageHost.withReply, heq]
    exact traced_change h .stay
  · simp only [step, StageHost.step, StageHost.withReply, heq]
    exact ⟨h.one, fun e he => Nat.lt_succ_of_lt (h.known e he), h.live.create rfl, h.unstaged.create h.known,
      fun path state hfile => (h.saved path state hfile).mono (Nat.le_succ _) fun e he => he⟩

/-- The ledger once a blob is staged for the VM of slot `i`. -/
theorem traced_staged (h : s.Traced) {i : Fin maxVms} {r r' : VmRecord} {crc : UInt32} {disk : BlobFiles}
    (hr : s.host.controller.state.slots i = some r) (hr' : r'.bootBlobCrc32c = some crc)
    (hsame : ∀ prev, r.bootBlobCrc32c = some prev → crc = prev) :
    Console.Traced { s with
      host := ⟨s.host.controller.setSlot i (some r'), disk⟩
      ledger := { s.ledger with staged := (s.ledger.births (UInt32.ofNat i), crc) :: s.ledger.staged } } := by
  have hmono : ∀ e ∈ s.ledger.staged, e ∈ (s.ledger.births (UInt32.ofNat i), crc) :: s.ledger.staged :=
    fun e he => List.mem_cons_of_mem _ he
  -- Whatever was staged for this VM is on record, and the start was checked against it.
  have hown : ∀ crc', (s.ledger.births (UInt32.ofNat i), crc') ∈ s.ledger.staged → crc' = crc := by
    intro crc' hmem
    cases hprev : r.bootBlobCrc32c with
    | none => exact absurd hmem (h.unstaged i r hr hprev crc')
    | some prev =>
      rw [hsame prev hprev]
      exact h.one _ _ _ hmem (h.live.digest hr hprev)
  refine ⟨?_, ?_, ?_, ?_, fun path state hfile => (h.saved path state hfile).mono (Nat.le_refl _) hmono⟩
  · intro vm crc₁ crc₂ h₁ h₂
    simp only [List.mem_cons, Prod.mk.injEq] at h₁ h₂
    rcases h₁ with ⟨rfl, rfl⟩ | h₁
    · rcases h₂ with ⟨-, rfl⟩ | h₂
      · rfl
      · exact (hown crc₂ h₂).symm
    · rcases h₂ with ⟨rfl, rfl⟩ | h₂
      · exact hown crc₁ h₁
      · exact h.one vm crc₁ crc₂ h₁ h₂
  · intro e he
    rcases List.mem_cons.1 he with rfl | he
    · exact h.live.below hr
    · exact h.known e he
  · refine (h.live.mono (Nat.le_refl _) hmono).move hr fun crc' hcrc' => ?_
    rw [← Option.some.inj (hr'.symm.trans hcrc')]
    exact List.mem_cons_self
  · intro j r₁ hj hnone crc' hmem
    simp only [setSlot_slots] at hj
    split at hj
    · rw [← Option.some.inj hj, hr'] at hnone
      cases hnone
    · rename_i hji
      rcases List.mem_cons.1 hmem with heq | hmem
      · exact hji (h.live.distinct hj hr (Prod.mk.inj heq).1)
      · exact h.unstaged j r₁ hj hnone crc' hmem

theorem stagedBlob_none {h : StageHost} {id : UInt32} {i : Fin maxVms} {r : VmRecord} {disk : BlobFiles}
    (hfound : h.controller.lookup id = .ok (i, r)) (hplain : r.imagePath = none ∨ h.controller.stageRoot = none) :
    h.stagedBlob id disk = none := by
  unfold StageHost.stagedBlob
  rw [hfound]
  rcases hplain with himg | hroot
  · cases h.controller.stageRoot with
    | none => rfl
    | some root => simp [himg]
  · rw [hroot]

theorem stagedBlob_put {h : StageHost} {w : Surroundings} {id : UInt32} {i : Fin maxVms} {r : VmRecord} {root : String}
    {page : List UInt8} (hst : h.controller.Stages w id i r root page) (disk : BlobFiles) :
    h.stagedBlob id (put disk root r page) = some page := by
  unfold StageHost.stagedBlob
  rw [hst.found, hst.bound]
  simp only [hst.image, if_true]
  exact Function.update_self _ _ _

theorem traced_start (h : s.Traced) (w : Surroundings) (id : UInt32) : (s.step (.call (.start w id))).2.Traced := by
  rcases s.host.controller.startVm_cases w s.host.disk id with ⟨e, heq, -⟩ | ⟨i, r, hfound, hplain, heq⟩ |
    ⟨i, r, root, page, hst, ⟨e, -, heq⟩ | ⟨hgo, heq⟩⟩
  · simp only [step, StageHost.step, heq]
    exact traced_change h .stay
  · simp only [step, StageHost.step, heq, VmLedger.record, Except.map, stagedBlob_none hfound hplain]
    exact traced_change h (.move (lookup_ok.1 hfound).2 rfl rfl rfl)
  · simp only [step, StageHost.step, heq]
    exact traced_change h .stay
  · obtain ⟨hid, hr⟩ := lookup_ok.1 hst.found
    have hofNat : UInt32.ofNat i = id := by rw [← hid, UInt32.ofNat_toNat]
    simp only [step, StageHost.step, heq, VmLedger.record, Except.map, stagedBlob_put hst]
    rw [← hofNat]
    exact traced_staged h hr rfl hgo.1

theorem traced_step (h : s.Traced) (call : ConsoleCall) (hkeep : s.KeepsDigests call) : (s.step call).2.Traced := by
  cases call with
  | load path fault root sink => exact traced_load h hkeep
  | save faults => exact traced_save h faults
  | call call =>
    cases call with
    | create spec => exact traced_create h spec
    | start w id => exact traced_start h w id
    | reset id => exact traced_change h (s.host.controller.change_resetVm id)
    | stop id => exact traced_change h (s.host.controller.change_stopVm id)
    | delete id => exact traced_change h (s.host.controller.change_deleteVm id)

/-- A start that gives an error leaves the table as it was. -/
theorem startVm_error_state (c : Controller) (w : Surroundings) (disk : BlobFiles) (id : UInt32) {e : Fault CelError}
    (h : (c.startVm w disk id).1 = .error e) : (c.startVm w disk id).2.1.state = c.state := by
  rcases c.startVm_cases w disk id with ⟨e, heq, -⟩ | ⟨i, r, -, -, heq⟩ | ⟨i, r, root, page, -, ⟨e, -, heq⟩ | ⟨-, heq⟩⟩
  · rw [heq]
  · rw [heq] at h
    cases h
  · rw [heq]
  · rw [heq] at h
    cases h

/-- **The starts of one VM stage one CRC.**  In every run whose loads give no VM back without its digest, all blobs that
successful starts of one VM staged have the same CRC; and a start that gives an error leaves the table as it was. -/
theorem starts_stage_one_crc {root : String} {sink : Bool} {disk : BlobFiles} {calls : List ConsoleCall}
    (hkeep : Along step KeepsDigests (fresh root sink disk) calls) :
    (∀ s ∈ states step (fresh root sink disk) calls, OneCrc s.ledger.staged) ∧
    ∀ (c : Controller) (w : Surroundings) (disk : BlobFiles) (id : UInt32) (e : Fault CelError),
      (c.startVm w disk id).1 = .error e → (c.startVm w disk id).2.1.state = c.state := by
  refine ⟨fun s hs => ?_, fun c w disk id e h => startVm_error_state c w disk id h⟩
  have htraced : s.Traced :=
    of_along (I := Traced) (fun s call h hkeep => traced_step h call hkeep) (traced_fresh root sink disk) hkeep s hs
  exact htraced.one

/-- The new controller of a process: the state file read, no sink. -/
def reload : ConsoleCall := .load "state.json" none "stage" false

/-- A VM is started and reset, and the table is saved; the next process meets a changed image, and then the old one. -/
def savedCalls : List ConsoleCall :=
  [reload, .call (.create StageHost.imageVm), .call (.start (.calm (StageHost.oneByte 0xC3)) 0), .call (.reset 0),
    .save ⟨none, none, none, none, none⟩, reload, .call (.start (.calm (StageHost.oneByte 0xAA)) 0),
    .call (.start (.calm (StageHost.oneByte 0xC3)) 0)]

theorem savedCalls_one_crc :
    (run step (fresh "stage" false (fun _ => none)) savedCalls).ledger.staged =
      [(0, Util.crc32c [0xC3]), (0, Util.crc32c [0xC3])] ∧
    ∀ s ∈ states step (fresh "stage" false (fun _ => none)) savedCalls, OneCrc s.ledger.staged := by
  refine ⟨by rfl, (starts_stage_one_crc ?_).1⟩
  refine ⟨fun state hstate => ?_, trivial, trivial, trivial, trivial, fun state hstate => ?_, trivial, trivial, trivial⟩
  · intro i r _ _ crc hmem
    cases hmem
  · obtain rfl := Except.ok.inj hstate
    intro i r hr hnone
    obtain ⟨_ | n, hi⟩ := i
    · obtain rfl := Option.some.inj hr
      cases hnone
    · cases hr

/-- A VM is saved when it was never started; its start is not saved, and the next process meets a changed image. -/
def lostCalls : List ConsoleCall :=
  [reload, .call (.create StageHost.imageVm), .save ⟨none, none, none, none, none⟩,
    .call (.start (.calm (StageHost.oneByte 0xC3)) 0), reload, .call (.start (.calm (StageHost.oneByte 0xAA)) 0)]

/-- **A start that is not saved is forgotten by a load**, and the next one stages another page. -/
theorem unsaved_start_forgotten :
    ∃ s ∈ states step (fresh "stage" false (fun _ => none)) lostCalls, ¬ OneCrc s.ledger.staged := by
  refine ⟨_, run_mem_states _ _, fun hone => ?_⟩
  have hstaged : (run step (fresh "stage" false (fun _ => none)) lostCalls).ledger.staged =
      [(0, Util.crc32c [0xAA]), (0, Util.crc32c [0xC3])] := by rfl
  rw [hstaged] at hone
  exact absurd (hone 0 (Util.crc32c [0xAA]) (Util.crc32c [0xC3]) (by decide) (by decide)) (by decide)

end Console

end Celium
