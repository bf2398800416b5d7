import Celium.VmCreate
/-!
# VmExit — how a started VM ends

`start_vm`, from `vmptrld` over `vmlaunch` to the exit dispatcher, which comes back to it by a `longjmp`.  The dispatcher
finds the VM through the slot that `sched::set_active` fills, and reads the exit reason.  What the processor answers is an
input.  The tag of the `longjmp` has bit 32 set, so `setjmp` does not seem to return for the first time, and is not looked
at otherwise.
-/
namespace Celium

/-- What a `vmlaunch` comes to. -/
inductive VmEntry where
  /-- It falls through, with these flags. -/
  | fell (rflags : UInt64)
  /-- The guest exits, and `vmread` of `EXIT_REASON` answers this. -/
  | exited (raw : HyperResult UInt64)
deriving DecidableEq

/-- `vmlaunch`, when it falls through. -/
def vmlaunch (rflags : UInt64) : HyperError :=
  if rflags &&& 1 ≠ 0 then .hardware "vmlaunch: VMfailInvalid"
  else if rflags &&& (1 : UInt64) <<< 6 ≠ 0 then .hardware "vmlaunch: VMfailValid"
  else .internal "vmlaunch returned without entering guest"

inductive ExitKind where
  | hlt | crAccess | eptViolation
  | other (reason : UInt32)
deriving DecidableEq, Repr

def exitReasonCrAccess : UInt32 := 28
def exitReasonEptViolation : UInt32 := 48

/-- `raw & 0xFFFF`. -/
def basicReason (raw : UInt64) : UInt32 := (raw &&& 0xFFFF).toUInt32

/-- Bit 31: the entry itself failed. -/
def EntryFailed (raw : UInt64) : Prop := raw &&& (1 : UInt64) <<< 31 ≠ 0

instance (raw : UInt64) : Decidable (EntryFailed raw) := inferInstanceAs (Decidable (_ ≠ _))

def readExit (raw : HyperResult UInt64) : HyperResult ExitKind :=
  match raw with
  | .error e => .error e
  | .ok raw =>
    if EntryFailed raw then .error (.hardware "vm-exit on entry failure")
    else if basicReason raw = exitReasonHlt.toUInt32 then .ok .hlt
    else if basicReason raw = exitReasonCrAccess then .ok .crAccess
    else if basicReason raw = exitReasonEptViolation then .ok .eptViolation
    else .ok (.other (basicReason raw))

/-- The VMs, and the slot of the active one. -/
structure VmRuntime where
  manager : Manager
  active : Option (Fin maxVms)

namespace VmRuntime

variable (rt : VmRuntime)

/-- `sched::dispatch_exit`. -/
def dispatchExit (reason : UInt32) (outcome : ExitOutcome) : VmRuntime :=
  match rt.active.bind (fun i => (rt.manager.registry i).map (fun vm => (i, vm))) with
  | none => rt
  | some (i, vm) => { rt with manager := rt.manager.setVm i (vm.onExit reason outcome) }

def vmExitDispatch (raw : HyperResult UInt64) : VmRuntime :=
  match readExit raw with
  | .ok .hlt => rt.dispatchExit exitReasonHlt.toUInt32 .halted
  | .ok .crAccess => rt.dispatchExit exitReasonCrAccess .faulted
  | .ok .eptViolation => rt.dispatchExit exitReasonEptViolation .faulted
  | .ok (.other reason) => rt.dispatchExit reason .faulted
  -- Nothing is recorded.
  | .error _ => rt

/-- `start_vm`; `vmptrld` are the flags after it. -/
def startVm (vmptrld : UInt64) (entry : VmEntry) (id : UInt32) : HyperResult Unit × VmRuntime :=
  match rt.manager.lookup id with
  | .error e => (.error e, rt)
  | .ok (i, vm) =>
    match checkVmxStatus vmptrld with
    | .error e => (.error e, rt)
    | .ok () =>
      match vm.markRunning with
      | (.error e, _) => (.error e, { rt with active := some i })
      | (.ok (), vm) =>
        let rt : VmRuntime := ⟨rt.manager.setVm i vm, some i⟩
        match entry with
        | .exited raw => (.ok (), rt.vmExitDispatch raw)
        | .fell rflags =>
          match vmlaunch rflags with
          | .internal _ | .hardware _ => (.ok (), { rt with manager := rt.manager.setVm i vm.stop.2 })
          | e => (.error e, rt)

end VmRuntime

/-! ## One launch -/

/-- The launch as the table of VMs sees it. -/
def VmEntry.launch : VmEntry → Launch
  | .fell _ => .failed
  | .exited (.error _) => .unreadable
  | .exited (.ok raw) => if EntryFailed raw then .unreadable else .exit (raw &&& 0xFFFF).toUInt16

/-- Where the guest exits, the reason can be read, and it is not that the entry failed. -/
def VmEntry.Readable (entry : VmEntry) : Prop := ∀ raw, entry = .exited raw → ∃ r, raw = .ok r ∧ ¬ EntryFailed r

theorem basicReason_eq (raw : UInt64) : basicReason raw = (raw &&& 0xFFFF).toUInt16.toUInt32 := by
  apply UInt32.toNat_inj.1
  have hsmall : (raw &&& 0xFFFF).toNat < 2 ^ 16 := by
    rw [UInt64.toNat_and]
    exact Nat.lt_of_le_of_lt Nat.and_le_right (by decide)
  simp only [basicReason, UInt64.toNat_toUInt32, UInt16.toNat_toUInt32, UInt64.toNat_toUInt16]
  omega

theorem basicReason_eq_hlt (raw : UInt64) :
    basicReason raw = exitReasonHlt.toUInt32 ↔ (raw &&& 0xFFFF).toUInt16 = exitReasonHlt := by
  rw [basicReason_eq, ← UInt32.toNat_inj, UInt16.toNat_toUInt32, UInt16.toNat_toUInt32, UInt16.toNat_inj]

theorem vmlaunch_deferred (rflags : UInt64) :
    (∃ msg, vmlaunch rflags = .hardware msg) ∨ ∃ msg, vmlaunch rflags = .internal msg := by
  unfold vmlaunch
  split
  · exact .inl ⟨_, rfl⟩
  · split
    · exact .inl ⟨_, rfl⟩
    · exact .inr ⟨_, rfl⟩

theorem Manager.setVm_setVm (m : Manager) (i : Fin maxVms) (vm vm' : Vm) : (m.setVm i vm).setVm i vm' = m.setVm i vm' := by
  simp only [Manager.setVm, Function.update_idem]

namespace VmRuntime

variable {rt : VmRuntime} {vmptrld : UInt64} {entry : VmEntry} {id : UInt32} {i : Fin maxVms} {vm : Vm}

theorem dispatchExit_active (m : Manager) (vm : Vm) (reason : UInt32) (outcome : ExitOutcome) :
    (⟨m.setVm i vm, some i⟩ : VmRuntime).dispatchExit reason outcome = ⟨m.setVm i (vm.onExit reason outcome), some i⟩ := by
  have hthere : (m.setVm i vm).registry i = some vm := Function.update_self i _ _
  simp only [dispatchExit, Option.bind_some, hthere, Option.map_some, Manager.setVm_setVm]

/-- The four branches of a reason that can be read are one. -/
theorem vmExitDispatch_readable {raw : UInt64} (h : ¬ EntryFailed raw) : rt.vmExitDispatch (.ok raw) =
    rt.dispatchExit (basicReason raw) (if basicReason raw = exitReasonHlt.toUInt32 then .halted else .faulted) := by
  unfold vmExitDispatch readExit
  simp only [if_neg h]
  by_cases hhlt : basicReason raw = exitReasonHlt.toUInt32
  · simp only [hhlt, if_true]
  · by_cases hcr : basicReason raw = exitReasonCrAccess
    · simp only [if_neg hhlt, if_pos hcr]
      rw [hcr]
    · by_cases hept : basicReason raw = exitReasonEptViolation
      · simp only [if_neg hhlt, if_neg hcr, if_pos hept]
        rw [hept]
      · simp only [if_neg hhlt, if_neg hcr, if_neg hept]

theorem vmExitDispatch_failed {raw : UInt64} (h : EntryFailed raw) : rt.vmExitDispatch (.ok raw) = rt := by
  unfold vmExitDispatch readExit
  simp only [if_pos h]

/-- **The dispatcher does to the active VM what the launch says.** -/
theorem vmExitDispatch_active (m : Manager) (vm : Vm) (raw : HyperResult UInt64) :
    (⟨m.setVm i vm, some i⟩ : VmRuntime).vmExitDispatch raw =
      ⟨m.setVm i ((VmEntry.exited raw).launch.finish vm), some i⟩ := by
  cases raw with
  | error e => rfl
  | ok raw =>
    by_cases hfail : EntryFailed raw
    · rw [vmExitDispatch_failed hfail, VmEntry.launch, if_pos hfail]
      rfl
    · rw [vmExitDispatch_readable hfail, dispatchExit_active, VmEntry.launch, if_neg hfail, Launch.finish, ← basicReason_eq]
      simp only [basicReason_eq_hlt]

/-- A VM that is entered is left as its launch says. -/
theorem startVm_entered {vm' : Vm} (hvm : rt.manager.lookup id = .ok (i, vm)) (hload : checkVmxStatus vmptrld = .ok ())
    (hrunning : vm.markRunning = (.ok (), vm')) :
    rt.startVm vmptrld entry id = (.ok (), ⟨rt.manager.setVm i (entry.launch.finish vm'), some i⟩) := by
  simp only [startVm, hvm, hload, hrunning]
  cases entry with
  | exited raw => simp only [vmExitDispatch_active]
  | fell rflags =>
    rcases vmlaunch_deferred rflags with ⟨msg, h⟩ | ⟨msg, h⟩
    · simp only [h, Manager.setVm_setVm]
      rfl
    · simp only [h, Manager.setVm_setVm]
      rfl

/-- **The table as the manager leaves it**, with the hardware that fails as these instructions do. -/
theorem startVm_eq (rt : VmRuntime) (vmptrld : UInt64) (entry : VmEntry) (id : UInt32) {hw : Hardware}
    (hactive : hw.setActive = match checkVmxStatus vmptrld with | .error e => some e | .ok () => none)
    (hlaunch : hw.launch = entry.launch) :
    rt.manager.startVm hw id = ((rt.startVm vmptrld entry id).1, (rt.startVm vmptrld entry id).2.manager) := by
  unfold Manager.startVm
  cases hvm : rt.manager.lookup id with
  | error e => simp only [startVm, hvm]
  | ok p =>
    obtain ⟨i, vm⟩ := p
    simp only [hactive, hlaunch]
    cases hload : checkVmxStatus vmptrld with
    | error e => simp only [startVm, hvm, hload]
    | ok u =>
      rcases hrunning : vm.markRunning with ⟨e | u, vm'⟩
      · simp only [startVm, hvm, hload, hrunning]
      · rw [startVm_entered hvm hload hrunning]

/-! ## The end of a started VM -/

/-- The VM that was in slot `i` is at its end, halted only by a `HLT`, with the reason of its exit if there was one, and
can be deleted. -/
structure Ended (entry : VmEntry) (id : UInt32) (i : Fin maxVms) (vm vm' : Vm) (rt' : VmRuntime) : Prop where
  there : rt'.manager.lookup id = .ok (i, vm')
  terminal : vm'.state.isTerminal = true
  halted : vm'.state = .halted → ∃ raw, entry = .exited (.ok raw) ∧ basicReason raw = exitReasonHlt.toUInt32
  reason : ∀ raw, entry = .exited (.ok raw) → vm'.lastExit = some (basicReason raw)
  none : ∀ rflags, entry = .fell rflags → vm'.lastExit = vm.lastExit
  deletable : rt'.manager.deleted i = false → (rt'.manager.deleteVm id).1 = .ok i

theorem startVm_created (hvm : rt.manager.lookup id = .ok (i, vm)) (hcreated : vm.state = .created) :
    (∃ e, checkVmxStatus vmptrld = .error e ∧ rt.startVm vmptrld entry id = (.error e, rt)) ∨
      checkVmxStatus vmptrld = .ok () ∧ rt.startVm vmptrld entry id =
        (.ok (), ⟨rt.manager.setVm i (entry.launch.finish { vm with state := .running }), some i⟩) := by
  have hrunning : vm.markRunning = (.ok (), { vm with state := .running }) := by
    rw [Vm.markRunning, Vm.transition, if_pos hcreated]
  cases hload : checkVmxStatus vmptrld with
  | error e =>
    refine .inl ⟨e, rfl, ?_⟩
    simp only [startVm, hvm, hload]
  | ok u => exact .inr ⟨rfl, startVm_entered hvm hload hrunning⟩

/-- What a launch whose reason can be read, or that failed, makes of a running VM. -/
theorem finish_readable (hreadable : entry.Readable) (vm : Vm) :
    (entry.launch.finish { vm with state := .running }).state.isTerminal = true ∧
      ((entry.launch.finish { vm with state := .running }).state = .halted →
        ∃ raw, entry = .exited (.ok raw) ∧ basicReason raw = exitReasonHlt.toUInt32) ∧
      (∀ raw, entry = .exited (.ok raw) →
        (entry.launch.finish { vm with state := .running }).lastExit = some (basicReason raw)) ∧
      ∀ rflags, entry = .fell rflags → (entry.launch.finish { vm with state := .running }).lastExit = vm.lastExit := by
  cases entry with
  | fell rflags =>
    have hstop : (VmEntry.fell rflags).launch.finish { vm with state := .running } = { vm with state := .stopped } := rfl
    rw [hstop]
    exact ⟨rfl, fun h => (by cases h), fun _ h => (by cases h), fun _ _ => rfl⟩
  | exited raw =>
    obtain ⟨r, rfl, hfail⟩ := hreadable raw rfl
    have hexit : (VmEntry.exited (.ok r)).launch.finish { vm with state := .running } =
        { vm with state := if basicReason r = exitReasonHlt.toUInt32 then .halted else .faulted,
                  lastExitReason := basicReason r } := by
      rw [VmEntry.launch, if_neg hfail, Launch.finish, ← basicReason_eq]
      simp only [← basicReason_eq_hlt, Vm.onExit, Vm.transition, if_true]
      by_cases hhlt : basicReason r = exitReasonHlt.toUInt32
      · simp only [if_pos hhlt]
      · simp only [if_neg hhlt]
    have hsmall : basicReason r ≠ 0xFFFFFFFF := by
      rw [basicReason_eq]
      intro heq
      have hlt := (r &&& 0xFFFF).toUInt16.toNat_lt
      have hnat := congrArg UInt32.toNat heq
      rw [UInt16.toNat_toUInt32] at hnat
      change _ = 4294967295 at hnat
      omega
    rw [hexit]
    refine ⟨?_, fun h => ?_, fun raw hraw => ?_, fun _ h => (by cases h)⟩
    · dsimp only
      split
      · rfl
      · rfl
    · dsimp only at h
      split at h
      · exact ⟨r, rfl, ‹_›⟩
      · cases h
    · cases hraw
      rw [Vm.lastExit, if_neg hsmall]

/-- **A started VM ends exactly when its exit can be told**: `vmlaunch` falls through, or the reason can be read and is not
that the entry failed. -/
theorem start_ends_iff (rt : VmRuntime) (vmptrld : UInt64) (entry : VmEntry) {id : UInt32} {i : Fin maxVms} {vm : Vm}
    (hvm : rt.manager.lookup id = .ok (i, vm)) (hcreated : vm.state = .created) :
    ((rt.startVm vmptrld entry id).1 = .ok () → ∃ vm', Ended entry id i vm vm' (rt.startVm vmptrld entry id).2) ↔
      ¬ FlagsClear vmptrld ∨ entry.Readable := by
  obtain ⟨hid, -⟩ := rt.manager.lookup_ok.1 hvm
  rcases @startVm_created rt vmptrld entry id i vm hvm hcreated with ⟨e, he, hstart⟩ | ⟨hload, hstart⟩
  · rw [hstart]
    refine iff_of_true (fun h => (by cases h)) (.inl fun hclear => ?_)
    cases he.symm.trans (checkVmxStatus_ok.2 hclear)
  · have hthere : ∀ vm', (rt.manager.setVm i vm').lookup id = .ok (i, vm') := fun vm' =>
      (rt.manager.setVm i vm').lookup_ok.2 ⟨hid, Function.update_self i _ _⟩
    rw [hstart, or_iff_right (not_not.2 (checkVmxStatus_ok.1 hload))]
    constructor
    · intro h raw hexit
      obtain ⟨vm', hended⟩ := h rfl
      obtain rfl : vm' = entry.launch.finish { vm with state := .running } := by
        have hsame := hended.there.symm.trans (hthere _)
        cases hsame
        rfl
      have hterminal := hended.terminal
      rw [hexit] at hterminal
      cases raw with
      | error e => cases hterminal
      | ok r =>
        refine ⟨r, rfl, fun hfail => ?_⟩
        rw [VmEntry.launch, if_pos hfail] at hterminal
        cases hterminal
    · intro hreadable _
      obtain ⟨hterminal, hhalted, hreason, hnone⟩ := finish_readable hreadable vm
      refine ⟨_, hthere _, hterminal, hhalted, hreason, hnone, fun hdeleted => ?_⟩
      change (rt.manager.setVm i _).deleted i = false at hdeleted
      simp only [Manager.deleteVm, hthere, hterminal, hdeleted, Bool.not_true, Bool.false_eq_true, if_false]

/-- A VM that was just created. -/
def oneVm : VmRuntime := ⟨Manager.init.allocate ⟨0, by decide⟩ ⟨[0xF4], 0x1000, 0⟩, none⟩

/-- It halts. -/
theorem start_ends_hlt : ((oneVm.startVm 0 (.exited (.ok 12)) 0).1 = .ok () →
      ∃ vm', Ended (.exited (.ok 12)) 0 ⟨0, by decide⟩ (Vm.new ⟨[0xF4], 0x1000, 0⟩) vm'
        (oneVm.startVm 0 (.exited (.ok 12)) 0).2) ↔
    ¬ FlagsClear 0 ∨ (VmEntry.exited (.ok 12)).Readable :=
  start_ends_iff oneVm 0 (.exited (.ok 12)) rfl rfl

/-- **A VM whose guest state the processor refuses stays running**: reason 33 with the bit of a failed entry. -/
theorem refused_entry_runs : ¬ ∀ (rt : VmRuntime) (vmptrld : UInt64) (entry : VmEntry) (id : UInt32) (i : Fin maxVms) (vm : Vm),
    rt.manager.lookup id = .ok (i, vm) → vm.state = .created → (rt.startVm vmptrld entry id).1 = .ok () →
      ∃ vm', Ended entry id i vm vm' (rt.startVm vmptrld entry id).2 := by
  intro hall
  have hok : (oneVm.startVm 0 (.exited (.ok 0x80000021)) 0).1 = .ok () := by decide
  obtain ⟨vm', hended⟩ := hall oneVm 0 (.exited (.ok 0x80000021)) 0 _ _ rfl rfl hok
  have hrunning : ((oneVm.startVm 0 (.exited (.ok 0x80000021)) 0).2.manager.lookup 0).toOption.map (·.2.state) =
      some .running := by decide
  rw [hended.there] at hrunning
  have hstate : vm'.state = .running := Option.some.inj hrunning
  have hterminal := hended.terminal
  rw [hstate] at hterminal
  cases hterminal

end VmRuntime

end Celium
