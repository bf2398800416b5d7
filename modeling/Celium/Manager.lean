import Celium.Boot
import Celium.VmOp
import Mathlib.Data.Fintype.Basic
/-!
# Manager — the kernel's table of VMs

`celhyper::vm` and `celhyper::manager`.  A slot is taken once: it is marked in `occupied` before the hardware is set up,
holds its VM from then on, and is only hidden by a delete.  What the hardware does is an input: whether the set-up of a
VM fails, and how a launch ends.  In place of the addresses of its VMCS and its page tables a VM has what was put there.
-/
namespace Celium

/-- `HYPER_MAX_VMS` of the host and `MAX_VMS` of the kernel. -/
def maxVms : Nat := 4

/-- What a VM is created with: the blob at `guestLoadGpa` and the entry state. -/
structure CreateVmRequest where
  blob : List UInt8
  guestRip : Nat
  guestRsp : Nat
deriving DecidableEq, Repr

def CreateVmRequest.fromBootImage (image : BootImage) : CreateVmRequest :=
  ⟨image.blob, image.entryRip, image.entryRsp⟩

/-! ## One VM -/

structure Vm where
  state : VmState
  /-- All ones until the first exit. -/
  lastExitReason : UInt32
  guest : CreateVmRequest
deriving DecidableEq, Repr

inductive ExitOutcome where
  | halted | faulted
deriving DecidableEq, Repr

namespace Vm

def new (guest : CreateVmRequest) : Vm := ⟨.created, 0xFFFFFFFF, guest⟩

variable (vm : Vm)

def lastExit : Option UInt32 := if vm.lastExitReason = 0xFFFFFFFF then none else some vm.lastExitReason

def transition (source next : VmState) : HyperResult Unit × Vm :=
  if vm.state = source then (.ok (), { vm with state := next })
  else (.error (.denied "Vm::transition: bad source state"), vm)

def markRunning : HyperResult Unit × Vm := vm.transition .created .running

/-- The reason is stored even where the transition is refused. -/
def onExit (reason : UInt32) (outcome : ExitOutcome) : Vm :=
  ({ vm with lastExitReason := reason }.transition .running
    (match outcome with | .halted => .halted | .faulted => .faulted)).2

def stop : HyperResult Unit × Vm :=
  if vm.state = .created ∨ vm.state = .running then (.ok (), { vm with state := .stopped })
  else (.error (.denied "Vm::stop: not in Created/Running"), vm)

end Vm

/-! ## The hardware -/

/-- How a `vmlaunch` ends. -/
inductive Launch where
  /-- The guest runs until it exits, for this basic reason. -/
  | exit (reason : UInt16)
  /-- It exits, and the reason cannot be read. -/
  | unreadable
  /-- `vmlaunch` itself fails, always with a hardware or an internal error. -/
  | failed
deriving DecidableEq, Repr

def exitReasonHlt : UInt16 := 12

/-- What the hardware makes of one request: the error of the first step that fails, if one does. -/
structure Hardware where
  create : Option HyperError
  setActive : Option HyperError
  launch : Launch
deriving DecidableEq, Repr

/-- Every step succeeds and the guest halts. -/
def Hardware.fine : Hardware := ⟨none, none, .exit exitReasonHlt⟩

/-- What becomes of a running VM: `vm_exit_dispatch`, or the stop after a launch that failed. -/
def Launch.finish (vm : Vm) : Launch → Vm
  | .exit reason => vm.onExit reason.toUInt32 (if reason = exitReasonHlt then .halted else .faulted)
  | .unreadable => vm
  | .failed => vm.stop.2

/-! ## The table -/

/-- A slot by its number, with an error for an empty one and one for a number out of range. -/
def slotAt {α ε : Type} (table : Fin maxVms → Option α) (id : UInt32) (absent range : ε) : Except ε (Fin maxVms × α) :=
  if h : id.toNat < maxVms then
    match table ⟨id.toNat, h⟩ with
    | none => .error absent
    | some a => .ok (⟨id.toNat, h⟩, a)
  else .error range

theorem slotAt_ok {α ε : Type} {table : Fin maxVms → Option α} {id : UInt32} {absent range : ε} {i : Fin maxVms}
    {a : α} : slotAt table id absent range = .ok (i, a) ↔ id.toNat = i ∧ table i = some a := by
  unfold slotAt
  split
  · rename_i h
    constructor
    · intro hok
      split at hok
      · cases hok
      · rename_i a' ha'
        obtain ⟨rfl, rfl⟩ := Prod.mk.inj (Except.ok.inj hok)
        exact ⟨rfl, ha'⟩
    · rintro ⟨hi, ha⟩
      obtain rfl : (⟨id.toNat, h⟩ : Fin maxVms) = i := Fin.ext hi
      rw [ha]
  · rename_i h
    refine iff_of_false (by simp) ?_
    rintro ⟨hi, -⟩
    omega

/-- Where the slot is not found, the answer is an error. -/
theorem slotAt_error {α ε : Type} {table : Fin maxVms → Option α} {id : UInt32} {absent range : ε}
    (h : ∀ i : Fin maxVms, id.toNat = i → table i = none) : ∃ e, slotAt table id absent range = .error e := by
  cases hs : slotAt table id absent range with
  | error e => exact ⟨e, rfl⟩
  | ok p =>
    obtain ⟨hi, ha⟩ := slotAt_ok.1 hs
    rw [h p.1 hi] at ha
    cases ha

theorem ofNat_inj : ∀ {i j : Fin maxVms}, UInt32.ofNat i = UInt32.ofNat j → i = j := by decide

structure Manager where
  runtimeReady : Bool
  occupied : Fin maxVms → Bool
  registry : Fin maxVms → Option Vm
  deleted : Fin maxVms → Bool
deriving DecidableEq

structure VmListEntry where
  id : UInt32
  state : VmState
  lastExit : Option UInt32
deriving DecidableEq, Repr

namespace Manager

/-- An initialised runtime without VMs. -/
def init : Manager := ⟨true, fun _ => false, fun _ => none, fun _ => false⟩

variable (m : Manager)

/-- `reserve_slot`: the first slot that was never taken. -/
def freeSlot : Option (Fin maxVms) := (List.finRange maxVms).find? (fun i => !m.occupied i)

def createVm (hw : Hardware) (req : CreateVmRequest) : HyperResult (Fin maxVms) × Manager :=
  if !m.runtimeReady then (.error (.denied "manager: runtime not initialised"), m)
  else match m.freeSlot with
    | none => (.error (.exhausted "manager: VM table full"), m)
    | some i =>
      -- The slot stays taken when a later step fails.
      let m := { m with occupied := Function.update m.occupied i true }
      if req.blob.length > maxImageBytes then (.error (.hardware "guest blob > 4 KiB"), m)
      else match hw.create with
        | some e => (.error e, m)
        | none => (.ok i, { m with registry := Function.update m.registry i ((m.registry i).or (some (Vm.new req))) })

/-- The table with a new VM in slot `i`. -/
def allocate (i : Fin maxVms) (req : CreateVmRequest) : Manager :=
  { m with occupied := Function.update m.occupied i true
           registry := Function.update m.registry i ((m.registry i).or (some (Vm.new req))) }

def lookup (id : UInt32) : HyperResult (Fin maxVms × Vm) :=
  slotAt m.registry id (.denied "manager: VmId not allocated") (.denied "manager: VmId out of range")

def setVm (i : Fin maxVms) (vm : Vm) : Manager := { m with registry := Function.update m.registry i (some vm) }

def startVm (hw : Hardware) (id : UInt32) : HyperResult Unit × Manager :=
  match m.lookup id with
  | .error e => (.error e, m)
  | .ok (i, vm) =>
    match hw.setActive with
    | some e => (.error e, m)
    | none =>
      match vm.markRunning with
      | (.error e, _) => (.error e, m)
      | (.ok (), vm) => (.ok (), m.setVm i (hw.launch.finish vm))

def stopVm (id : UInt32) : HyperResult Unit × Manager :=
  match m.lookup id with
  | .error e => (.error e, m)
  | .ok (i, vm) => if vm.state.isTerminal then (.ok (), m) else (vm.stop.1, m.setVm i vm.stop.2)

def deleteVm (id : UInt32) : HyperResult (Fin maxVms) × Manager :=
  match m.lookup id with
  | .error e => (.error e, m)
  | .ok (i, vm) =>
    if !vm.state.isTerminal then (.error (.invalid "manager: vm not terminal"), m)
    else if m.deleted i then (.error (.denied "manager: vm already deleted"), m)
    else (.ok i, { m with deleted := Function.update m.deleted i true })

def listVms (i : Fin maxVms) : Option VmListEntry :=
  if m.deleted i then none
  else (m.registry i).map (fun vm => ⟨UInt32.ofNat i, vm.state, vm.lastExit⟩)

/-- **What a create can do**: take a slot and nothing else, or put a new VM into the first free slot. -/
theorem createVm_cases (hw : Hardware) (req : CreateVmRequest) :
    (∃ e occupied, m.createVm hw req = (.error e, { m with occupied }) ∧
      ∀ i, m.occupied i = true → occupied i = true) ∨
      ∃ i, m.freeSlot = some i ∧ m.createVm hw req = (.ok i, m.allocate i req) ∧ hw.create = none := by
  have htake : ∀ i j, m.occupied j = true → Function.update m.occupied i true j = true := by
    intro i j hj
    rw [Function.update_apply]
    split
    · rfl
    · exact hj
  unfold createVm
  split
  · exact .inl ⟨_, m.occupied, rfl, fun _ h => h⟩
  · split
    · exact .inl ⟨_, m.occupied, rfl, fun _ h => h⟩
    · rename_i i hi
      simp only
      split
      · exact .inl ⟨_, _, rfl, htake i⟩
      · split
        · exact .inl ⟨_, _, rfl, htake i⟩
        · rename_i hhw
          exact .inr ⟨i, hi, rfl, hhw⟩

/-- With a runtime, hardware and a blob that are in order only a full table refuses. -/
theorem createVm_fine {hw : Hardware} {req : CreateVmRequest} (hready : m.runtimeReady = true) (hhw : hw.create = none)
    (hblob : req.blob.length ≤ maxImageBytes) {i : Fin maxVms} (hfree : m.freeSlot = some i) :
    m.createVm hw req = (.ok i, m.allocate i req) := by
  unfold createVm
  rw [if_neg (by simp [hready]), hfree, hhw]
  simp only [if_neg (Nat.not_lt.2 hblob)]
  rfl

theorem lookup_ok {id : UInt32} {i : Fin maxVms} {vm : Vm} :
    m.lookup id = .ok (i, vm) ↔ id.toNat = i ∧ m.registry i = some vm :=
  slotAt_ok

/-- **What a delete can do**: refuse, or hide a VM that was not hidden. -/
theorem deleteVm_cases (id : UInt32) :
    (∃ e, m.deleteVm id = (.error e, m)) ∨
      ∃ (i : Fin maxVms) (vm : Vm), id.toNat = i ∧ m.registry i = some vm ∧ m.deleted i = false ∧
        m.deleteVm id = (.ok i, { m with deleted := Function.update m.deleted i true }) := by
  unfold deleteVm
  split
  · exact .inl ⟨_, rfl⟩
  · rename_i i vm hlookup
    obtain ⟨hi, hvm⟩ := m.lookup_ok.1 hlookup
    split
    · exact .inl ⟨_, rfl⟩
    · split
      · exact .inl ⟨_, rfl⟩
      · rename_i hdel
        exact .inr ⟨i, vm, hi, hvm, by simpa using hdel, rfl⟩

end Manager

end Celium
