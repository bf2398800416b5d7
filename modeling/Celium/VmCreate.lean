import Celium.Lib.Runs
import Celium.Manager
import Celium.FrameBytes
/-!
# VmCreate — the making of a VM, step by step

`create_vm_with` reserves a slot, builds the guest's page tables from the frames of a provider, and sets up a VMCS by
instructions that each say in the flags whether they succeeded.  The provider, the capability register and the flags are
inputs.  A step that fails ends the call, and nothing gives the slot back.
-/
namespace Celium

open Ept Runs

/-- `check_vmx_status`: the carry flag, then the zero flag. -/
def checkVmxStatus (rflags : UInt64) : HyperResult Unit :=
  if rflags &&& 1 ≠ 0 then .error (.hardware "vmx: VMfailInvalid")
  else if rflags &&& (1 : UInt64) <<< 6 ≠ 0 then .error (.hardware "vmx: VMfailValid")
  else .ok ()

/-- What the processor answers in one `create_vm_with`: `IA32_VMX_BASIC`, and the flags after each instruction. -/
structure VmxSteps where
  basic : UInt64
  vmclear : UInt64
  vmptrld : UInt64
  /-- Of the `vmwrite`s of `write_host_state`. -/
  hostState : List UInt64
  /-- Of those of `write_vmcs`. -/
  guestState : List UInt64
deriving DecidableEq, Repr

/-- A sequence of `vmwrite`s. -/
def vmwrites : List UInt64 → HyperResult Unit
  | [] => .ok ()
  | rflags :: rest => do
    checkVmxStatus rflags
    vmwrites rest

namespace VmxSteps

variable (steps : VmxSteps)

def revisionId : HyperResult UInt32 :=
  if steps.basic &&& (1 : UInt64) <<< 31 ≠ 0 then .error (.unsupportedCpu "IA32_VMX_BASIC width bit set")
  else .ok (steps.basic &&& 0x7FFFFFFF).toUInt32

/-- From `vmclear` to `write_vmcs`. -/
def program : HyperResult Unit := do
  checkVmxStatus steps.vmclear
  checkVmxStatus steps.vmptrld
  vmwrites steps.hostState
  vmwrites steps.guestState

end VmxSteps

/-- `READ | WRITE | EXEC | MT_WB`. -/
def guestFlags : EptFlags := ⟨0b0110111, by decide⟩

theorem guestFlags_declared : guestFlags.Declared := by decide

theorem guestGpa_lt : 0x1000 < 2 ^ 52 := by decide

def guestGpa : PhysAddr := ⟨0x1000, guestGpa_lt⟩

/-- `Ept::eptp`: write-back, a walk of four levels. -/
def Ept.eptp (e : Ept) : Nat := e.pml4.addr ||| 3 <<< 3 ||| 6

/-- What `Vm::new` is given. -/
structure VmTables where
  vmcsPa : PhysAddr
  eptp : Nat
deriving DecidableEq, Repr

section Steps

variable {σ : Type} (P : FrameProvider σ)

/-- `install_first_guest`. -/
def installFirstGuest (s : σ) (blob : List UInt8) : HyperResult Ept × σ :=
  if blob.length > pageSize then (.error (.hardware "guest blob > 4 KiB"), s)
  else match Ept.new P s with
    | (.error e, s) => (.error e, s)
    | (.ok ept, s) =>
      match P.allocZeroed s with
      | (.error e, s) => (.error e, s)
      | (.ok hpa, s) =>
        match ept.map4k P (copyIn P hpa s 0 blob) guestGpa hpa guestFlags with
        | (.error e, s) => (.error e, s)
        | (.ok (), s) => (.ok ept, s)

/-- `region::alloc_in_pool`. -/
def allocInPool (s : σ) (revisionId : UInt32) : HyperResult PhysAddr × σ :=
  match P.allocZeroed s with
  | (.error e, s) => (.error e, s)
  | (.ok pa, s) => (.ok pa, P.writeEntry s pa 0 revisionId.toNat)

/-- The steps of `create_vm_with` after the slot is reserved, and what they leave to the VM. -/
def buildVm (s : σ) (steps : VmxSteps) (blob : List UInt8) : HyperResult VmTables × σ :=
  match installFirstGuest P s blob with
  | (.error e, s) => (.error e, s)
  | (.ok ept, s) =>
    match steps.revisionId with
    | .error e => (.error e, s)
    | .ok rev =>
      match allocInPool P s rev with
      | (.error e, s) => (.error e, s)
      | (.ok vmcs, s) => (steps.program.map fun _ => ⟨vmcs, ept.eptp⟩, s)

namespace Manager

variable (m : Manager)

def createVmWith (s : σ) (steps : VmxSteps) (req : CreateVmRequest) : HyperResult (Fin maxVms) × Manager × σ :=
  match m.freeSlot with
  | none => (.error (.exhausted "manager: VM table full"), m, s)
  | some i =>
    match buildVm P s steps req.blob with
    | (.error e, s) => (.error e, { m with occupied := Function.update m.occupied i true }, s)
    | (.ok _, s) => (.ok i, m.allocate i req, s)

/-- `vm_count`. -/
def vmCount : Nat := (List.finRange maxVms).countP m.occupied

/-- **The table as `create_vm` leaves it**, where the hardware fails as one of these steps does. -/
theorem createVmWith_eq_createVm (s : σ) (steps : VmxSteps) (req : CreateVmRequest) {hw : Hardware}
    (hready : m.runtimeReady = true)
    (hhw : hw.create = match (buildVm P s steps req.blob).1 with | .error e => some e | .ok _ => none) :
    m.createVm hw req = ((m.createVmWith P s steps req).1, (m.createVmWith P s steps req).2.1) := by
  unfold createVm createVmWith
  rw [if_neg (by simp [hready])]
  cases m.freeSlot with
  | none => rfl
  | some i =>
    simp only [hhw]
    by_cases hblob : req.blob.length > maxImageBytes
    · have hbig : req.blob.length > pageSize := hblob
      simp only [if_pos hblob, buildVm, installFirstGuest, if_pos hbig]
    · rw [if_neg hblob]
      rcases buildVm P s steps req.blob with ⟨e | t, s'⟩
      · rfl
      · rfl

end Manager

/-! ## Where every step succeeds -/

/-- The flags of an instruction that succeeded. -/
def FlagsClear (rflags : UInt64) : Prop := rflags &&& 1 = 0 ∧ rflags &&& (1 : UInt64) <<< 6 = 0

instance (rflags : UInt64) : Decidable (FlagsClear rflags) := inferInstanceAs (Decidable (_ ∧ _))

/-- The blob fits its page, the provider has a frame wherever one is asked for, and every instruction succeeds. -/
inductive StepsSucceed (s : σ) (steps : VmxSteps) (blob : List UInt8) : Prop
  | intro {ept : Ept} {hpa vmcs : PhysAddr} {s1 s2 s3 s4 : σ} (fits : blob.length ≤ pageSize)
      (root : Ept.new P s = (.ok ept, s1)) (page : P.allocZeroed s1 = (.ok hpa, s2))
      (mapped : ept.map4k P (copyIn P hpa s2 0 blob) guestGpa hpa guestFlags = (.ok (), s3))
      (width : steps.basic &&& (1 : UInt64) <<< 31 = 0)
      (region : P.allocZeroed s3 = (.ok vmcs, s4)) (clear : FlagsClear steps.vmclear) (load : FlagsClear steps.vmptrld)
      (host : ∀ rflags ∈ steps.hostState, FlagsClear rflags) (guest : ∀ rflags ∈ steps.guestState, FlagsClear rflags)

theorem checkVmxStatus_ok {rflags : UInt64} : checkVmxStatus rflags = .ok () ↔ FlagsClear rflags := by
  unfold checkVmxStatus FlagsClear
  split
  · exact iff_of_false (fun h => (by cases h)) fun h => absurd h.1 ‹_›
  · split
    · exact iff_of_false (fun h => (by cases h)) fun h => absurd h.2 ‹_›
    · exact iff_of_true rfl ⟨not_not.1 ‹_›, not_not.1 ‹_›⟩

theorem vmwrites_ok {flags : List UInt64} : vmwrites flags = .ok () ↔ ∀ rflags ∈ flags, FlagsClear rflags := by
  induction flags with
  | nil => exact iff_of_true rfl fun _ h => absurd h List.not_mem_nil
  | cons rflags rest ih =>
    rw [vmwrites, List.forall_mem_cons, ← checkVmxStatus_ok, ← ih]
    cases checkVmxStatus rflags with
    | error e => exact iff_of_false (fun h => (by cases h)) fun h => (by cases h.1)
    | ok u => exact (and_iff_right rfl).symm

theorem VmxSteps.program_ok {steps : VmxSteps} : steps.program = .ok () ↔
    FlagsClear steps.vmclear ∧ FlagsClear steps.vmptrld ∧ (∀ rflags ∈ steps.hostState, FlagsClear rflags) ∧
      ∀ rflags ∈ steps.guestState, FlagsClear rflags := by
  rw [program, ← checkVmxStatus_ok, ← checkVmxStatus_ok, ← vmwrites_ok, ← vmwrites_ok]
  cases checkVmxStatus steps.vmclear with
  | error e => exact iff_of_false (fun h => (by cases h)) fun h => (by cases h.1)
  | ok u =>
    cases checkVmxStatus steps.vmptrld with
    | error e => exact iff_of_false (fun h => (by cases h)) fun h => (by cases h.2.1)
    | ok u =>
      cases vmwrites steps.hostState with
      | error e => exact iff_of_false (fun h => (by cases h)) fun h => (by cases h.2.2.1)
      | ok u =>
        constructor
        · exact fun h => ⟨rfl, rfl, rfl, h⟩
        · exact fun h => h.2.2.2

theorem installFirstGuest_ok {s s3 : σ} {blob : List UInt8} {ept : Ept} :
    installFirstGuest P s blob = (.ok ept, s3) ↔ blob.length ≤ pageSize ∧ ∃ s1 hpa s2, Ept.new P s = (.ok ept, s1) ∧
      P.allocZeroed s1 = (.ok hpa, s2) ∧ ept.map4k P (copyIn P hpa s2 0 blob) guestGpa hpa guestFlags = (.ok (), s3) := by
  unfold installFirstGuest
  split
  · rename_i hbig
    exact iff_of_false (fun h => (by cases h)) fun h => absurd h.1 (Nat.not_le.2 hbig)
  · rename_i hfits
    rw [and_iff_right (Nat.not_lt.1 hfits)]
    rcases Ept.new P s with ⟨e | ept', s1⟩
    · refine iff_of_false (fun h => (by cases h)) ?_
      rintro ⟨_, _, _, h, -⟩
      cases h
    · simp only
      rcases hpage : P.allocZeroed s1 with ⟨e | hpa, s2⟩
      · refine iff_of_false (fun h => (by cases h)) ?_
        rintro ⟨_, _, _, h, h', -⟩
        cases h
        cases hpage.symm.trans h'
      · simp only
        rcases hmap : ept'.map4k P (copyIn P hpa s2 0 blob) guestGpa hpa guestFlags with ⟨e | u, s3'⟩
        · refine iff_of_false (fun h => (by cases h)) ?_
          rintro ⟨_, _, _, h, h', h''⟩
          cases h
          cases hpage.symm.trans h'
          cases hmap.symm.trans h''
        · constructor
          · intro h
            cases h
            exact ⟨s1, hpa, s2, rfl, hpage, hmap⟩
          · rintro ⟨_, _, _, h, h', h''⟩
            cases h
            cases hpage.symm.trans h'
            cases hmap.symm.trans h''
            rfl

/-- **The set-up goes through exactly when each of its steps does.** -/
theorem buildVm_ok {s : σ} {steps : VmxSteps} {blob : List UInt8} :
    (∃ t, (buildVm P s steps blob).1 = .ok t) ↔ StepsSucceed P s steps blob := by
  constructor
  · rintro ⟨t, h⟩
    unfold buildVm at h
    split at h
    · cases h
    · rename_i ept s3 hguest
      obtain ⟨hfits, s1, hpa, s2, hroot, hpage, hmapped⟩ := (installFirstGuest_ok P).1 hguest
      unfold VmxSteps.revisionId at h
      split at h
      · cases h
      · rename_i rev hrev
        have hwidth : steps.basic &&& (1 : UInt64) <<< 31 = 0 := by
          by_contra hne
          rw [if_pos hne] at hrev
          cases hrev
        unfold allocInPool at h
        split at h
        · cases h
        · rename_i pa s5 hpool
          split at hpool
          · cases hpool
          · rename_i pa' s4 halloc
            have hprogram : steps.program = .ok () := by
              cases hp : steps.program with
              | error e =>
                rw [hp] at h
                cases h
              | ok u => rfl
            obtain ⟨hclear, hload, hhost, hguest⟩ := VmxSteps.program_ok.1 hprogram
            exact ⟨hfits, hroot, hpage, hmapped, hwidth, halloc, hclear, hload, hhost, hguest⟩
  · rintro ⟨hfits, hroot, hpage, hmapped, hwidth, hregion, hclear, hload, hhost, hguest⟩
    rw [buildVm, (installFirstGuest_ok P).2 ⟨hfits, _, _, _, hroot, hpage, hmapped⟩]
    simp only [VmxSteps.revisionId, if_neg (not_not.2 hwidth), allocInPool, hregion,
      VmxSteps.program_ok.2 ⟨hclear, hload, hhost, hguest⟩]
    exact ⟨_, rfl⟩

/-! ## A create that fails -/

namespace Manager

/-- The same slots are taken, as many VMs counted and the same ones listed. -/
structure Unchanged (m m' : Manager) : Prop where
  occupied : m'.occupied = m.occupied
  count : m'.vmCount = m.vmCount
  list : m'.listVms = m.listVms

variable {P} {m : Manager} {s : σ} {steps : VmxSteps} {req : CreateVmRequest}

theorem freeSlot_none : m.freeSlot = none ↔ m.vmCount = maxVms := by
  have hlen : (List.finRange maxVms).length = maxVms := List.length_finRange
  have hcount := List.countP_eq_length (p := m.occupied) (l := List.finRange maxVms)
  rw [hlen] at hcount
  rw [vmCount, hcount, freeSlot, List.find?_eq_none]
  simp only [Bool.not_eq_true, Bool.not_eq_false']

theorem vmCount_le : m.vmCount ≤ maxVms := by
  have hle := List.countP_le_length (p := m.occupied) (l := List.finRange maxVms)
  rwa [List.length_finRange] at hle

theorem countP_take {occupied : Fin maxVms → Bool} {i : Fin maxVms} (hi : occupied i = false) :
    (List.finRange maxVms).countP (Function.update occupied i true) = (List.finRange maxVms).countP occupied + 1 := by
  obtain ⟨before, after, heq⟩ := List.append_of_mem (List.mem_finRange i)
  have hnodup : (before ++ i :: after).Nodup := heq ▸ List.nodup_finRange maxVms
  have hout := (List.nodup_cons.1 (List.perm_middle.nodup_iff.1 hnodup)).1
  have hsame : ∀ l : List (Fin maxVms), i ∉ l → l.countP (Function.update occupied i true) = l.countP occupied := by
    intro l hl
    refine List.countP_congr fun j hj => ?_
    rw [Function.update_of_ne]
    rintro rfl
    exact hl hj
  rw [List.mem_append, not_or] at hout
  rw [heq, List.countP_append, List.countP_append, hsame before hout.1,
    List.countP_cons_of_pos (Function.update_self i true occupied), List.countP_cons_of_neg (by simp [hi]),
    hsame after hout.2, Nat.add_assoc]

/-- **A failure past the reservation counts for a VM.** -/
theorem createVmWith_fails {i : Fin maxVms} (hfree : m.freeSlot = some i) (hfail : ¬ StepsSucceed P s steps req.blob) :
    (∃ e, (m.createVmWith P s steps req).1 = .error e) ∧ (m.createVmWith P s steps req).2.1.vmCount = m.vmCount + 1 := by
  have hvacant : m.occupied i = false := by simpa using List.find?_some hfree
  rw [createVmWith, hfree]
  rcases hbuild : buildVm P s steps req.blob with ⟨e | t, s'⟩
  · exact ⟨⟨e, rfl⟩, countP_take hvacant⟩
  · exact absurd ((buildVm_ok P).1 ⟨t, by rw [hbuild]⟩) hfail

theorem createVmWith_full (hfull : m.freeSlot = none) :
    m.createVmWith P s steps req = (.error (.exhausted "manager: VM table full"), m, s) := by
  rw [createVmWith, hfull]

/-- **A create that fails leaves the table as it was exactly when the table is full**, or when it cannot fail. -/
theorem create_error_unchanged_iff {σ : Type} (P : FrameProvider σ) (m : Manager) (s : σ) (steps : VmxSteps)
    (req : CreateVmRequest) :
    (∀ e, (m.createVmWith P s steps req).1 = .error e → m.Unchanged (m.createVmWith P s steps req).2.1) ↔
      m.freeSlot = none ∨ StepsSucceed P s steps req.blob := by
  cases hfree : m.freeSlot with
  | none =>
    refine iff_of_true (fun e _ => ?_) (.inl rfl)
    rw [createVmWith_full hfree]
    exact ⟨rfl, rfl, rfl⟩
  | some i =>
    rw [or_iff_right (Option.some_ne_none i)]
    constructor
    · intro h
      by_contra hfail
      obtain ⟨⟨e, he⟩, hcount⟩ := createVmWith_fails hfree hfail
      have hsame := (h e he).count
      omega
    · intro hok e he
      rcases hbuild : buildVm P s steps req.blob with ⟨e' | t, s'⟩
      · obtain ⟨t, hfine⟩ := (buildVm_ok P).2 hok
        rw [hbuild] at hfine
        cases hfine
      · rw [createVmWith, hfree, hbuild] at he
        cases he

/-- A VMCS that cannot be cleared. -/
def clearFails : VmxSteps := ⟨0, 1, 0, [], []⟩

/-- **A create that fails at `vmclear` keeps the slot.** -/
theorem failed_create_keeps_slot : ¬ ∀ {σ : Type} (P : FrameProvider σ) (m : Manager) (s : σ) (steps : VmxSteps)
    (req : CreateVmRequest) (e : HyperError), (m.createVmWith P s steps req).1 = .error e →
      m.Unchanged (m.createVmWith P s steps req).2.1 := by
  intro hall
  have hfail : ¬ StepsSucceed kernelFrames freshPool clearFails [0xF4] := by
    rintro ⟨-, -, -, -, -, -, hclear, -⟩
    exact absurd hclear (by decide)
  obtain ⟨⟨e, he⟩, hcount⟩ := @createVmWith_fails _ kernelFrames init freshPool clearFails ⟨[0xF4], 0x1000, 0⟩
    ⟨0, by decide⟩ rfl hfail
  have hsame := (hall kernelFrames init freshPool clearFails ⟨[0xF4], 0x1000, 0⟩ e he).count
  omega

/-- One create as a step. -/
def createStep (P : FrameProvider σ) (m : Manager) (call : σ × VmxSteps × CreateVmRequest) :
    HyperResult (Fin maxVms) × Manager :=
  ((m.createVmWith P call.1 call.2.1 call.2.2).1, (m.createVmWith P call.1 call.2.1 call.2.2).2.1)

/-- **Failures fill the table**: after four of them no VM can be created any more. -/
theorem vmCount_after_failures {calls : List (σ × VmxSteps × CreateVmRequest)}
    (hfail : ∀ call ∈ calls, ¬ StepsSucceed P call.1 call.2.1 call.2.2.blob) (m : Manager) :
    (run (createStep P) m calls).vmCount = min maxVms (m.vmCount + calls.length) := by
  induction calls generalizing m with
  | nil => exact (Nat.min_eq_right vmCount_le).symm
  | cons call calls ih =>
    obtain ⟨hfirst, hrest⟩ := List.forall_mem_cons.1 hfail
    rw [run, ih hrest, List.length_cons]
    cases hfree : m.freeSlot with
    | none =>
      have hcount := freeSlot_none.1 hfree
      rw [createStep, createVmWith_full hfree]
      dsimp only
      omega
    | some i =>
      rw [createStep, (createVmWith_fails hfree hfirst).2]
      omega

end Manager

end Steps

end Celium
