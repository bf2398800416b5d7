import Celium.Lib.Bytes
import Celium.Lib.RoundRobin
import Celium.Lib.Runs
import Celium.VmCreate
import Celium.VmPath
/-!
# BringUp — the boot of the kernel and its run queue

`next_runnable` of the manager, the namespace that gates the manager by a capability, and `bring_up`, which makes two VMs
and starts every VM that is to be started.  What the processor does is an input.  The descriptor tables, the LAPIC and the
other processors are left out of `bring_up`: it goes on whether or not they come up.
-/
namespace Celium

open Runs RoundRobin

/-! ## Capabilities of the kernel -/

/-- `Rights`: any bits, declared or not. -/
structure Rights where
  bits : UInt32
deriving DecidableEq, Repr

namespace Rights

def read : Rights := ⟨1⟩
def write : Rights := ⟨2⟩
def invoke : Rights := ⟨4⟩
def grant : Rights := ⟨8⟩

instance : OrOp Rights where
  or a b := ⟨a.bits ||| b.bits⟩

def contains (rights needed : Rights) : Bool := rights.bits &&& needed.bits = needed.bits

end Rights

inductive KernelObject where
  | vm (id : UInt32)
  | vcpu (vm vcpu : UInt32)
  | eptRange (vm : UInt32)
  | iommuDomain (id : UInt32)
deriving DecidableEq, Repr

structure KernelCap where
  object : KernelObject
  rights : Rights
deriving DecidableEq, Repr

def KernelCap.check (cap : KernelCap) (needed : Rights) : HyperResult Unit :=
  if cap.rights.contains needed then .ok () else .error (.denied "rights mask")

/-! ## The run queue -/

namespace Manager

variable (m : Manager)

def isCreated (i : Fin maxVms) : Bool := (m.registry i).any fun vm => vm.state = .created

theorem maxVms_pos : 0 < maxVms := by decide

/-- The answer of `next_runnable`, and where it leaves the cursor. -/
def nextRunnable (cursor : Fin maxVms) : Option (Fin maxVms) × Fin maxVms :=
  match ((List.range maxVms).map fun offset => (⟨(cursor + offset) % maxVms, Nat.mod_lt _ maxVms_pos⟩ : Fin maxVms)).find?
      m.isCreated with
  | some i => (some i, ⟨(i + 1) % maxVms, Nat.mod_lt _ maxVms_pos⟩)
  | none => (none, cursor)

/-- The places from the cursor on. -/
def queue (cursor : Fin maxVms) : List (Fin maxVms) := order cursor

/-- **`next_runnable` is a turn of the queue.** -/
theorem nextRunnable_eq (cursor : Fin maxVms) :
    match turn m.isCreated (queue cursor) with
    | some (i, q) => m.nextRunnable cursor = (some i, ⟨(i + 1) % maxVms, Nat.mod_lt _ maxVms_pos⟩) ∧
        queue ⟨(i + 1) % maxVms, Nat.mod_lt _ maxVms_pos⟩ = q
    | none => m.nextRunnable cursor = (none, cursor) := by
  unfold nextRunnable
  rw [← order_eq maxVms_pos]
  split
  · rename_i i q hturn
    obtain ⟨before, after, hq, hbefore, hready, rfl⟩ := turn_some.1 hturn
    have hfind : (order cursor.val : List (Fin maxVms)).find? m.isCreated = some i := by
      refine List.find?_eq_some_iff_append.2 ⟨hready, before, after, hq, fun b hb => ?_⟩
      rw [hbefore b hb]
      rfl
    rw [hfind]
    exact ⟨rfl, (order_mod _).trans (order_next hq)⟩
  · rename_i hturn
    have hnone := turn_none.1 hturn
    have hfind : (order cursor.val : List (Fin maxVms)).find? m.isCreated = none := by
      refine List.find?_eq_none.2 fun i _ => ?_
      rw [hnone i (mem_order _ i)]
      exact Bool.false_ne_true
    rw [hfind]

/-- The manager with the cursor of its run queue. -/
structure RunQueue where
  manager : Manager
  cursor : Fin maxVms

inductive RunMove where
  | next
  | create (hw : Hardware) (req : CreateVmRequest)
  | start (hw : Hardware) (id : UInt32)
  | stop (id : UInt32)
  | delete (id : UInt32)
  /-- `reset_runqueue_cursor`. -/
  | reset
deriving DecidableEq

namespace RunQueue

/-- The answer of a `next_runnable`; the others give nothing. -/
def step (q : RunQueue) : RunMove → Option (Fin maxVms) × RunQueue
  | .next => ((q.manager.nextRunnable q.cursor).1, { q with cursor := (q.manager.nextRunnable q.cursor).2 })
  | .create hw req => (none, { q with manager := (q.manager.createVm hw req).2 })
  | .start hw id => (none, { q with manager := (q.manager.startVm hw id).2 })
  | .stop id => (none, { q with manager := (q.manager.stopVm id).2 })
  | .delete id => (none, { q with manager := (q.manager.deleteVm id).2 })
  | .reset => (none, { q with cursor := ⟨0, maxVms_pos⟩ })

theorem step_cursor {q : RunQueue} {a : RunMove} (hnext : a ≠ .next) (hreset : a ≠ .reset) :
    (q.step a).2.cursor = q.cursor := by
  cases a with
  | next => exact absurd rfl hnext
  | reset => exact absurd rfl hreset
  | create hw req => rfl
  | start hw id => rfl
  | stop id => rfl
  | delete id => rfl

/-- **A VM that waits gets its turn**: of as many calls of `next_runnable` as lie before its place in the queue, and one
more, one returns it. -/
theorem answered {i : Fin maxVms} : ∀ {moves : List RunMove} {q : RunQueue},
    Along step (fun q a => a = .next → q.manager.isCreated i = true) q moves → .reset ∉ moves →
    (queue q.cursor).idxOf i < moves.countP (· = .next) → some i ∈ answers step q moves
  | [], _, _, _, hcount => absurd hcount (Nat.not_lt_zero _)
  | a :: moves, q, hwait, hreset, hcount => by
    obtain ⟨hhere, hrest⟩ := hwait
    rw [List.mem_cons, not_or] at hreset
    rw [answers, List.mem_cons]
    by_cases hnext : a = .next
    · subst hnext
      have hready := hhere rfl
      have heq := q.manager.nextRunnable_eq q.cursor
      split at heq
      · rename_i j q' hturn
        obtain ⟨hanswer, hqueue⟩ := heq
        by_cases hij : i = j
        · subst hij
          exact .inl (congrArg Prod.fst hanswer).symm
        · refine .inr (answered hrest hreset.2 ?_)
          have hcloser := turn_closer hturn (mem_order _ i) hready hij
          change (queue (q.manager.nextRunnable q.cursor).2).idxOf i < _
          rw [hanswer, hqueue]
          rw [List.countP_cons_of_pos (by simp)] at hcount
          omega
      · rename_i hturn
        rw [turn_none.1 hturn i (mem_order _ i)] at hready
        cases hready
    · refine .inr (answered hrest hreset.2 ?_)
      rw [step_cursor hnext (Ne.symm hreset.1)]
      rwa [List.countP_cons_of_neg (by simpa using hnext)] at hcount

/-- **The run queue is fair**: a VM that is `Created` at each of four calls of `next_runnable`, whatever else is done between
them, is returned by one of the four. -/
theorem next_runnable_fair (q : RunQueue) {moves : List RunMove} {i : Fin maxVms}
    (hwait : Along step (fun q a => a = .next → q.manager.isCreated i = true) q moves) (hreset : .reset ∉ moves)
    (hcount : maxVms ≤ moves.countP (· = .next)) : some i ∈ answers step q moves := by
  refine answered hwait hreset (Nat.lt_of_lt_of_le ?_ hcount)
  have hin := List.idxOf_lt_length_of_mem (mem_order q.cursor.val i)
  rwa [length_order] at hin

theorem zero_lt_maxVms : 0 < maxVms := by decide
theorem one_lt_maxVms : 1 < maxVms := by decide
theorem two_lt_maxVms : 2 < maxVms := by decide

/-- Two VMs, and the cursor behind the second. -/
def twoWaiting : RunQueue :=
  ⟨(Manager.init.allocate ⟨0, zero_lt_maxVms⟩ ⟨[0xF4], 0x1000, 0⟩).allocate ⟨1, one_lt_maxVms⟩ ⟨[0xF4], 0x1000, 0⟩,
    ⟨2, two_lt_maxVms⟩⟩

/-- The second one gets its turn, while the first is started. -/
theorem next_runnable_fair_second :
    some ⟨1, by decide⟩ ∈ answers step twoWaiting [.next, .start .fine 0, .next, .next, .next] :=
  next_runnable_fair twoWaiting (by decide) (by decide) (by decide)

end RunQueue

/-! ## The starting of a VM -/

theorem isCreated_setVm (i : Fin maxVms) (vm : Vm) :
    (m.setVm i vm).isCreated = Function.update m.isCreated i (decide (vm.state = .created)) := by
  funext j
  change (Function.update m.registry i (some vm) j).any (fun vm => decide (vm.state = .created)) = _
  rw [Function.update_apply, Function.update_apply]
  split
  · rfl
  · rfl

/-- A launch leaves no VM where it was. -/
theorem finish_state (launch : Launch) (vm : Vm) : (launch.finish { vm with state := .running }).state ≠ .created := by
  cases launch with
  | exit reason =>
    by_cases hhlt : reason = exitReasonHlt
    · simp [Launch.finish, Vm.onExit, Vm.transition, hhlt]
    · simp [Launch.finish, Vm.onExit, Vm.transition, hhlt]
  | unreadable => simp [Launch.finish]
  | failed => simp [Launch.finish, Vm.stop]

/-- What `start_vm` does to a VM that is to be started. -/
def launched (hw : Fin maxVms → Hardware) (i : Fin maxVms) : Manager :=
  match m.registry i with
  | none => m
  | some vm => m.setVm i ((hw i).launch.finish { vm with state := .running })

theorem ofNat_toNat (i : Fin maxVms) : (UInt32.ofNat i.val).toNat = i.val := by
  have hi : i.val < 4 := i.isLt
  rw [UInt32.toNat_ofNat', Nat.mod_eq_of_lt (by omega)]

theorem startVm_created_eq {hw : Fin maxVms → Hardware} {i : Fin maxVms} (h : m.isCreated i = true) :
    m.startVm (hw i) (UInt32.ofNat i) = match (hw i).setActive with
      | some e => (.error e, m)
      | none => (.ok (), m.launched hw i) := by
  obtain ⟨vm, hvm, hstate⟩ := (Option.any_eq_true _ _).1 h
  have hlookup := m.lookup_ok.2 ⟨ofNat_toNat i, hvm⟩
  have hmark : vm.markRunning = (.ok (), { vm with state := .running }) := by
    simp only [Vm.markRunning, Vm.transition, if_pos (of_decide_eq_true hstate)]
  rw [startVm, hlookup]
  cases (hw i).setActive with
  | none => simp only [launched, hvm, hmark]
  | some e => rfl

theorem isCreated_launched {hw : Fin maxVms → Hardware} {i : Fin maxVms} (h : m.isCreated i = true) :
    (m.launched hw i).isCreated = Function.update m.isCreated i false := by
  obtain ⟨vm, hvm, -⟩ := (Option.any_eq_true _ _).1 h
  simp only [launched, hvm]
  rw [isCreated_setVm, decide_eq_false (finish_state _ vm)]

/-- How many VMs are to be started. -/
def createdCount : Nat := (List.finRange maxVms).countP m.isCreated

theorem createdCount_launched {hw : Fin maxVms → Hardware} {i : Fin maxVms} (h : m.isCreated i = true) :
    (m.launched hw i).createdCount < m.createdCount := by
  have htake := @countP_take (Function.update m.isCreated i false) i (Function.update_self i false m.isCreated)
  rw [Function.update_idem, ← h, Function.update_eq_self] at htake
  rw [createdCount, createdCount, htake, isCreated_launched m h]
  omega

theorem nextRunnable_created {cursor i : Fin maxVms} (h : (m.nextRunnable cursor).1 = some i) : m.isCreated i = true := by
  have heq := m.nextRunnable_eq cursor
  split at heq
  · rename_i j q hturn
    obtain ⟨-, -, -, -, hready, -⟩ := turn_some.1 hturn
    rw [heq.1] at h
    rwa [← Option.some.inj h]
  · rw [heq] at h
    cases h

theorem startVm_ok_launched {hw : Fin maxVms → Hardware} {i : Fin maxVms} (h : m.isCreated i = true)
    (hok : (m.startVm (hw i) (UInt32.ofNat i)).1 = .ok ()) :
    (m.startVm (hw i) (UInt32.ofNat i)).2 = m.launched hw i := by
  rw [startVm_created_eq m h] at hok ⊢
  split at hok
  · cases hok
  · rfl

/-- One start after the other, until one fails. -/
def launchAll (hw : Fin maxVms → Hardware) (m : Manager) : List (Fin maxVms) → HyperResult (List (Fin maxVms)) × Manager
  | [] => (.ok [], m)
  | i :: rest =>
    match (hw i).setActive with
    | some e => (.error e, m)
    | none => ((launchAll hw (m.launched hw i) rest).1.map (i :: ·), (launchAll hw (m.launched hw i) rest).2)

end Manager

/-! ## The namespace -/

/-- `VmNamespace`: a capability over a VM. -/
structure VmNamespace where
  cap : KernelCap
deriving DecidableEq, Repr

namespace VmNamespace

def new (cap : KernelCap) : HyperResult VmNamespace :=
  match cap.object with
  | .vm _ => (cap.check .invoke).map fun _ => ⟨cap⟩
  | _ => .error (.denied "VmNamespace: cap is not a Vm object")

variable (ns : VmNamespace)

/-- A call that changes the table, behind the rights it needs. -/
def call {α : Type} (needed : Rights) (m : Manager) (f : HyperResult α × Manager) : HyperResult α × Manager :=
  match ns.cap.check needed with
  | .error e => (.error e, m)
  | .ok () => f

def createVm (m : Manager) (hw : Hardware) (req : CreateVmRequest) : HyperResult (Fin maxVms) × Manager :=
  ns.call (.invoke ||| .write) m (m.createVm hw req)

def startVm (m : Manager) (hw : Hardware) (id : UInt32) : HyperResult Unit × Manager :=
  ns.call .invoke m (m.startVm hw id)

def stopVm (m : Manager) (id : UInt32) : HyperResult Unit × Manager := ns.call (.invoke ||| .write) m (m.stopVm id)

def listVms (m : Manager) : HyperResult (Fin maxVms → Option VmListEntry) := (ns.cap.check .read).map fun _ => m.listVms

def vmCount (m : Manager) : HyperResult Nat := (ns.cap.check .read).map fun _ => m.vmCount

def vmState (m : Manager) (id : UInt32) : HyperResult VmState := do
  ns.cap.check .read
  (m.lookup id).map fun p => p.2.state

/-- Nothing where an index is out of bounds. -/
def pathFor (id : UInt32) (buf : List UInt8) : Option (HyperResult (List UInt8)) :=
  match ns.cap.check .read with
  | .error e => some (.error e)
  | .ok () => Manager.pathFor id buf

def resolvePath (m : Manager) (path : String) : HyperResult UInt32 := do
  ns.cap.check .read
  m.resolvePath path

/-! ## The loop -/

theorem startVm_ok {m : Manager} {hw : Hardware} {id : UInt32} (h : (ns.startVm m hw id).1 = .ok ()) :
    (m.startVm hw id).1 = .ok () ∧ (ns.startVm m hw id).2 = (m.startVm hw id).2 := by
  unfold startVm call at h ⊢
  split at h
  · cases h
  · exact ⟨h, rfl⟩

theorem createdCount_startVm {m : Manager} {hw : Fin maxVms → Hardware} {cursor i : Fin maxVms}
    (hnext : (m.nextRunnable cursor).1 = some i) (hstart : (ns.startVm m (hw i) (UInt32.ofNat i)).1 = .ok ()) :
    (ns.startVm m (hw i) (UInt32.ofNat i)).2.createdCount < m.createdCount := by
  obtain ⟨hok, heq⟩ := ns.startVm_ok hstart
  rw [heq, m.startVm_ok_launched (m.nextRunnable_created hnext) hok]
  exact m.createdCount_launched (m.nextRunnable_created hnext)

/-- The loop of `bring_up`: which VMs were started, or how it ended early. -/
def drain (hw : Fin maxVms → Hardware) (m : Manager) (cursor : Fin maxVms) : HyperResult (List (Fin maxVms)) × Manager :=
  match hnext : (m.nextRunnable cursor).1 with
  | none => (.ok [], m)
  | some i =>
    match hstart : (ns.startVm m (hw i) (UInt32.ofNat i)).1 with
    | .error e => (.error e, (ns.startVm m (hw i) (UInt32.ofNat i)).2)
    | .ok () =>
      match ns.vmState (ns.startVm m (hw i) (UInt32.ofNat i)).2 (UInt32.ofNat i) with
      | .error e => (.error e, (ns.startVm m (hw i) (UInt32.ofNat i)).2)
      | .ok _ =>
        have := ns.createdCount_startVm hnext hstart
        let rest := drain hw (ns.startVm m (hw i) (UInt32.ofNat i)).2 (m.nextRunnable cursor).2
        (rest.1.map (i :: ·), rest.2)
termination_by m.createdCount

/-- **The loop is one pass over the VMs that were `Created` when it began**, in the order of the slots from the cursor on:
none is started twice, and none is left out. -/
theorem drain_eq (hread : ns.cap.check .read = .ok ()) (hinvoke : ns.cap.check .invoke = .ok ())
    (hw : Fin maxVms → Hardware) (m : Manager) (cursor : Fin maxVms) :
    ns.drain hw m cursor = m.launchAll hw ((Manager.queue cursor).filter m.isCreated) := by
  induction hn : m.createdCount using Nat.strong_induction_on generalizing m cursor with
  | _ n ih =>
    have heq := m.nextRunnable_eq cursor
    rw [drain]
    split at heq
    · rename_i i q hturn
      obtain ⟨hnext, hqueue⟩ := heq
      obtain ⟨before, after, hq, hbefore, hready, rfl⟩ := turn_some.1 hturn
      have hdup : (before ++ i :: after).Nodup := hq ▸ nodup_order cursor.val
      have hnone : before.filter m.isCreated = [] := List.filter_eq_nil_iff.2 fun b hb => by simp [hbefore b hb]
      have hfilter : (Manager.queue cursor).filter m.isCreated = i :: after.filter m.isCreated := by
        rw [hq, List.filter_append, hnone, List.nil_append, List.filter_cons_of_pos hready]
      -- What is left of the queue is what comes after.
      have hrest : (after ++ before ++ [i]).filter (m.launched hw i).isCreated = after.filter m.isCreated := by
        have hother : ∀ j, j ≠ i → (m.launched hw i).isCreated j = m.isCreated j := by
          intro j hj
          rw [m.isCreated_launched hready, Function.update_of_ne hj]
        have hself : (m.launched hw i).isCreated i = false := by
          rw [m.isCreated_launched hready, Function.update_self]
        have hin := List.nodup_append.1 hdup
        have hafter : after.filter (m.launched hw i).isCreated = after.filter m.isCreated := by
          refine List.filter_congr fun j hj => hother j ?_
          rintro rfl
          exact (List.nodup_cons.1 hin.2.1).1 hj
        have hpassed : before.filter (m.launched hw i).isCreated = [] := by
          refine List.filter_eq_nil_iff.2 fun j hj => ?_
          rw [hother j fun heq => hin.2.2 j hj i List.mem_cons_self heq, hbefore j hj]
          exact Bool.false_ne_true
        rw [List.filter_append, List.filter_append, hafter, hpassed, List.append_nil,
          List.filter_cons_of_neg (by rw [hself]; exact Bool.false_ne_true), List.filter_nil, List.append_nil]
      rw [hfilter, Manager.launchAll]
      split
      · rename_i hn'
        rw [hnext] at hn'
        cases hn'
      · rename_i j hj
        obtain rfl : i = j := Option.some.inj ((congrArg Prod.fst hnext).symm.trans hj)
        have hns : ns.startVm m (hw i) (UInt32.ofNat i) = m.startVm (hw i) (UInt32.ofNat i) := by
          rw [startVm, call, hinvoke]
        have hstart := @Manager.startVm_created_eq m hw _ hready
        split
        · rename_i e he
          rw [hns, hstart] at he ⊢
          cases hactive : (hw i).setActive with
          | none =>
            rw [hactive] at he
            cases he
          | some e' =>
            rw [hactive] at he
            cases he
            rfl
        · rename_i hok
          rw [hns] at hok
          have hm := m.startVm_ok_launched hready hok
          have hsmall := @Manager.createdCount_launched m hw _ hready
          have hactive : (hw i).setActive = none := by
            rw [hstart] at hok
            cases hactive : (hw i).setActive with
            | none => rfl
            | some e' =>
              rw [hactive] at hok
              cases hok
          obtain ⟨st, hst⟩ : ∃ st, ns.vmState (m.launched hw i) (UInt32.ofNat i) = .ok st := by
            obtain ⟨vm, hvm, -⟩ := (Option.any_eq_true _ _).1 hready
            have hthere : (m.launched hw i).registry i = some ((hw i).launch.finish { vm with state := .running }) := by
              simp only [Manager.launched, hvm]
              exact Function.update_self i _ _
            refine ⟨((hw i).launch.finish { vm with state := .running }).state, ?_⟩
            rw [vmState, hread, (Manager.lookup_ok _).2 ⟨Manager.ofNat_toNat i, hthere⟩]
            rfl
          simp only [hns, hactive, hm, hst, hnext]
          rw [ih _ (hn ▸ hsmall) _ _ rfl, hqueue, hrest]
    · rename_i hturn
      have hall := turn_none.1 hturn
      have hfilter : (Manager.queue cursor).filter m.isCreated = [] :=
        List.filter_eq_nil_iff.2 fun j _ => by simp [hall j (mem_order _ j)]
      rw [hfilter, Manager.launchAll]
      split
      · rfl
      · rename_i j hj
        rw [heq] at hj
        cases hj

end VmNamespace

/-! ## The boot image -/

/-- What `bring_up` reads of the handoff. -/
structure CeliumHandoff where
  vmx : Bool
  svm : Bool
  bootImagePhys : Nat
  bootImageLen : Nat
  bootImageCrc32c : UInt32
deriving DecidableEq, Repr

namespace BootImage

variable (h : CeliumHandoff) (memory : Nat → UInt8)

/-- Nothing where the loader staged no image. -/
def fromHandoff : HyperResult (Option BootImage) :=
  if h.bootImagePhys = 0 ∧ h.bootImageLen = 0 then .ok none
  else if h.bootImagePhys = 0 ∨ h.bootImageLen = 0 then
    .error (.invalidHandoff "image_loader: boot_image_phys/len half-set")
  else if h.bootImageLen > maxImageBytes then
    .error (.invalidHandoff "image_loader: handoff boot image > MAX_IMAGE_BYTES")
  else
    (fromRawBytes (Bytes.window memory h.bootImagePhys h.bootImageLen) guestLoadGpa 0
      (if h.bootImageCrc32c = 0 then none else some h.bootImageCrc32c)).map some

def fromHandoffOrEmbedded : BootImage :=
  match fromHandoff h memory with
  | .ok (some img) => img
  | .ok none => embedded
  | .error _ => embedded

theorem fromHandoffOrEmbedded_fits : (fromHandoffOrEmbedded h memory).blob.length ≤ maxImageBytes := by
  have hembedded : embedded.blob.length ≤ maxImageBytes := by
    rw [embedded_eq]
    decide +kernel
  unfold fromHandoffOrEmbedded
  split
  · rename_i img himg
    unfold fromHandoff at himg
    split at himg
    · cases himg
    · split at himg
      · cases himg
      · split at himg
        · cases himg
        · generalize hraw : fromRawBytes _ guestLoadGpa 0 _ = r at himg
          cases r with
          | error e => cases himg
          | ok img' =>
            cases himg
            exact fromRawBytes_length hraw
  · exact hembedded
  · exact hembedded

end BootImage

/-! ## The boot -/

/-- What the processor answers while the kernel boots. -/
structure BootHardware where
  /-- What `init_runtime` comes to once it has marked the runtime as there. -/
  runtime : HyperResult Unit
  createA : Hardware
  createB : Hardware
  start : Fin maxVms → Hardware

def Manager.initRuntime (m : Manager) (runtime : HyperResult Unit) : HyperResult Unit × Manager :=
  if m.runtimeReady then (.error (.denied "manager: runtime already initialised"), m)
  else (runtime, { m with runtimeReady := true })

/-- The table at boot. -/
def Manager.atBoot : Manager := { init with runtimeReady := false }

def rootCap : KernelCap := ⟨.vm 0, .read ||| .write ||| .invoke ||| .grant⟩

def isFaulted (e : VmListEntry) : Bool := e.state = .faulted

/-- `stop_vm` on every VM of the snapshot; errors are ignored. -/
def VmNamespace.stopAll (ns : VmNamespace) (snapshot : Fin maxVms → Option VmListEntry) (m : Manager) : Manager :=
  (List.finRange maxVms).foldl (fun m i =>
    match snapshot i with
    | none => m
    | some e => (ns.stopVm m e.id).2) m

section Boot

variable (ns : VmNamespace) (hw : BootHardware) (m : Manager)

/-- From the snapshot on. -/
def finishUp : HyperResult Unit × Manager :=
  match ns.listVms m with
  | .error e => (.error e, m)
  | .ok snapshot =>
    if (List.finRange maxVms).any fun i => (snapshot i).any isFaulted then
      (.error (.hardware "one or more guest VMs faulted"), ns.stopAll snapshot m)
    else (.ok (), ns.stopAll snapshot m)

/-- The loop, with the calls of the namespace, from a cursor that was reset. -/
def startUp : HyperResult Unit × Manager :=
  match ns.drain hw.start m ⟨0, Manager.maxVms_pos⟩ with
  | (.error e, m) => (.error e, m)
  | (.ok _, m) => finishUp ns m

/-- The path of a VM resolves to it. -/
def checkPath (id : Fin maxVms) : HyperResult Unit :=
  match ns.pathFor (UInt32.ofNat id) (List.replicate 32 0) with
  | none => .error (.internal "index out of bounds")
  | some (.error e) => .error e
  | some (.ok path) => do
    let resolved ← ns.resolvePath m (String.ofList (path.map fun b => Char.ofNat b.toNat))
    if resolved ≠ UInt32.ofNat id then .error (.internal "path round-trip mismatch") else .ok ()

/-- From the creation of the two VMs on. -/
def bootVms (req : CreateVmRequest) : HyperResult Unit × Manager :=
  match ns.createVm m hw.createA req with
  | (.error e, m) => (.error e, m)
  | (.ok a, m) =>
    match ns.createVm m hw.createB req with
    | (.error e, m) => (.error e, m)
    | (.ok _, m) =>
      match ns.vmCount m with
      | .error e => (.error e, m)
      | .ok _ =>
        match checkPath ns m a with
        | .error e => (.error e, m)
        | .ok () => startUp ns hw m

/-- `bring_up`. -/
def bringUp (h : CeliumHandoff) (memory : Nat → UInt8) : HyperResult Unit × Manager :=
  if !(h.vmx || h.svm) then (.error (.unsupportedCpu "no VMX and no SVM"), m)
  else if !h.vmx then (.error (.unimplemented "AMD-V bring-up (Week-8)"), m)
  else match VmNamespace.new rootCap with
    | .error e => (.error e, m)
    | .ok ns =>
      match m.initRuntime hw.runtime with
      | (.error e, m) => (.error e, m)
      | (.ok (), m) => bootVms ns hw m (.fromBootImage (BootImage.fromHandoffOrEmbedded h memory))

end Boot

/-! ## What the boot comes to -/

/-- The namespace that `bring_up` makes. -/
def rootNs : VmNamespace := ⟨rootCap⟩

section Path

/-- The path of a slot as characters. -/
def slotPath (i : Fin maxVms) : List Char := "/vms/".toList ++ Nat.toDigits 10 i

theorem pathFor_slot : ∀ i : Fin maxVms, Manager.pathFor (UInt32.ofNat i) (List.replicate 32 0) =
    some (.ok ((slotPath i).map Char.toUInt8)) := by decide

theorem slotPath_chars : ∀ i : Fin maxVms,
    ((slotPath i).map Char.toUInt8).map (fun b => Char.ofNat b.toNat) = slotPath i := by decide

theorem slotPath_segment : ∀ i : Fin maxVms,
    ((Nat.toDigits 10 i).isEmpty || (Nat.toDigits 10 i).contains '/') = false := by decide

theorem slotPath_parse : ∀ i : Fin maxVms,
    Manager.parseU32 (String.ofList (Nat.toDigits 10 i)) = some (UInt32.ofNat i) := by decide

/-- **The path of a VM resolves to it.** -/
theorem checkPath_ok {m : Manager} {i : Fin maxVms} {vm : Vm} (hvm : m.registry i = some vm) :
    checkPath rootNs m i = .ok () := by
  have hresolve : m.resolvePath (String.ofList (slotPath i)) = .ok (UInt32.ofNat i) := by
    refine resolveVmPath_ok.2 ⟨Nat.toDigits 10 i, String.toList_ofList, slotPath_segment i, slotPath_parse i, (i, vm), ?_⟩
    exact m.lookup_ok.2 ⟨Manager.ofNat_toNat i, hvm⟩
  have hpath : rootNs.pathFor (UInt32.ofNat i) (List.replicate 32 0) = some (.ok ((slotPath i).map Char.toUInt8)) :=
    pathFor_slot i
  have hread : rootNs.resolvePath m (String.ofList (slotPath i)) = .ok (UInt32.ofNat i) := hresolve
  simp only [checkPath, hpath, slotPath_chars, hread]
  exact if_neg (not_not.2 rfl)

end Path

section Outcome

/-- A guest that exits for anything but `HLT`. -/
def Launch.Faults (launch : Launch) : Prop := ∃ reason, launch = .exit reason ∧ reason ≠ exitReasonHlt

/-- A VM that was started, and stopped if it did not end. -/
def Launch.final (launch : Launch) (req : CreateVmRequest) : Vm :=
  let vm := launch.finish { Vm.new req with state := .running }
  if vm.state.isTerminal then vm else vm.stop.2

theorem Launch.final_state (launch : Launch) (req : CreateVmRequest) : (launch.final req).guest = req ∧
    (¬ launch.Faults → (launch.final req).state = if launch = .exit exitReasonHlt then .halted else .stopped) := by
  cases launch with
  | exit reason =>
    by_cases hhlt : reason = exitReasonHlt
    · subst hhlt
      exact ⟨rfl, fun _ => rfl⟩
    · refine ⟨?_, fun h => absurd ⟨reason, rfl, hhlt⟩ h⟩
      simp [Launch.final, Launch.finish, Vm.onExit, Vm.transition, hhlt, VmState.isTerminal, Vm.new]
  | unreadable => exact ⟨rfl, fun _ => rfl⟩
  | failed => exact ⟨rfl, fun _ => rfl⟩

/-- The VM as the snapshot shows it faulted exactly if its guest did. -/
theorem finish_faulted (launch : Launch) (vm : Vm) :
    (launch.finish { vm with state := .running }).state = .faulted ↔ launch.Faults := by
  cases launch with
  | exit reason =>
    by_cases hhlt : reason = exitReasonHlt
    · refine iff_of_false (by simp [Launch.finish, Vm.onExit, Vm.transition, hhlt]) ?_
      rintro ⟨r, hr, hne⟩
      cases hr
      exact hne hhlt
    · exact iff_of_true (by simp [Launch.finish, Vm.onExit, Vm.transition, hhlt]) ⟨reason, rfl, hhlt⟩
  | unreadable => exact iff_of_false (by simp [Launch.finish]) (by rintro ⟨r, hr, -⟩; cases hr)
  | failed => exact iff_of_false (by simp [Launch.finish, Vm.stop]) (by rintro ⟨r, hr, -⟩; cases hr)

def slotA : Fin maxVms := ⟨0, Manager.RunQueue.zero_lt_maxVms⟩
def slotB : Fin maxVms := ⟨1, Manager.RunQueue.one_lt_maxVms⟩

/-- The two VMs as they were created, and any two in their places. -/
def twoVms (a b : Vm) : Manager :=
  { Manager.init with occupied := Function.update (Function.update Manager.init.occupied slotA true) slotB true
                      registry := Function.update (Function.update Manager.init.registry slotA (some a)) slotB (some b) }

variable {req : CreateVmRequest} {hw : BootHardware} {a b : Vm}

theorem twoVms_registry (i : Fin maxVms) : (twoVms a b).registry i =
    if i = slotA then some a else if i = slotB then some b else none := by
  have hall : ∀ i : Fin maxVms, i = slotA ∨ i = slotB ∨ i = ⟨2, by decide⟩ ∨ i = ⟨3, by decide⟩ := by decide
  rcases hall i with rfl | rfl | rfl | rfl
  · rfl
  · rfl
  · rfl
  · rfl

theorem twoVms_setA (a' : Vm) : (twoVms a b).setVm slotA a' = twoVms a' b := by
  rw [Manager.setVm, twoVms, twoVms, Manager.mk.injEq]
  refine ⟨rfl, rfl, ?_, rfl⟩
  rw [Function.update_comm (by decide), Function.update_idem]

theorem twoVms_setB (b' : Vm) : (twoVms a b).setVm slotB b' = twoVms a b' := by
  rw [Manager.setVm, twoVms, twoVms, Manager.mk.injEq]
  exact ⟨rfl, rfl, Function.update_idem _ _ _, rfl⟩

theorem bootVms_created (hfits : req.blob.length ≤ maxImageBytes) (hA : hw.createA.create = none)
    (hB : hw.createB.create = none) : bootVms rootNs hw .init req = startUp rootNs hw (twoVms (Vm.new req) (Vm.new req)) := by
  have hfirst : rootNs.createVm .init hw.createA req = (.ok slotA, Manager.init.allocate slotA req) :=
    Manager.init.createVm_fine rfl hA hfits rfl
  have hsecond : rootNs.createVm (Manager.init.allocate slotA req) hw.createB req =
      (.ok slotB, twoVms (Vm.new req) (Vm.new req)) :=
    (Manager.init.allocate slotA req).createVm_fine rfl hB hfits rfl
  have hcount : rootNs.vmCount (twoVms (Vm.new req) (Vm.new req)) = .ok (twoVms (Vm.new req) (Vm.new req)).vmCount := rfl
  simp only [bootVms, hfirst, hsecond, hcount, checkPath_ok (twoVms_registry slotA)]

/-- A create that fails ends the boot. -/
theorem bootVms_refused (h : ¬ (hw.createA.create = none ∧ hw.createB.create = none)) :
    ∃ e, (bootVms rootNs hw .init req).1 = .error e := by
  unfold bootVms
  rcases hfirst : rootNs.createVm .init hw.createA req with ⟨e | i, m⟩
  · exact ⟨e, rfl⟩
  simp only
  rcases hsecond : rootNs.createVm m hw.createB req with ⟨e | j, m'⟩
  · exact ⟨e, rfl⟩
  have hfine : ∀ {m m' : Manager} {i : Fin maxVms} {hw : Hardware}, rootNs.createVm m hw req = (.ok i, m') →
      hw.create = none := by
    intro m m' i hw hok
    rcases m.createVm_cases hw req with ⟨e, occupied, heq, -⟩ | ⟨j, -, -, hnone⟩
    · cases hok.symm.trans heq
    · exact hnone
  exact absurd ⟨hfine hfirst, hfine hsecond⟩ h

/-- How the starts of both VMs come out. -/
theorem launch_two : (twoVms (Vm.new req) (Vm.new req)).launchAll hw.start [slotA, slotB] =
    match (hw.start slotA).setActive with
    | some e => (.error e, twoVms (Vm.new req) (Vm.new req))
    | none =>
      let a := (hw.start slotA).launch.finish { Vm.new req with state := .running }
      match (hw.start slotB).setActive with
      | some e => (.error e, twoVms a (Vm.new req))
      | none => (.ok [slotA, slotB], twoVms a ((hw.start slotB).launch.finish { Vm.new req with state := .running })) := by
  have hA : (twoVms (Vm.new req) (Vm.new req)).launched hw.start slotA =
      twoVms ((hw.start slotA).launch.finish { Vm.new req with state := .running }) (Vm.new req) := twoVms_setA _
  have hB : ∀ a, (twoVms a (Vm.new req)).launched hw.start slotB =
      twoVms a ((hw.start slotB).launch.finish { Vm.new req with state := .running }) := fun a => twoVms_setB _
  rw [Manager.launchAll, hA]
  cases (hw.start slotA).setActive with
  | some e => rfl
  | none =>
    dsimp only
    rw [Manager.launchAll, hB]
    cases (hw.start slotB).setActive with
    | some e => rfl
    | none => rfl

/-- A VM as `stop_vm` leaves it. -/
def Vm.ended (vm : Vm) : Vm := if vm.state.isTerminal then vm else vm.stop.2

theorem stop_A : (rootNs.stopVm (twoVms a b) 0).2 = twoVms a.ended b := by
  change ((twoVms a b).stopVm 0).2 = _
  have hlookup : (twoVms a b).lookup 0 = .ok (slotA, a) := rfl
  simp only [Manager.stopVm, hlookup, Vm.ended]
  split
  · rfl
  · exact twoVms_setA _

theorem stop_B : (rootNs.stopVm (twoVms a b) 1).2 = twoVms a b.ended := by
  change ((twoVms a b).stopVm 1).2 = _
  have hlookup : (twoVms a b).lookup 1 = .ok (slotB, b) := rfl
  simp only [Manager.stopVm, hlookup, Vm.ended]
  split
  · rfl
  · exact twoVms_setB _

/-- **The end of a boot**: it is an error exactly if one of the VMs faulted, and both are stopped if they have not ended. -/
theorem finishUp_two : ((finishUp rootNs (twoVms a b)).1 = .ok () ↔ a.state ≠ .faulted ∧ b.state ≠ .faulted) ∧
    (finishUp rootNs (twoVms a b)).2 = twoVms a.ended b.ended := by
  have hlist : rootNs.listVms (twoVms a b) = .ok (twoVms a b).listVms := rfl
  have hstop : rootNs.stopAll (twoVms a b).listVms (twoVms a b) = twoVms a.ended b.ended := by
    change (rootNs.stopVm (rootNs.stopVm (twoVms a b) 0).2 1).2 = _
    rw [stop_A, stop_B]
  have hany : ((List.finRange maxVms).any fun i => ((twoVms a b).listVms i).any isFaulted) =
      (decide (a.state = .faulted) || decide (b.state = .faulted)) := by
    change (decide (a.state = .faulted) || (decide (b.state = .faulted) || (false || (false || false)))) = _
    rw [Bool.or_false, Bool.or_false, Bool.or_false]
  rw [finishUp, hlist]
  simp only [hany, hstop]
  by_cases hfault : a.state = .faulted ∨ b.state = .faulted
  · rw [if_pos (by simpa using hfault)]
    refine ⟨iff_of_false (fun h => by cases h) fun h => ?_, rfl⟩
    exact hfault.elim h.1 h.2
  · rw [if_neg (by simpa using hfault)]
    exact ⟨iff_of_true rfl (not_or.1 hfault), rfl⟩

theorem filter_two : (Manager.queue ⟨0, Manager.maxVms_pos⟩).filter (twoVms (Vm.new req) (Vm.new req)).isCreated =
    [slotA, slotB] := rfl

/-- What a boot needs of the processor. -/
structure BootFine (h : CeliumHandoff) (hw : BootHardware) : Prop where
  vmx : h.vmx = true
  runtime : hw.runtime = .ok ()
  createA : hw.createA.create = none
  createB : hw.createB.create = none
  active : ∀ i ∈ [slotA, slotB], (hw.start i).setActive = none
  clean : ∀ i ∈ [slotA, slotB], ¬ (hw.start i).launch.Faults

/-- From the creation of the VMs on. -/
theorem startUp_two : ((startUp rootNs hw (twoVms (Vm.new req) (Vm.new req))).1 = .ok () ↔
      (∀ i ∈ [slotA, slotB], (hw.start i).setActive = none) ∧ ∀ i ∈ [slotA, slotB], ¬ (hw.start i).launch.Faults) ∧
    ((startUp rootNs hw (twoVms (Vm.new req) (Vm.new req))).1 = .ok () →
      (startUp rootNs hw (twoVms (Vm.new req) (Vm.new req))).2 =
        twoVms ((hw.start slotA).launch.final req) ((hw.start slotB).launch.final req)) := by
  rw [startUp, rootNs.drain_eq rfl rfl, filter_two, launch_two]
  simp only [List.forall_mem_cons, List.not_mem_nil, false_implies, implies_true, and_true]
  cases hA : (hw.start slotA).setActive with
  | some e => exact ⟨iff_of_false (fun h => by cases h) (fun h => by cases h.1.1), fun h => by cases h⟩
  | none =>
    dsimp only
    cases hB : (hw.start slotB).setActive with
    | some e => exact ⟨iff_of_false (fun h => by cases h) (fun h => by cases h.1.2), fun h => by cases h⟩
    | none =>
      dsimp only
      obtain ⟨hok, hend⟩ := @finishUp_two ((hw.start slotA).launch.finish { Vm.new req with state := .running })
        ((hw.start slotB).launch.finish { Vm.new req with state := .running })
      rw [hok, Ne, Ne, finish_faulted, finish_faulted]
      refine ⟨⟨fun h => ⟨⟨rfl, rfl⟩, h⟩, fun h => h.2⟩, fun _ => ?_⟩
      rw [hend]
      rfl

/-- What `bring_up` needs before it starts a VM. -/
def Creates (h : CeliumHandoff) (hw : BootHardware) : Prop :=
  h.vmx = true ∧ hw.runtime = .ok () ∧ hw.createA.create = none ∧ hw.createB.create = none

theorem bringUp_creates {h : CeliumHandoff} (memory : Nat → UInt8) (hc : Creates h hw) :
    bringUp hw .atBoot h memory = startUp rootNs hw
      (twoVms (Vm.new (.fromBootImage (BootImage.fromHandoffOrEmbedded h memory)))
        (Vm.new (.fromBootImage (BootImage.fromHandoffOrEmbedded h memory)))) := by
  obtain ⟨hvmx, hruntime, hA, hB⟩ := hc
  have hns : VmNamespace.new rootCap = .ok rootNs := rfl
  have hinit : Manager.atBoot.initRuntime (.ok ()) = (.ok (), Manager.init) := rfl
  rw [← bootVms_created (BootImage.fromHandoffOrEmbedded_fits h memory) hA hB]
  simp only [bringUp, hvmx, hruntime, hns, hinit, Bool.true_or, Bool.not_true, Bool.false_eq_true, if_false]

theorem bringUp_refused {h : CeliumHandoff} (memory : Nat → UInt8) (hc : ¬ Creates h hw) :
    ∃ e, (bringUp hw .atBoot h memory).1 = .error e := by
  unfold bringUp
  split
  · exact ⟨_, rfl⟩
  split
  · exact ⟨_, rfl⟩
  rename_i hvmx
  have hns : VmNamespace.new rootCap = .ok rootNs := rfl
  have hinit : Manager.atBoot.initRuntime hw.runtime = (hw.runtime, Manager.init) := rfl
  simp only [hns, hinit]
  cases hruntime : hw.runtime with
  | error e => exact ⟨e, rfl⟩
  | ok u => exact bootVms_refused fun hcreate => hc ⟨by simpa using hvmx, hruntime, hcreate.1, hcreate.2⟩

/-- **`bring_up` succeeds exactly if the processor plays along and no guest faults.**  Then both VMs have been started from
the boot image, and each has halted, if its guest did, or is stopped; there are no others. -/
theorem bring_up_ok_iff (h : CeliumHandoff) (memory : Nat → UInt8) (hw : BootHardware) :
    ((bringUp hw .atBoot h memory).1 = .ok () ↔ BootFine h hw) ∧
    ((bringUp hw .atBoot h memory).1 = .ok () → ∀ i,
      if i = slotA ∨ i = slotB then
        ∃ vm, (bringUp hw .atBoot h memory).2.registry i = some vm ∧
          vm.guest = .fromBootImage (BootImage.fromHandoffOrEmbedded h memory) ∧
          vm.state = if (hw.start i).launch = .exit exitReasonHlt then .halted else .stopped
      else (bringUp hw .atBoot h memory).2.registry i = none) := by
  by_cases hc : Creates h hw
  · rw [bringUp_creates memory hc]
    generalize CreateVmRequest.fromBootImage (BootImage.fromHandoffOrEmbedded h memory) = req
    obtain ⟨hok, hend⟩ := @startUp_two req hw
    rw [hok]
    refine ⟨⟨fun h' => ⟨hc.1, hc.2.1, hc.2.2.1, hc.2.2.2, h'.1, h'.2⟩, fun h' => ⟨h'.active, h'.clean⟩⟩, fun h' i => ?_⟩
    rw [hend (hok.2 h'), twoVms_registry]
    have hclean := h'.2
    rw [List.forall_mem_cons, List.forall_mem_cons] at hclean
    by_cases hA : i = slotA
    · subst hA
      obtain ⟨hguest, hstate⟩ := (hw.start slotA).launch.final_state req
      rw [if_pos (.inl rfl), if_pos rfl]
      exact ⟨_, rfl, hguest, hstate hclean.1⟩
    · by_cases hB : i = slotB
      · subst hB
        obtain ⟨hguest, hstate⟩ := (hw.start slotB).launch.final_state req
        rw [if_pos (.inr rfl), if_neg hA, if_pos rfl]
        exact ⟨_, rfl, hguest, hstate hclean.2.1⟩
      · rw [if_neg (not_or.2 ⟨hA, hB⟩), if_neg hA, if_neg hB]
  · obtain ⟨e, he⟩ := bringUp_refused memory hc
    rw [he]
    exact ⟨iff_of_false (fun h => by cases h) fun h => hc ⟨h.vmx, h.runtime, h.createA, h.createB⟩, fun h => by cases h⟩

end Outcome

end Celium
