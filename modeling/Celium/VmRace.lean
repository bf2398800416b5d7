import Celium.Lib.Runs
import Celium.Manager
import Mathlib.Data.List.ReduceOption
/-!
# VmRace — one VM under calls that interleave

`celhyper::vm`, each call cut into the atomic steps it takes: `mark_running` is one compare-and-swap on the state,
`on_exit` (what `dispatch_exit` does to the active VM) a store of the reason and then one compare-and-swap, `stop` one or
two.  Any number of calls are in flight, and a run is any order in which calls begin and take their steps.  The reason is
stored before the state is looked at, so it is that of the `on_exit` that stored last, whatever became of its transition.
-/
namespace Celium

open Runs

/-- A basic exit reason other than the value that stands for none. -/
abbrev BasicReason := {r : UInt32 // r ≠ 0xFFFFFFFF}

/-- The state an exit leads to. -/
def ExitOutcome.next : ExitOutcome → VmState
  | .halted => .halted
  | .faulted => .faulted

theorem ExitOutcome.next_isTerminal (outcome : ExitOutcome) : outcome.next.isTerminal = true := by
  cases outcome <;> rfl

theorem ExitOutcome.next_eq (outcome : ExitOutcome) : outcome.next = .halted ∨ outcome.next = .faulted := by
  cases outcome
  · exact .inl rfl
  · exact .inr rfl

/-- `compare_exchange` on the state: whether it held `current`, and what it leaves. -/
def Vm.compareExchange (vm : Vm) (current new : VmState) : Bool × Vm :=
  if vm.state = current then (true, { vm with state := new }) else (false, vm)

/-! ## Calls and their steps -/

inductive VmCall where
  | markRunning
  | onExit (reason : BasicReason) (outcome : ExitOutcome)
  | stop
deriving DecidableEq

/-- Where a call stands: the step it takes next. -/
inductive VmPoint where
  | markRunning
  | store (reason : BasicReason) (outcome : ExitOutcome)
  | exit (reason : BasicReason) (outcome : ExitOutcome)
  | stopCreated
  | stopRunning
deriving DecidableEq

def VmCall.entry : VmCall → VmPoint
  | .markRunning => .markRunning
  | .onExit reason outcome => .store reason outcome
  | .stop => .stopCreated

/-- What the call does in one piece. -/
def VmCall.alone (vm : Vm) : VmCall → Vm
  | .markRunning => vm.markRunning.2
  | .onExit reason outcome => vm.onExit reason outcome
  | .stop => vm.stop.2

/-- What a step leaves in the history: a reason that was stored, or what a call returned. -/
inductive VmNote where
  | stored (reason : BasicReason)
  | markRunning (result : HyperResult Unit)
  | onExit (reason : BasicReason) (outcome : ExitOutcome) (result : HyperResult VmState)
  | stop (result : HyperResult Unit)

namespace VmNote

def reason : VmNote → Option UInt32
  | .stored reason => some reason
  | _ => none

/-- The `on_exit` call that moved the VM. -/
def mover : VmNote → Option (BasicReason × ExitOutcome)
  | .onExit reason outcome (.ok _) => some (reason, outcome)
  | _ => none

/-- An `on_exit` call that returned an error. -/
def Refused : VmNote → Prop
  | .onExit _ _ (.error _) => True
  | _ => False

/-- What a `mark_running` or a `stop` returned. -/
def Other : VmNote → Prop
  | .markRunning _ => True
  | .stop _ => True
  | _ => False

end VmNote

/-- The step: what it leaves in the history, the VM after it, and where the call stands if it has not returned. -/
def VmPoint.exec (vm : Vm) : VmPoint → Option VmNote × Vm × Option VmPoint
  | .markRunning =>
    let (result, vm) := vm.transition .created .running
    (some (.markRunning result), vm, none)
  | .store reason outcome => (some (.stored reason), { vm with lastExitReason := reason }, some (.exit reason outcome))
  | .exit reason outcome =>
    let (result, vm) := vm.transition .running outcome.next
    (some (.onExit reason outcome (result.map (fun _ => outcome.next))), vm, none)
  | .stopCreated =>
    let (fromCreated, vm) := vm.compareExchange .created .stopped
    if fromCreated then (some (.stop (.ok ())), vm, none) else (none, vm, some .stopRunning)
  | .stopRunning =>
    let (fromRunning, vm) := vm.compareExchange .running .stopped
    if fromRunning then (some (.stop (.ok ())), vm, none)
    else (some (.stop (.error (.denied "Vm::stop: not in Created/Running"))), vm, none)

/-- The VM, and the calls in flight by number. -/
structure VmRace where
  vm : Vm
  calls : Nat → Option VmPoint

inductive VmEvent where
  /-- A call begins, under a number no call in flight has. -/
  | call (i : Nat) (c : VmCall)
  /-- The call takes its next step. -/
  | step (i : Nat)

namespace VmRace

def start (guest : CreateVmRequest) : VmRace := ⟨.new guest, fun _ => none⟩

def step (s : VmRace) : VmEvent → Option VmNote × VmRace
  | .call i c =>
    match s.calls i with
    | none => (none, { s with calls := Function.update s.calls i (some c.entry) })
    | some _ => (none, s)
  | .step i =>
    match s.calls i with
    | none => (none, s)
    | some point =>
      let (note, vm, next) := point.exec s.vm
      (note, ⟨vm, Function.update s.calls i next⟩)

/-- No call is in flight. -/
def Quiet (s : VmRace) : Prop := ∀ i, s.calls i = none

/-- What a run leaves in the history, in order. -/
def history (s : VmRace) (as : List VmEvent) : List VmNote := (answers step s as).reduceOption

theorem step_call {s : VmRace} {i : Nat} (h : s.calls i = none) (c : VmCall) :
    s.step (.call i c) = (none, ⟨s.vm, Function.update s.calls i (some c.entry)⟩) := by
  simp only [step, h]

theorem step_busy {s : VmRace} {i : Nat} {point : VmPoint} (h : s.calls i = some point) (c : VmCall) :
    s.step (.call i c) = (none, s) := by
  simp only [step, h]

theorem step_idle {s : VmRace} {i : Nat} (h : s.calls i = none) : s.step (.step i) = (none, s) := by
  simp only [step, h]

theorem step_point {s : VmRace} {i : Nat} {point : VmPoint} (h : s.calls i = some point) :
    s.step (.step i) = ((point.exec s.vm).1, ⟨(point.exec s.vm).2.1, Function.update s.calls i (point.exec s.vm).2.2⟩) := by
  simp only [step, h]

/-! ## A call that nothing interrupts -/

/-- **Two steps in a row are the whole call**, as `manager` makes it. -/
theorem run_alone {s : VmRace} {i : Nat} (h : s.calls i = none) (c : VmCall) :
    run step s [.call i c, .step i, .step i] = ⟨VmCall.alone s.vm c, s.calls⟩ := by
  have hback : Function.update s.calls i none = s.calls := by
    rw [← h]
    exact Function.update_eq_self i s.calls
  have hidle : ∀ vm, (⟨vm, s.calls⟩ : VmRace).step (.step i) = (none, ⟨vm, s.calls⟩) := fun vm => step_idle h
  rw [run, step_call h, run, step_point (Function.update_self i _ s.calls), run]
  simp only [Function.update_idem]
  cases c with
  | markRunning =>
    simp only [VmCall.entry, VmPoint.exec, hback, hidle]
    rfl
  | onExit reason outcome =>
    simp only [VmCall.entry, VmPoint.exec]
    rw [step_point (Function.update_self i _ s.calls)]
    simp only [Function.update_idem, VmPoint.exec, hback]
    cases outcome <;> rfl
  | stop =>
    simp only [VmCall.entry, VmPoint.exec, VmCall.alone, Vm.stop, Vm.compareExchange]
    by_cases hcreated : s.vm.state = .created
    · simp only [if_pos hcreated, if_true, hback, hidle, if_pos (Or.inl hcreated)]
      rfl
    · simp only [if_neg hcreated, Bool.false_eq_true, if_false]
      rw [step_point (Function.update_self i _ s.calls)]
      simp only [Function.update_idem, VmPoint.exec, Vm.compareExchange, hcreated, false_or]
      by_cases hrunning : s.vm.state = .running
      · simp only [if_pos hrunning, if_true, hback]
        rfl
      · simp only [if_neg hrunning, Bool.false_eq_true, if_false, hback]
        rfl

/-! ## Terminal states -/

/-- A step changes the state of a `Created` or a `Running` VM only. -/
theorem exec_state {vm : Vm} (point : VmPoint) (h : (point.exec vm).2.1.state ≠ vm.state) :
    vm.state.isTerminal = false := by
  have hlive : vm.state = .created ∨ vm.state = .running := by
    by_contra hnot
    rw [not_or] at hnot
    apply h
    cases point <;> simp [VmPoint.exec, Vm.transition, Vm.compareExchange, hnot]
  rcases hlive with hlive | hlive <;> rw [hlive] <;> rfl

theorem step_terminal {s : VmRace} (h : s.vm.state.isTerminal = true) (a : VmEvent) :
    (s.step a).2.vm.state = s.vm.state := by
  cases a with
  | call i c =>
    cases hi : s.calls i with
    | none => rw [step_call hi]
    | some point => rw [step_busy hi]
  | step i =>
    cases hi : s.calls i with
    | none => rw [step_idle hi]
    | some point =>
      rw [step_point hi]
      by_contra hne
      rw [exec_state point hne] at h
      cases h

/-- **A terminal state is never left.** -/
theorem run_terminal {s : VmRace} (h : s.vm.state.isTerminal = true) (as : List VmEvent) :
    (run step s as).vm.state = s.vm.state := by
  refine inv_run (I := fun s' : VmRace => s'.vm.state = s.vm.state) (fun s' a hs' => ?_) rfl as
  rw [step_terminal (hs' ▸ h) a]
  exact hs'

/-! ## What the history says -/

/-- The reason of the `on_exit` call that stored last. -/
def lastStored (log : List VmNote) : Option UInt32 := (log.filterMap VmNote.reason).getLast?

/-- The `on_exit` call that moved the VM. -/
def mover (log : List VmNote) : Option (BasicReason × ExitOutcome) := log.findSome? VmNote.mover

theorem lastStored_concat (log : List VmNote) (n : VmNote) :
    lastStored (log ++ [n]) = n.reason.or (lastStored log) := by
  rw [lastStored, List.filterMap_append]
  cases hn : n.reason with
  | none => simp [List.filterMap_cons_none hn, lastStored]
  | some r => simp [List.filterMap_cons_some hn]

theorem mover_concat (log : List VmNote) (n : VmNote) : mover (log ++ [n]) = (mover log).or n.mover := by
  rw [mover, List.findSome?_append, List.findSome?_singleton]
  rfl

/-- An `on_exit` call that has stored its reason: it is in flight, or it has returned. -/
def Exited (s : VmRace) (log : List VmNote) (reason : BasicReason) (outcome : ExitOutcome) : Prop :=
  (∃ i, s.calls i = some (.exit reason outcome)) ∨ ∃ result, .onExit reason outcome result ∈ log

/-- What the VM has to do with the history. -/
structure Agrees (s : VmRace) (log : List VmNote) : Prop where
  reason : s.vm.lastExit = lastStored log
  state : ∀ m, mover log = some m → s.vm.state = m.2.next
  moved : s.vm.state = .halted ∨ s.vm.state = .faulted → (mover log).isSome = true
  once : ∀ r o v, .onExit r o (.ok v) ∈ log → mover log = some (r, o)
  stored : ∀ r o, s.Exited log r o → (lastStored log).isSome = true
  storer : ∀ r, lastStored log = some r → ∃ m o, s.Exited log m o ∧ m.1 = r

theorem start_agrees (guest : CreateVmRequest) : (start guest).Agrees [] where
  reason := rfl
  state := by simp [mover]
  moved := by simp [start, Vm.new]
  once := by simp
  stored := by simp [Exited, start]
  storer := by simp [lastStored]

theorem Other.reason {n : VmNote} (h : n.Other) : n.reason = none := by
  cases n <;> first | rfl | cases h

theorem Other.mover {n : VmNote} (h : n.Other) : n.mover = none := by
  cases n <;> first | rfl | cases h

/-- Where a call goes on to no transition of an exit and came from none, the same exits are in flight. -/
theorem exits_update {calls : Nat → Option VmPoint} {i : Nat} {point : Option VmPoint}
    (hold : ∀ r o, calls i ≠ some (.exit r o)) (hnew : ∀ r o, point ≠ some (.exit r o)) (r : BasicReason)
    (o : ExitOutcome) :
    (∃ j, Function.update calls i point j = some (.exit r o)) ↔ ∃ j, calls j = some (.exit r o) := by
  constructor
  · rintro ⟨j, hj⟩
    by_cases hji : j = i
    · rw [hji, Function.update_self] at hj
      exact absurd hj (hnew r o)
    · rw [Function.update_of_ne hji] at hj
      exact ⟨j, hj⟩
  · rintro ⟨j, hj⟩
    have hji : j ≠ i := by
      rintro rfl
      exact hold r o hj
    exact ⟨j, by rw [Function.update_of_ne hji, hj]⟩

/-- A step of another call than `on_exit`, as long as it moves no VM out of a terminal state and into none an exit leads
to. -/
theorem Agrees.other {s s' : VmRace} {log : List VmNote} {note : Option VmNote} (h : s.Agrees log)
    (hreason : s'.vm.lastExit = s.vm.lastExit) (hnote : ∀ n ∈ note, n.Other)
    (hcalls : ∀ r o, (∃ i, s'.calls i = some (.exit r o)) ↔ ∃ i, s.calls i = some (.exit r o))
    (hstate : s'.vm.state = s.vm.state ∨
      (s.vm.state.isTerminal = false ∧ s'.vm.state ≠ .halted ∧ s'.vm.state ≠ .faulted)) :
    s'.Agrees (log ++ note.toList) := by
  have hlog : lastStored (log ++ note.toList) = lastStored log ∧ mover (log ++ note.toList) = mover log ∧
      ∀ r o result, .onExit r o result ∈ log ++ note.toList ↔ .onExit r o result ∈ log := by
    cases note with
    | none => simp
    | some n =>
      have hn : n.Other := hnote n rfl
      refine ⟨?_, ?_, fun r o result => ?_⟩
      · rw [Option.toList_some, lastStored_concat, Other.reason hn, Option.none_or]
      · rw [Option.toList_some, mover_concat, Other.mover hn, Option.or_none]
      · rw [Option.toList_some, List.mem_append, List.mem_singleton]
        refine or_iff_left ?_
        rintro rfl
        exact hn
  obtain ⟨hlast, hmover, hmem⟩ := hlog
  have hexited : ∀ r o, s'.Exited (log ++ note.toList) r o ↔ s.Exited log r o := by
    intro r o
    rw [Exited, Exited, hcalls]
    simp only [hmem]
  refine ⟨?_, ?_, ?_, ?_, ?_, ?_⟩
  · rw [hreason, hlast]
    exact h.reason
  · intro m hm
    rw [hmover] at hm
    rcases hstate with hsame | ⟨hlive, -, -⟩
    · rw [hsame]
      exact h.state m hm
    · rw [h.state m hm, ExitOutcome.next_isTerminal] at hlive
      cases hlive
  · intro hhalted
    rw [hmover]
    rcases hstate with hsame | ⟨-, hnot, hnot'⟩
    · exact h.moved (hsame ▸ hhalted)
    · exact absurd hhalted (not_or.2 ⟨hnot, hnot'⟩)
  · intro r o v hv
    rw [hmover]
    exact h.once r o v ((hmem r o _).1 hv)
  · intro r o hro
    rw [hlast]
    exact h.stored r o ((hexited r o).1 hro)
  · intro r hr
    rw [hlast] at hr
    obtain ⟨m, o, hm, hmr⟩ := h.storer r hr
    exact ⟨m, o, (hexited m o).2 hm, hmr⟩

/-- The store of a reason. -/
theorem Agrees.store {s : VmRace} {log : List VmNote} {i : Nat} {r : BasicReason} {o : ExitOutcome} (h : s.Agrees log) :
    (⟨{ s.vm with lastExitReason := r }, Function.update s.calls i (some (.exit r o))⟩ : VmRace).Agrees
      (log ++ [.stored r]) := by
  have hlast : lastStored (log ++ [.stored r]) = some r.1 := by
    rw [lastStored_concat]
    rfl
  have hmover : mover (log ++ [.stored r]) = mover log := by
    rw [mover_concat]
    exact Option.or_none
  refine ⟨?_, ?_, ?_, ?_, ?_, ?_⟩
  · rw [hlast]
    exact if_neg r.2
  · rw [hmover]
    exact h.state
  · rw [hmover]
    exact h.moved
  · intro r' o' v hv
    rw [hmover]
    rcases List.mem_append.1 hv with hv | hv
    · exact h.once r' o' v hv
    · cases List.mem_singleton.1 hv
  · intro r' o' _
    rw [hlast]
    rfl
  · intro r' hr'
    rw [hlast] at hr'
    exact ⟨r, o, .inl ⟨i, Function.update_self i _ s.calls⟩, Option.some.inj hr'⟩

/-- An `on_exit` call that returns: it has stored before and after. -/
theorem exited_return {s : VmRace} (log : List VmNote) {i : Nat} {r : BasicReason} {o : ExitOutcome}
    (hi : s.calls i = some (.exit r o)) (vm : Vm) (result : HyperResult VmState) (r' : BasicReason) (o' : ExitOutcome) :
    (⟨vm, Function.update s.calls i none⟩ : VmRace).Exited (log ++ [.onExit r o result]) r' o' ↔ s.Exited log r' o' := by
  constructor
  · rintro (⟨j, hj⟩ | ⟨result', hmem⟩)
    · change Function.update s.calls i none j = _ at hj
      by_cases hji : j = i
      · rw [hji, Function.update_self] at hj
        cases hj
      · rw [Function.update_of_ne hji] at hj
        exact .inl ⟨j, hj⟩
    · rcases List.mem_append.1 hmem with hmem | hmem
      · exact .inr ⟨result', hmem⟩
      · cases List.mem_singleton.1 hmem
        exact .inl ⟨i, hi⟩
  · rintro (⟨j, hj⟩ | ⟨result', hmem⟩)
    · by_cases hji : j = i
      · rw [hji, hi] at hj
        cases hj
        exact .inr ⟨result, List.mem_append_right log List.mem_cons_self⟩
      · exact .inl ⟨j, (Function.update_of_ne hji none s.calls).trans hj⟩
    · exact .inr ⟨result', List.mem_append_left _ hmem⟩

/-- No exit has moved a VM that is `Running`. -/
theorem Agrees.not_moved {s : VmRace} {log : List VmNote} (h : s.Agrees log) (hrun : s.vm.state = .running) :
    mover log = none := by
  cases hm : mover log with
  | none => rfl
  | some m =>
    have hterm := m.2.next_isTerminal
    rw [← h.state m hm, hrun] at hterm
    cases hterm

/-- The transition of an exit. -/
theorem Agrees.exit {s : VmRace} {log : List VmNote} {i : Nat} {r : BasicReason} {o : ExitOutcome} (h : s.Agrees log)
    (hi : s.calls i = some (.exit r o)) :
    (⟨(s.vm.transition .running o.next).2, Function.update s.calls i none⟩ : VmRace).Agrees
      (log ++ [.onExit r o ((s.vm.transition .running o.next).1.map (fun _ => o.next))]) := by
  have hexited := exited_return log hi
  have hlast : ∀ result, lastStored (log ++ [.onExit r o result]) = lastStored log := by
    intro result
    rw [lastStored_concat]
    rfl
  have hstored : ∀ vm result r' o', (⟨vm, Function.update s.calls i none⟩ : VmRace).Exited
      (log ++ [.onExit r o result]) r' o' → (lastStored (log ++ [.onExit r o result])).isSome = true := by
    intro vm result r' o' hro
    rw [hlast]
    exact h.stored r' o' ((hexited vm result r' o').1 hro)
  have hstorer : ∀ vm result r', lastStored (log ++ [.onExit r o result]) = some r' → ∃ m o',
      (⟨vm, Function.update s.calls i none⟩ : VmRace).Exited (log ++ [.onExit r o result]) m o' ∧ m.1 = r' := by
    intro vm result r' hr'
    rw [hlast] at hr'
    obtain ⟨m, o', hm, hmr⟩ := h.storer r' hr'
    exact ⟨m, o', (hexited vm result m o').2 hm, hmr⟩
  by_cases hrun : s.vm.state = .running
  · -- The first exit to find it so moves the VM.
    have hnone := h.not_moved hrun
    rw [Vm.transition, if_pos hrun]
    have hmover : mover (log ++ [.onExit r o (.ok o.next)]) = some (r, o) := by
      rw [mover_concat, hnone]
      rfl
    refine ⟨?_, ?_, ?_, ?_, hstored _ _, hstorer _ _⟩
    · rw [hlast]
      exact h.reason
    · intro m hm
      cases Option.some.inj (hmover.symm.trans hm)
      rfl
    · intro _
      exact congrArg Option.isSome hmover
    · intro r' o' v hv
      rcases List.mem_append.1 hv with hv | hv
      · cases hnone.symm.trans (h.once r' o' v hv)
      · cases List.mem_singleton.1 hv
        exact hmover
  · rw [Vm.transition, if_neg hrun]
    have hmover : ∀ e, mover (log ++ [.onExit r o (.error e)]) = mover log := by
      intro e
      rw [mover_concat]
      exact Option.or_none
    refine ⟨?_, ?_, ?_, ?_, hstored _ _, hstorer _ _⟩
    · rw [hlast]
      exact h.reason
    · intro m hm
      exact h.state m ((hmover _).symm.trans hm)
    · intro hhalted
      exact (congrArg Option.isSome (hmover _)).trans (h.moved hhalted)
    · intro r' o' v hv
      rcases List.mem_append.1 hv with hv | hv
      · exact (hmover _).trans (h.once r' o' v hv)
      · cases List.mem_singleton.1 hv

/-- **A step keeps the VM in agreement with the history.** -/
theorem Agrees.step {s : VmRace} {log : List VmNote} (h : s.Agrees log) (a : VmEvent) :
    (s.step a).2.Agrees (log ++ (s.step a).1.toList) := by
  have hsame : s.Agrees (log ++ (none : Option VmNote).toList) := by
    rw [Option.toList_none, List.append_nil]
    exact h
  cases a with
  | call i c =>
    cases hi : s.calls i with
    | none =>
      rw [step_call hi]
      refine h.other rfl (by simp) (exits_update (by simp [hi]) ?_) (.inl rfl)
      cases c <;> simp [VmCall.entry]
    | some point =>
      rw [step_busy hi]
      exact hsame
  | step i =>
    cases hi : s.calls i with
    | none =>
      rw [step_idle hi]
      exact hsame
    | some point =>
      rw [step_point hi]
      cases point with
      | markRunning =>
        refine h.other ?_ (by simp [VmPoint.exec, VmNote.Other]) (exits_update (by simp [hi]) (by simp [VmPoint.exec])) ?_
        · simp only [VmPoint.exec, Vm.transition]
          split <;> rfl
        · simp only [VmPoint.exec, Vm.transition]
          split
          · rename_i hcreated
            exact .inr ⟨by rw [hcreated]; rfl, by simp, by simp⟩
          · exact .inl rfl
      | store r o => exact h.store
      | exit r o => exact h.exit hi
      | stopCreated =>
        by_cases hcreated : s.vm.state = .created
        · simp only [VmPoint.exec, Vm.compareExchange, if_pos hcreated, if_true]
          exact h.other rfl (by simp [VmNote.Other]) (exits_update (by simp [hi]) (by simp))
            (.inr ⟨by rw [hcreated]; rfl, by simp, by simp⟩)
        · simp only [VmPoint.exec, Vm.compareExchange, if_neg hcreated, Bool.false_eq_true, if_false]
          exact h.other rfl (by simp) (exits_update (by simp [hi]) (by simp)) (.inl rfl)
      | stopRunning =>
        by_cases hrunning : s.vm.state = .running
        · simp only [VmPoint.exec, Vm.compareExchange, if_pos hrunning, if_true]
          exact h.other rfl (by simp [VmNote.Other]) (exits_update (by simp [hi]) (by simp))
            (.inr ⟨by rw [hrunning]; rfl, by simp, by simp⟩)
        · simp only [VmPoint.exec, Vm.compareExchange, if_neg hrunning, Bool.false_eq_true, if_false]
          exact h.other rfl (by simp [VmNote.Other]) (exits_update (by simp [hi]) (by simp)) (.inl rfl)

theorem run_agrees (guest : CreateVmRequest) (as : List VmEvent) :
    (run step (start guest) as).Agrees (history (start guest) as) := by
  have hstart : (start guest).Agrees (List.reduceOption []) := start_agrees guest
  refine inv_answers (I := fun (s : VmRace) bs => s.Agrees bs.reduceOption) (fun s bs a hs => ?_) hstart as
  rw [List.reduceOption_append, List.reduceOption_singleton]
  exact hs.step a

/-! ## The reason and the state -/

theorem mover_mem {log : List VmNote} {m : BasicReason × ExitOutcome} (h : mover log = some m) :
    ∃ v, .onExit m.1 m.2 (.ok v) ∈ log := by
  obtain ⟨n, hn, hm⟩ := List.exists_of_findSome?_eq_some h
  cases n with
  | onExit r o result =>
    cases result with
    | ok v =>
      cases hm
      exact ⟨v, hn⟩
    | error e => cases hm
  | stored r => cases hm
  | markRunning result => cases hm
  | stop result => cases hm

/-- A VM that an exit has moved has a reason. -/
theorem Agrees.lastExit_isSome {s : VmRace} {log : List VmNote} (h : s.Agrees log)
    (hstate : s.vm.state = .halted ∨ s.vm.state = .faulted) : s.vm.lastExit.isSome = true := by
  obtain ⟨m, hm⟩ := Option.isSome_iff_exists.1 (h.moved hstate)
  obtain ⟨v, hv⟩ := mover_mem hm
  rw [h.reason]
  exact h.stored m.1 m.2 (.inr ⟨_, hv⟩)

/-- With no call in flight and none of the exits refused, the exit that stored last moved the VM. -/
theorem Agrees.last_moved {s : VmRace} {log : List VmNote} (h : s.Agrees log) (hquiet : s.Quiet)
    (hnone : ∀ n ∈ log, ¬ n.Refused) {r : UInt32} (hr : lastStored log = some r) : ∃ m, mover log = some m ∧ m.1.1 = r := by
  obtain ⟨m, o, hm, hmr⟩ := h.storer r hr
  rcases hm with ⟨i, hi⟩ | ⟨result, hmem⟩
  · cases (hquiet i).symm.trans hi
  · cases result with
    | ok v => exact ⟨(m, o), h.once m o v hmem, hmr⟩
    | error e => exact absurd trivial (hnone _ hmem)

theorem Agrees.lastExit_iff {s : VmRace} {log : List VmNote} (h : s.Agrees log) (hquiet : s.Quiet)
    (hnone : ∀ n ∈ log, ¬ n.Refused) (r : UInt32) :
    s.vm.lastExit = some r ↔
      (s.vm.state = .halted ∨ s.vm.state = .faulted) ∧ ∃ m, mover log = some m ∧ m.1.1 = r := by
  constructor
  · intro hr
    obtain ⟨m, hm, hmr⟩ := h.last_moved hquiet hnone (h.reason.symm.trans hr)
    refine ⟨?_, m, hm, hmr⟩
    rw [h.state m hm]
    exact m.2.next_eq
  · rintro ⟨hstate, m, hm, hmr⟩
    obtain ⟨r', hr'⟩ := Option.isSome_iff_exists.1 (h.lastExit_isSome hstate)
    obtain ⟨m', hm', hmr'⟩ := h.last_moved hquiet hnone (h.reason.symm.trans hr')
    cases hm.symm.trans hm'
    rw [hr', ← hmr', hmr]

theorem transition_error {vm : Vm} {source next : VmState} {e : HyperError}
    (h : (vm.transition source next).1 = .error e) : (vm.transition source next).2 = vm := by
  unfold Vm.transition at h ⊢
  split at h
  · cases h
  · rename_i hne
    rw [if_neg hne]

theorem transition_refused {vm : Vm} {source next : VmState} {f : Unit → VmState} {e : HyperError}
    (h : (vm.transition source next).1.map f = .error e) : (vm.transition source next).2 = vm := by
  cases hres : (vm.transition source next).1 with
  | ok u =>
    rw [hres] at h
    cases h
  | error e' => exact transition_error hres

/-- **A VM whose calls interleave.**  Terminal states are never left.  With no call in flight the reason is that of the
`on_exit` that stored last, there is one wherever the VM is `Halted` or `Faulted`, and as long as no `on_exit` was refused
there is one only there, that of the `on_exit` that moved the VM.  A `mark_running` that is refused changes nothing, an
`on_exit` nothing but the reason. -/
theorem exit_reason_agrees (guest : CreateVmRequest) (as : List VmEvent) :
    let s := run step (start guest) as
    let log := history (start guest) as
    (s.vm.state.isTerminal = true → ∀ bs, (run step s bs).vm.state = s.vm.state) ∧
    (s.Quiet →
      s.vm.lastExit = lastStored log ∧
      ((s.vm.state = .halted ∨ s.vm.state = .faulted) → s.vm.lastExit.isSome = true) ∧
      ((∀ n ∈ log, ¬ n.Refused) → ∀ r, s.vm.lastExit = some r ↔
        (s.vm.state = .halted ∨ s.vm.state = .faulted) ∧ ∃ m, mover log = some m ∧ m.1.1 = r)) ∧
    ∀ i note s', s.step (.step i) = (note, s') →
      (s.calls i = some .markRunning → s'.calls i = none ∧
        ∃ result, note = some (.markRunning result) ∧ ∀ e, result = .error e → s'.vm = s.vm) ∧
      ∀ r o,
        (s.calls i = some (.store r o) → s'.calls i = some (.exit r o) ∧
          note = some (.stored r) ∧ s'.vm = { s.vm with lastExitReason := r }) ∧
        (s.calls i = some (.exit r o) → s'.calls i = none ∧
          ∃ result, note = some (.onExit r o result) ∧ ∀ e, result = .error e → s'.vm = s.vm) := by
  intro s log
  have h : s.Agrees log := run_agrees guest as
  refine ⟨fun hterm bs => run_terminal hterm bs, fun hquiet => ?_,
    fun i note s' hstep => ⟨fun hi => ?_, fun r o => ⟨fun hi => ?_, fun hi => ?_⟩⟩⟩
  · exact ⟨h.reason, h.lastExit_isSome, fun hnone r => h.lastExit_iff hquiet hnone r⟩
  · rw [step_point hi] at hstep
    cases hstep
    exact ⟨Function.update_self i _ s.calls, _, rfl, fun e he => transition_error he⟩
  · rw [step_point hi] at hstep
    cases hstep
    exact ⟨Function.update_self i _ s.calls, rfl, rfl⟩
  · rw [step_point hi] at hstep
    cases hstep
    exact ⟨Function.update_self i _ s.calls, _, rfl, fun e he => transition_refused he⟩

/-- A guest halts; its exit has stored the reason when a `stop` comes between. -/
def stopRace : List VmEvent :=
  [.call 0 .markRunning, .step 0, .call 1 (.onExit ⟨12, by decide⟩ .halted), .step 1, .call 2 .stop, .step 2, .step 2, .step 1]

/-- All calls have returned, the VM is `Stopped` with the reason of an exit, and the exit was refused. -/
theorem stop_beats_exit :
    let s := run step (start ⟨[], 0, 0⟩) stopRace
    s.Quiet ∧ s.vm.state = .stopped ∧ s.vm.lastExit = some 12 ∧
    history (start ⟨[], 0, 0⟩) stopRace =
      [.markRunning (.ok ()), .stored ⟨12, by decide⟩, .stop (.ok ()),
       .onExit ⟨12, by decide⟩ .halted (.error (.denied "Vm::transition: bad source state"))] := by
  refine ⟨fun i => ?_, by decide, by decide, rfl⟩
  rcases i with _ | _ | _ | i <;> rfl

end VmRace

end Celium
