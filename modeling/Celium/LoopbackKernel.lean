import Celium.Lib.Runs
import Celium.Bridge
import Celium.Loopback
import Celium.WireRequest
import Celium.WireReply
/-!
# LoopbackKernel — the stand-in and the kernel, request by request

Both are given the same requests, on hardware where every step succeeds and every guest halts.  `Sync` relates the two
tables: a slot of the stand-in holds what the kernel's registry holds, unless the VM was deleted, when the stand-in has
an empty slot and the kernel a terminal VM that it still finds by its number.  The two answer alike until that shows: at
a `Create`, for which the stand-in takes the empty slot, and at a `Stop` of the deleted VM.
-/
namespace Celium

open Runs

/-! ## Same outcome -/

def HyperReply.Same : HyperReply → Wire.Reply → Prop
  | .created a, .created b => a = b
  | .state a s e, .state b t f => a = b ∧ s = t.tag ∧ e = f
  | .deleted a, .deleted b => a = b
  | .listed rows, .listed rows' => List.Forall₂ HyperVmRow.Same rows (Wire.Reply.rows rows')
  | .imageLoaded l c, .imageLoaded l' c' => l = l' ∧ c = c'
  | _, _ => False

/-- Both answer and say the same, or both refuse. -/
def SameOutcome : CelResult HyperReply × HyperResult Wire.Reply → Prop
  | (.ok a, .ok b) => a.Same b
  | (.error _, .error _) => True
  | _ => False

/-! ## One request to both -/

def HyperRequest.path : HyperRequest → Option String
  | .create _ imagePath .. => imagePath
  | _ => none

/-- A request whose image path, if it has one, is not empty. -/
def LoopRequest : Type := {r : HyperRequest // r.path ≠ some ""}

def bothStep (s : LoopbackHyperLink × Kernel) (r : LoopRequest) :
    (CelResult HyperReply × HyperResult Wire.Reply) × (LoopbackHyperLink × Kernel) :=
  (((s.1.apply r.val).1, (s.2.dispatch .fine r.val.toKernel).1),
    ((s.1.apply r.val).2, (s.2.dispatch .fine r.val.toKernel).2))

/-- A `Create` within the limits comes before any delete, and a `Stop` is for a VM that is not deleted. -/
def Undeleted (s : LoopbackHyperLink × Kernel) (r : LoopRequest) : Prop :=
  match r.val with
  | .create label imagePath _ _ _ =>
    label.utf8ByteSize ≤ 32 → (∀ p ∈ imagePath, p.utf8ByteSize ≤ 128) → ∀ i, s.2.manager.deleted i = false
  | .stop vmId => ∀ i : Fin maxVms, vmId.toNat = i → s.2.manager.deleted i = false
  | _ => True

/-! ## The relation -/

/-- A slot of the stand-in holds what the kernel holds in slot `i`. -/
structure LoopSlot.Holds (s : LoopSlot) (k : Kernel) (i : Fin maxVms) (vm : Vm) : Prop where
  state : s.state = vm.state
  lastExit : s.lastExit = vm.lastExit
  label : Text.utf8 s.label = (k.labels i).asSlice
  imagePath : s.imagePath.map Text.utf8 = (k.extras i).imagePath.shown
  cpuCount : s.cpuCount = (k.extras i).cpuCount
  memoryMib : s.memoryMib = (k.extras i).memoryMib
  crc : s.bootBlobCrc32c = (k.extras i).bootBlobCrc32c
  settled : vm.state ≠ .running

/-- What slot `i` of the stand-in is, for a slot of the kernel. -/
def SlotSync (s : Option LoopSlot) (k : Kernel) (i : Fin maxVms) : Prop :=
  if k.manager.deleted i then s = none ∧ ∃ vm, k.manager.registry i = some vm ∧ vm.state.isTerminal = true
  else (s = none ∧ k.manager.registry i = none) ∨ ∃ l vm, s = some l ∧ k.manager.registry i = some vm ∧ l.Holds k i vm

structure Sync (s : LoopbackHyperLink × Kernel) : Prop where
  ready : s.2.manager.runtimeReady = true
  occupied : ∀ i, s.2.manager.occupied i = (s.2.manager.registry i).isSome
  /-- Slots are taken in order. -/
  initial : ∀ i j, j ≤ i → (s.2.manager.registry i).isSome = true → (s.2.manager.registry j).isSome = true
  slots : ∀ i, SlotSync (s.1.slots i) s.2 i

theorem sync_init : Sync (LoopbackHyperLink.new, Kernel.init) where
  ready := rfl
  occupied := fun _ => rfl
  initial := fun _ _ _ h => by cases h
  slots := fun _ => .inl ⟨rfl, rfl⟩

/-! ## Finding a slot -/

variable {s : LoopbackHyperLink × Kernel}

/-- A VM number finds nothing in both tables, or a deleted VM in the kernel's only, or the same VM in both. -/
theorem Sync.find (h : Sync s) (vmId : UInt32) :
    ((∀ i : Fin maxVms, vmId.toNat = i → s.2.manager.deleted i = false) ∧ (∃ e, s.1.slot vmId = .error e) ∧
      ∃ e, s.2.manager.lookup vmId = .error e) ∨
    (∃ (i : Fin maxVms) (vm : Vm), vmId.toNat = i ∧ s.2.manager.deleted i = true ∧ (∃ e, s.1.slot vmId = .error e) ∧
      s.2.manager.lookup vmId = .ok (i, vm) ∧ vm.state.isTerminal = true) ∨
    ∃ (i : Fin maxVms) (l : LoopSlot) (vm : Vm), vmId.toNat = i ∧ s.2.manager.deleted i = false ∧
      s.1.slot vmId = .ok (i, l) ∧ s.2.manager.lookup vmId = .ok (i, vm) ∧ l.Holds s.2 i vm := by
  by_cases hrange : vmId.toNat < maxVms
  · have hall : ∀ (p : Fin maxVms → Prop), p ⟨vmId.toNat, hrange⟩ → ∀ i : Fin maxVms, vmId.toNat = i → p i := by
      intro p hp i hi
      obtain rfl : (⟨vmId.toNat, hrange⟩ : Fin maxVms) = i := Fin.ext hi
      exact hp
    have hs := h.slots ⟨vmId.toNat, hrange⟩
    unfold SlotSync at hs
    cases hd : s.2.manager.deleted ⟨vmId.toNat, hrange⟩ with
    | true =>
      rw [hd, if_pos rfl] at hs
      obtain ⟨hnone, vm, hvm, hterm⟩ := hs
      exact .inr (.inl ⟨_, vm, rfl, hd, slotAt_error (hall _ hnone), slotAt_ok.2 ⟨rfl, hvm⟩, hterm⟩)
    | false =>
      rw [hd, if_neg Bool.false_ne_true] at hs
      rcases hs with ⟨hnone, hreg⟩ | ⟨l, vm, hl, hvm, hholds⟩
      · exact .inl ⟨hall _ hd, slotAt_error (hall _ hnone), slotAt_error (hall _ hreg)⟩
      · exact .inr (.inr ⟨_, l, vm, rfl, hd, slotAt_ok.2 ⟨rfl, hl⟩, slotAt_ok.2 ⟨rfl, hvm⟩, hholds⟩)
  · have hnone : ∀ i : Fin maxVms, vmId.toNat ≠ i := fun i hi => hrange (hi ▸ i.isLt)
    exact .inl ⟨fun i hi => absurd hi (hnone i), slotAt_error (fun i hi => absurd hi (hnone i)),
      slotAt_error (fun i hi => absurd hi (hnone i))⟩

/-! ## Changing a slot -/

/-- Slot `j` of two kernels is the same. -/
def Kernel.AgreeAt (k k' : Kernel) (j : Fin maxVms) : Prop :=
  k.manager.deleted j = k'.manager.deleted j ∧ k.manager.registry j = k'.manager.registry j ∧
    k.labels j = k'.labels j ∧ k.extras j = k'.extras j

theorem LoopSlot.Holds.congr {l : LoopSlot} {k k' : Kernel} {i : Fin maxVms} {vm : Vm} (h : l.Holds k i vm)
    (hlabels : k.labels i = k'.labels i) (hextras : k.extras i = k'.extras i) : l.Holds k' i vm where
  state := h.state
  lastExit := h.lastExit
  label := hlabels ▸ h.label
  imagePath := hextras ▸ h.imagePath
  cpuCount := hextras ▸ h.cpuCount
  memoryMib := hextras ▸ h.memoryMib
  crc := hextras ▸ h.crc
  settled := h.settled

theorem SlotSync.congr {l : Option LoopSlot} {k k' : Kernel} {i : Fin maxVms} (h : SlotSync l k i)
    (hagree : k.AgreeAt k' i) : SlotSync l k' i := by
  obtain ⟨hd, hr, hl, he⟩ := hagree
  unfold SlotSync at h ⊢
  rw [← hd, ← hr]
  split at h
  · rw [if_pos ‹_›]
    exact h
  · rw [if_neg ‹_›]
    rcases h with h | ⟨s, vm, hs, hvm, hholds⟩
    · exact .inl h
    · exact .inr ⟨s, vm, hs, hvm, hholds.congr hl he⟩

/-- A step that changes slot `i` only. -/
theorem Sync.update (h : Sync s) {i : Fin maxVms} {l : Option LoopSlot} {k' : Kernel}
    (hready : k'.manager.runtimeReady = true) (hocc : ∀ j, k'.manager.occupied j = (k'.manager.registry j).isSome)
    (hinit : ∀ i j, j ≤ i → (k'.manager.registry i).isSome = true → (k'.manager.registry j).isSome = true)
    (hother : ∀ j, j ≠ i → s.2.AgreeAt k' j) (hi : SlotSync l k' i) : Sync (s.1.setSlot i l, k') where
  ready := hready
  occupied := hocc
  initial := hinit
  slots := by
    intro j
    by_cases hj : j = i
    · subst hj
      rw [LoopbackHyperLink.setSlot]
      simp only [Function.update_self]
      exact hi
    · rw [LoopbackHyperLink.setSlot]
      simp only [Function.update_of_ne hj]
      exact (h.slots j).congr (hother j hj)

/-- The VM in slot `i` changes, and its slot of the stand-in with it. -/
theorem Sync.setVm (h : Sync s) {i : Fin maxVms} {l : LoopSlot} {vm vm' : Vm} (hvm : s.2.manager.registry i = some vm)
    (hd : s.2.manager.deleted i = false) (hholds : l.Holds s.2 i vm') :
    Sync (s.1.setSlot i (some l), { s.2 with manager := s.2.manager.setVm i vm' }) := by
  have hsome : ∀ j, ((s.2.manager.setVm i vm').registry j).isSome = (s.2.manager.registry j).isSome := by
    intro j
    by_cases hj : j = i
    · subst hj
      simp only [Manager.setVm, Function.update_self, hvm, Option.isSome_some]
    · simp only [Manager.setVm, Function.update_of_ne hj]
  refine h.update h.ready (fun j => (h.occupied j).trans (hsome j).symm) ?_ (fun j hj => ⟨rfl, ?_, rfl, rfl⟩) ?_
  · intro a b hab ha
    rw [hsome] at ha ⊢
    exact h.initial a b hab ha
  · exact (Function.update_of_ne hj _ _).symm
  · unfold SlotSync
    have hd' : (s.2.manager.setVm i vm').deleted i = false := hd
    simp only [hd', Bool.false_eq_true, if_false]
    refine .inr ⟨l, vm', rfl, ?_, hholds.congr rfl rfl⟩
    simp only [Manager.setVm, Function.update_self]

/-! ## Request by request -/

theorem Manager.lookup_setVm {m : Manager} {vmId : UInt32} {i : Fin maxVms} {vm vm' : Vm}
    (h : m.lookup vmId = .ok (i, vm)) : (m.setVm i vm').lookup vmId = .ok (i, vm') :=
  slotAt_ok.2 ⟨(slotAt_ok.1 h).1, Function.update_self i _ _⟩

/-- A created VM is run to its halt. -/
theorem Manager.startVm_created {m : Manager} {vmId : UInt32} {i : Fin maxVms} {vm : Vm}
    (h : m.lookup vmId = .ok (i, vm)) (hc : vm.state = .created) :
    m.startVm .fine vmId = (.ok (), m.setVm i { vm with state := .halted, lastExitReason := 12 }) := by
  unfold Manager.startVm
  rw [h]
  simp only [Hardware.fine, Vm.markRunning, Vm.transition, if_pos hc]
  rfl

theorem Manager.startVm_settled {m : Manager} {vmId : UInt32} {i : Fin maxVms} {vm : Vm}
    (h : m.lookup vmId = .ok (i, vm)) (hc : vm.state ≠ .created) : ∃ e, m.startVm .fine vmId = (.error e, m) := by
  unfold Manager.startVm
  rw [h]
  simp only [Hardware.fine, Vm.markRunning, Vm.transition, if_neg hc]
  exact ⟨_, rfl⟩

theorem start_same (h : Sync s) (vmId : UInt32) :
    SameOutcome ((s.1.apply (.start vmId)).1, (s.2.dispatch .fine (.start vmId)).1) ∧
      Sync ((s.1.apply (.start vmId)).2, (s.2.dispatch .fine (.start vmId)).2) := by
  simp only [LoopbackHyperLink.apply, Kernel.dispatch]
  rcases h.find vmId with ⟨-, ⟨e, hs⟩, e', hk⟩ | ⟨i, vm, -, -, ⟨e, hs⟩, hk, hterm⟩ | ⟨i, l, vm, -, hd, hs, hk, hholds⟩
  · rw [hs]
    simp only [Manager.startVm, hk, Kernel.stateReply]
    exact ⟨trivial, h⟩
  · obtain ⟨e', hstart⟩ := Manager.startVm_settled hk (by rintro hc; rw [hc] at hterm; cases hterm)
    rw [hs]
    simp only [hstart, Kernel.stateReply]
    exact ⟨trivial, h⟩
  · rw [hs]
    simp only [hholds.state]
    by_cases hc : vm.state = .created
    · simp only [hc, VmState.isTerminal, Bool.false_eq_true, if_false, if_neg (by decide : ¬ VmState.created = .running),
        Manager.startVm_created hk hc, Kernel.stateReply, Manager.lookup_setVm hk, Except.map]
      refine ⟨⟨rfl, rfl, rfl⟩, h.setVm (slotAt_ok.1 hk).2 hd ?_⟩
      exact { hholds with state := rfl, lastExit := rfl, settled := fun h => by cases h }
    · obtain ⟨e', hstart⟩ := Manager.startVm_settled hk hc
      have hterm : vm.state.isTerminal = true := by
        have := hholds.settled
        cases hst : vm.state <;> simp_all [VmState.isTerminal]
      simp only [hterm, if_true, hstart, Kernel.stateReply]
      exact ⟨trivial, h⟩

theorem stop_same (h : Sync s) (vmId : UInt32) (hlive : ∀ i : Fin maxVms, vmId.toNat = i → s.2.manager.deleted i = false) :
    SameOutcome ((s.1.apply (.stop vmId)).1, (s.2.dispatch .fine (.stop vmId)).1) ∧
      Sync ((s.1.apply (.stop vmId)).2, (s.2.dispatch .fine (.stop vmId)).2) := by
  simp only [LoopbackHyperLink.apply, Kernel.dispatch]
  rcases h.find vmId with ⟨-, ⟨e, hs⟩, e', hk⟩ | ⟨i, vm, hi, hdel, -⟩ | ⟨i, l, vm, -, hd, hs, hk, hholds⟩
  · rw [hs]
    simp only [Manager.stopVm, hk, Kernel.stateReply]
    exact ⟨trivial, h⟩
  · rw [hlive i hi] at hdel
    cases hdel
  · have hvm := (slotAt_ok.1 hk).2
    rw [hs]
    by_cases hterm : vm.state.isTerminal = true
    · have hset : s.2.manager.setVm i vm = s.2.manager := by
        rw [Manager.setVm, ← hvm, Function.update_eq_self]
      simp only [hholds.state, hterm, if_true, Manager.stopVm, hk, Kernel.stateReply, Except.map]
      have hnext := h.setVm hvm hd hholds
      rw [hset] at hnext
      exact ⟨⟨rfl, rfl, hholds.lastExit⟩, hnext⟩
    · have hstop : vm.stop = (.ok (), { vm with state := .stopped }) := by
        have : vm.state = .created ∨ vm.state = .running := by
          cases hst : vm.state <;> simp_all [VmState.isTerminal]
        rw [Vm.stop, if_pos this]
      simp only [hholds.state, if_neg hterm, Manager.stopVm, hk, hstop, Kernel.stateReply, Manager.lookup_setVm hk,
        Except.map]
      refine ⟨⟨rfl, rfl, hholds.lastExit⟩, h.setVm hvm hd ?_⟩
      exact { hholds with state := rfl, settled := fun h => by cases h }

/-- A deleted VM can be stopped in the kernel only. -/
theorem stop_deleted (h : Sync s) {vmId : UInt32} {i : Fin maxVms} (hi : vmId.toNat = i)
    (hd : s.2.manager.deleted i = true) :
    ¬ SameOutcome ((s.1.apply (.stop vmId)).1, (s.2.dispatch .fine (.stop vmId)).1) := by
  simp only [LoopbackHyperLink.apply, Kernel.dispatch]
  rcases h.find vmId with ⟨hlive, -⟩ | ⟨i, vm, -, -, ⟨e, hs⟩, hk, hterm⟩ | ⟨i', l, vm, hi', hd', -⟩
  · rw [hlive i hi] at hd
    cases hd
  · rw [hs]
    simp only [Manager.stopVm, hk, hterm, if_true, Kernel.stateReply, Except.map]
    exact id
  · obtain rfl : i = i' := Fin.ext (hi.symm.trans hi')
    rw [hd] at hd'
    cases hd'

theorem delete_same (h : Sync s) (vmId : UInt32) :
    SameOutcome ((s.1.apply (.delete vmId)).1, (s.2.dispatch .fine (.delete vmId)).1) ∧
      Sync ((s.1.apply (.delete vmId)).2, (s.2.dispatch .fine (.delete vmId)).2) := by
  simp only [LoopbackHyperLink.apply, Kernel.dispatch]
  rcases h.find vmId with ⟨-, ⟨e, hs⟩, e', hk⟩ | ⟨i, vm, -, hd, ⟨e, hs⟩, hk, hterm⟩ | ⟨i, l, vm, -, hd, hs, hk, hholds⟩
  · simp only [hs, Manager.deleteVm, hk]
    exact ⟨trivial, h⟩
  · simp only [hs, Manager.deleteVm, hk, hterm, Bool.not_true, Bool.false_eq_true, if_false, hd, if_true]
    exact ⟨trivial, h⟩
  · by_cases hterm : vm.state.isTerminal = true
    · simp only [hs, hholds.state, Manager.deleteVm, hk, hterm, Bool.not_true, Bool.false_eq_true, if_false, hd]
      refine ⟨rfl, h.update h.ready h.occupied h.initial (fun j hj => ?_) ?_⟩
      · exact ⟨(Function.update_of_ne hj _ _).symm, rfl, (Function.update_of_ne hj _ _).symm,
          (Function.update_of_ne hj _ _).symm⟩
      · simp only [SlotSync, Kernel.forget, Function.update_self, if_true]
        exact ⟨trivial, vm, (slotAt_ok.1 hk).2, hterm⟩
    · simp only [hs, hholds.state, Manager.deleteVm, hk, hterm, Bool.not_false, if_true]
      exact ⟨trivial, h⟩

theorem list_same (h : Sync s) : SameOutcome ((s.1.apply .list).1, (s.2.dispatch .fine .list).1) := by
  simp only [LoopbackHyperLink.apply, Kernel.dispatch]
  refine List.rel_filterMap (R := Eq) (P := HyperVmRow.Same) ?_ (List.forall₂_refl (List.finRange maxVms))
  rintro i _ rfl
  have hs := h.slots i
  unfold SlotSync at hs
  simp only [Kernel.buildRows, Manager.listVms]
  split at hs
  · rename_i hd
    rw [hs.1, if_pos hd]
    exact .none
  · rename_i hd
    rw [if_neg hd]
    rcases hs with ⟨hnone, hreg⟩ | ⟨l, vm, hl, hvm, hholds⟩
    · rw [hnone, hreg]
      exact .none
    · rw [hl, hvm]
      exact .some ⟨rfl, hholds.label, congrArg VmState.tag hholds.state, hholds.lastExit, hholds.imagePath,
        hholds.cpuCount, hholds.memoryMib, hholds.crc⟩

/-- The loop of the stand-in reads what the kernel's reader reads. -/
theorem hexBytes_ok : ∀ {src bs : List UInt8}, src.length % 2 = 0 → (hexBytes src = .ok bs ↔ Hex.decode src = some bs)
  | [], bs, _ => by simp [hexBytes, Hex.decode]
  | [_], _, h => by cases h
  | hi :: lo :: src, bs, h => by
    have ih : ∀ bs, hexBytes src = .ok bs ↔ Hex.decode src = some bs :=
      fun bs => hexBytes_ok (by simp only [List.length_cons] at h; omega)
    rw [hexBytes, Hex.decode]
    cases hh : Hex.nibble hi with
    | none => simp [hexNibble, hh]
    | some h =>
      cases hl : Hex.nibble lo with
      | none => simp [hexNibble, hh, hl]
      | some l =>
        simp only [hexNibble, hh, hl, Option.map_eq_some_iff, ← ih]
        cases hexBytes src <;> simp [Except.map]

/-- **The stand-in accepts the uploads that the kernel accepts.** -/
theorem imageLoad_cases (len crc : UInt32) (hex : String) :
    LoopbackHyperLink.imageLoad len crc hex = .ok (.imageLoaded len crc) ∧ StagedImage.Upload (Text.utf8 hex) len crc ∨
      (∃ e, LoopbackHyperLink.imageLoad len crc hex = .error e) ∧ ¬ StagedImage.Upload (Text.utf8 hex) len crc := by
  have hmax : ∀ n : UInt32, n > 4096 ↔ n.toNat > maxImageBytes := fun n => UInt32.lt_iff_toNat_lt
  have hzero : len = 0 ↔ len.toNat = 0 := by rw [← UInt32.toNat_inj]; rfl
  unfold LoopbackHyperLink.imageLoad
  split
  · rename_i hlen
    refine .inr ⟨⟨_, rfl⟩, ?_⟩
    rintro ⟨bs, hbs, -, -, h, -⟩
    have := Hex.decode_length hbs
    omega
  · rename_i hlen
    split
    · rename_i h0
      refine .inr ⟨⟨_, rfl⟩, ?_⟩
      rintro ⟨bs, -, hne, -, h, -⟩
      have := List.length_pos_iff.2 hne
      rw [hzero] at h0
      omega
    · rename_i h0
      split
      · rename_i hbig
        refine .inr ⟨⟨_, rfl⟩, ?_⟩
        rintro ⟨bs, -, -, hle, h, -⟩
        rw [hmax] at hbig
        omega
      · rename_i hbig
        have heven : (Text.utf8 hex).length % 2 = 0 := by omega
        cases hb : hexBytes (Text.utf8 hex) with
        | error e =>
          refine .inr ⟨⟨e, rfl⟩, ?_⟩
          rintro ⟨bs, hbs, -⟩
          rw [(hexBytes_ok heven).2 hbs] at hb
          cases hb
        | ok bs =>
          have hbs := (hexBytes_ok heven).1 hb
          have hdec := Hex.decode_length hbs
          rw [hzero] at h0
          rw [hmax] at hbig
          by_cases hcrc : crc32cBytes bs = crc
          · simp only [hcrc, ne_eq, not_true_eq_false, if_false]
            exact .inl ⟨trivial, bs, hbs, List.length_pos_iff.1 (by omega), by omega, by omega, hcrc⟩
          · simp only [ne_eq, hcrc, not_false_eq_true, if_true]
            refine .inr ⟨⟨_, rfl⟩, ?_⟩
            rintro ⟨bs', hbs', -, -, -, hcrc'⟩
            obtain rfl := Option.some.inj (hbs.symm.trans hbs')
            exact hcrc hcrc'

theorem imageLoad_same (h : Sync s) (len crc : UInt32) (hex : String) :
    SameOutcome ((s.1.apply (.imageLoad len crc hex)).1, (s.2.dispatch .fine (.imageLoad len crc (Text.utf8 hex))).1) ∧
      Sync ((s.1.apply (.imageLoad len crc hex)).2, (s.2.dispatch .fine (.imageLoad len crc (Text.utf8 hex))).2) := by
  have hsync : ∀ staged, Sync (s.1, { s.2 with staged }) := by
    intro staged
    exact ⟨h.ready, h.occupied, h.initial, fun i => (h.slots i).congr ⟨rfl, rfl, rfl, rfl⟩⟩
  have hiff := s.2.staged.stageFromHex_ok_iff (Text.utf8 hex) len crc
  simp only [LoopbackHyperLink.apply, Kernel.dispatch]
  rcases imageLoad_cases len crc hex with ⟨hl, hup⟩ | ⟨⟨e, hl⟩, hup⟩
  · generalize hst : s.2.staged.stageFromHex (Text.utf8 hex) len crc = st at hiff
    obtain ⟨res, staged⟩ := st
    obtain rfl : res = .ok () := hiff.2 hup
    rw [hl]
    exact ⟨⟨rfl, rfl⟩, hsync staged⟩
  · generalize hst : s.2.staged.stageFromHex (Text.utf8 hex) len crc = st at hiff
    obtain ⟨res, staged⟩ := st
    rw [hl]
    cases res with
    | error e' => exact ⟨trivial, hsync staged⟩
    | ok u => exact absurd (hiff.1 rfl) hup

/-! ## Create -/

theorem find_finRange {p : Fin maxVms → Bool} {i : Fin maxVms} :
    (List.finRange maxVms).find? p = some i ↔ p i = true ∧ ∀ j < i, p j = false := by
  rw [← Fin.find?_eq_find?_finRange, Fin.find?_eq_some_iff]

theorem find_finRange_none {p : Fin maxVms → Bool} :
    (List.finRange maxVms).find? p = none ↔ ∀ i, p i = false := by
  rw [← Fin.find?_eq_find?_finRange, Fin.find?_eq_none_iff]

/-- Before any delete the two have the same free slots. -/
theorem Sync.freeSlot_eq (h : Sync s) (hd : ∀ i, s.2.manager.deleted i = false) :
    s.1.freeSlot = s.2.manager.freeSlot := by
  have hfree : ∀ i, (s.1.slots i).isNone = !s.2.manager.occupied i := by
    intro i
    have hs := h.slots i
    unfold SlotSync at hs
    rw [hd i, if_neg Bool.false_ne_true] at hs
    rw [h.occupied i]
    rcases hs with ⟨hnone, hreg⟩ | ⟨l, vm, hl, hvm, -⟩
    · rw [hnone, hreg]
      rfl
    · rw [hl, hvm]
      rfl
  unfold LoopbackHyperLink.freeSlot Manager.freeSlot
  rw [funext hfree]

theorem registry_none_of_free (h : Sync s) {i : Fin maxVms} (hi : s.2.manager.freeSlot = some i) :
    s.2.manager.registry i = none ∧ ∀ j < i, (s.2.manager.registry j).isSome = true := by
  obtain ⟨hfree, hbelow⟩ := find_finRange.1 hi
  refine ⟨?_, fun j hj => ?_⟩
  · have := h.occupied i
    rw [Bool.not_eq_true'] at hfree
    rw [hfree] at this
    exact Option.isSome_eq_false_iff.1 this.symm |> Option.isNone_iff_eq_none.1
  · rw [← h.occupied j]
    simpa using hbelow j hj

/-- The kernel with a new VM, and its slot in the stand-in. -/
theorem Sync.withVm (h : Sync s) {i : Fin maxVms} (hi : s.2.manager.freeSlot = some i)
    (hd : s.2.manager.deleted i = false) {label : String} {imagePath : Option String} {cpu : Option UInt32}
    {mem : Option UInt64} {crc : Option UInt32} {l : Wire.Buf Wire.labelMax} {p : Wire.Buf Wire.imagePathMax}
    (hl : l.asSlice = Text.utf8 label) (hp : p.shown = imagePath.map Text.utf8) :
    Sync (s.1.setSlot i (some ⟨label, .created, none, imagePath, cpu, mem, crc⟩),
      s.2.withVm i l ⟨p, cpu, mem, crc⟩) := by
  obtain ⟨hnone, hbelow⟩ := registry_none_of_free h hi
  have hreg : ∀ j, (s.2.withVm i l ⟨p, cpu, mem, crc⟩).manager.registry j =
      if j = i then some (Vm.new (s.2.bootRequest crc)) else s.2.manager.registry j := by
    intro j
    simp only [Kernel.withVm, Manager.allocate, hnone, Option.none_or, Function.update_apply]
  refine h.update h.ready (fun j => ?_) (fun a b hab ha => ?_) (fun j hj => ?_) ?_
  · rw [hreg]
    simp only [Kernel.withVm, Manager.allocate, Function.update_apply]
    split
    · rfl
    · exact h.occupied j
  · rw [hreg] at ha ⊢
    split
    · rfl
    · split at ha
      · subst a
        exact hbelow b (lt_of_le_of_ne hab ‹_›)
      · exact h.initial a b hab ha
  · refine ⟨rfl, ?_, (Function.update_of_ne hj _ _).symm, (Function.update_of_ne hj _ _).symm⟩
    rw [hreg, if_neg hj]
  · unfold SlotSync
    have hd' : (s.2.withVm i l ⟨p, cpu, mem, crc⟩).manager.deleted i = false := hd
    rw [hd', if_neg Bool.false_ne_true]
    refine .inr ⟨_, Vm.new (s.2.bootRequest crc), rfl, (hreg i).trans (if_pos rfl), ?_⟩
    have hlabel : (s.2.withVm i l ⟨p, cpu, mem, crc⟩).labels i = l := Function.update_self i _ _
    have hextras : (s.2.withVm i l ⟨p, cpu, mem, crc⟩).extras i = ⟨p, cpu, mem, crc⟩ := Function.update_self i _ _
    exact
      { state := rfl
        lastExit := rfl
        label := by rw [hlabel, hl]
        imagePath := by rw [hextras, hp]
        cpuCount := by rw [hextras]
        memoryMib := by rw [hextras]
        crc := by rw [hextras]
        settled := fun hr => by cases hr }

/-- A label or a path that is too long is refused by both, and changes nothing. -/
theorem create_long (label : String) (imagePath : Option String) (cpu : Option UInt32) (mem : Option UInt64)
    (crc : Option UInt32) (hlong : ¬ (label.utf8ByteSize ≤ 32 ∧ ∀ p ∈ imagePath, p.utf8ByteSize ≤ 128)) :
    (∃ e, s.1.apply (.create label imagePath cpu mem crc) = (.error e, s.1)) ∧
      ∃ e, s.2.create .fine (Text.utf8 label) (imagePath.map Text.utf8) cpu mem crc = (.error e, s.2) := by
  simp only [LoopbackHyperLink.apply, Kernel.create, Text.utf8_length, Wire.labelMax, Wire.imagePathMax]
  by_cases hl : label.utf8ByteSize > 32
  · simp only [if_pos hl]
    exact ⟨⟨_, rfl⟩, _, rfl⟩
  · have hp : ∃ p, imagePath = some p ∧ p.utf8ByteSize > 128 := by
      by_contra hno
      refine hlong ⟨Nat.not_lt.1 hl, fun p hp => Nat.not_lt.1 (fun hgt => hno ⟨p, hp, hgt⟩)⟩
    obtain ⟨p, rfl, hgt⟩ := hp
    simp only [if_neg hl, Option.map_some, Option.any_some, Text.utf8_length, hgt, decide_true, if_true]
    exact ⟨⟨_, rfl⟩, _, rfl⟩

/-- The path a row shows is the path of the request, unless that is the empty string. -/
theorem shown_path {p : Wire.Buf Wire.imagePathMax} {imagePath : Option String} (hne : imagePath ≠ some "")
    (hp : p.asSlice = (imagePath.map Text.utf8).getD []) : p.shown = imagePath.map Text.utf8 := by
  unfold Wire.Buf.shown
  cases imagePath with
  | none => exact if_pos hp
  | some path =>
    rw [hp]
    have : Text.utf8 path ≠ [] := fun h => hne (congrArg some (Text.utf8_eq_nil.1 h))
    simp only [Option.map_some, Option.getD_some, if_neg this]

section CreateArm

variable (h : Sync s) (label : String) (imagePath : Option String) (cpu : Option UInt32) (mem : Option UInt64)
  (crc : Option UInt32)
include h

/-- With a free slot the kernel does not refuse. -/
theorem createVm_ok {i : Fin maxVms} (hi : s.2.manager.freeSlot = some i) :
    s.2.manager.createVm .fine (s.2.bootRequest crc) = (.ok i, s.2.manager.allocate i (s.2.bootRequest crc)) :=
  s.2.manager.createVm_fine h.ready rfl (BootImage.fromStagedOrEmbedded_length s.2.staged crc) hi

/-- A request within its limits, when the table is full. -/
theorem create_full (hlabel : label.utf8ByteSize ≤ 32) (hpath : ∀ p ∈ imagePath, p.utf8ByteSize ≤ 128)
    (hfull : s.2.manager.freeSlot = none) :
    s.2.create .fine (Text.utf8 label) (imagePath.map Text.utf8) cpu mem crc =
      (.error (.exhausted "manager: VM table full"), s.2) := by
  have hany : (imagePath.map Text.utf8).any (fun p => decide (p.length > Wire.imagePathMax)) = false := by
    cases imagePath with
    | none => rfl
    | some p => simpa [Wire.imagePathMax] using hpath p rfl
  have hmanager : s.2.manager.createVm .fine (s.2.bootRequest crc) =
      (.error (.exhausted "manager: VM table full"), s.2.manager) := by
    rw [Manager.createVm, h.ready, hfull]
    rfl
  simp only [Kernel.create, Text.utf8_length, Wire.labelMax, if_neg (Nat.not_lt.2 hlabel), hany, Bool.false_eq_true,
    if_false, hmanager]

/-- A request within its limits, when there is a free slot. -/
theorem create_free (hlabel : label.utf8ByteSize ≤ 32) (hpath : ∀ p ∈ imagePath, p.utf8ByteSize ≤ 128) {i : Fin maxVms}
    (hi : s.2.manager.freeSlot = some i) :
    ∃ l p, l.asSlice = Text.utf8 label ∧ p.asSlice = (imagePath.map Text.utf8).getD [] ∧
      s.2.create .fine (Text.utf8 label) (imagePath.map Text.utf8) cpu mem crc =
        (.ok (.created (UInt32.ofNat i)), s.2.withVm i l ⟨p, cpu, mem, crc⟩) := by
  rcases s.2.create_cases .fine (Text.utf8 label) (imagePath.map Text.utf8) cpu mem crc with
    ⟨e, occupied, -, hwhy, -⟩ | ⟨i', l, p, hi', hl, hp, hk, -⟩
  · rw [createVm_ok h crc hi] at hwhy
    rcases hwhy with hlong | ⟨p, hp, hlong⟩ | hbad
    · rw [Text.utf8_length] at hlong
      exact absurd hlong (Nat.not_lt.2 hlabel)
    · obtain ⟨q, hq, rfl⟩ := Option.map_eq_some_iff.1 hp
      rw [Text.utf8_length] at hlong
      exact absurd hlong (Nat.not_lt.2 (hpath q hq))
    · cases hbad
  · obtain rfl := Option.some.inj (hi.symm.trans hi')
    exact ⟨l, p, hl, hp, hk⟩

theorem create_same (hne : imagePath ≠ some "") (hlabel : label.utf8ByteSize ≤ 32)
    (hpath : ∀ p ∈ imagePath, p.utf8ByteSize ≤ 128) (hd : ∀ i, s.2.manager.deleted i = false) :
    SameOutcome ((s.1.apply (.create label imagePath cpu mem crc)).1,
        (s.2.create .fine (Text.utf8 label) (imagePath.map Text.utf8) cpu mem crc).1) ∧
      Sync ((s.1.apply (.create label imagePath cpu mem crc)).2,
        (s.2.create .fine (Text.utf8 label) (imagePath.map Text.utf8) cpu mem crc).2) := by
  rw [LoopbackHyperLink.apply_create s.1 label imagePath cpu mem crc hlabel hpath, h.freeSlot_eq hd]
  cases hfree : s.2.manager.freeSlot with
  | none =>
    rw [create_full h label imagePath cpu mem crc hlabel hpath hfree]
    exact ⟨trivial, h⟩
  | some i =>
    obtain ⟨l, p, hl, hp, hk⟩ := create_free h label imagePath cpu mem crc hlabel hpath hfree
    rw [hk]
    exact ⟨rfl, h.withVm hfree (hd i) hl (shown_path hne hp)⟩

/-- **After a delete the stand-in has a slot to give that the kernel has not.** -/
theorem create_deleted (hlabel : label.utf8ByteSize ≤ 32) (hpath : ∀ p ∈ imagePath, p.utf8ByteSize ≤ 128)
    {d : Fin maxVms} (hd : s.2.manager.deleted d = true) :
    ¬ SameOutcome ((s.1.apply (.create label imagePath cpu mem crc)).1,
        (s.2.create .fine (Text.utf8 label) (imagePath.map Text.utf8) cpu mem crc).1) := by
  have hslot := h.slots d
  unfold SlotSync at hslot
  rw [hd, if_pos rfl] at hslot
  obtain ⟨hnone, vm, hvm, -⟩ := hslot
  rw [LoopbackHyperLink.apply_create s.1 label imagePath cpu mem crc hlabel hpath]
  cases hfree : s.1.freeSlot with
  | none =>
    have := find_finRange_none.1 hfree d
    rw [hnone] at this
    cases this
  | some j =>
    have hjd : j ≤ d := by
      by_contra hlt
      have := (find_finRange.1 hfree).2 d (not_le.1 hlt)
      rw [hnone] at this
      cases this
    cases hk : s.2.manager.freeSlot with
    | none =>
      rw [create_full h label imagePath cpu mem crc hlabel hpath hk]
      exact id
    | some i =>
      obtain ⟨l, p, -, -, hcreate⟩ := create_free h label imagePath cpu mem crc hlabel hpath hk
      rw [hcreate]
      intro hsame
      have hij : i = j := by
        have hnat := congrArg UInt32.toNat (show UInt32.ofNat j = UInt32.ofNat i from hsame)
        have hi := i.isLt
        have hj := j.isLt
        unfold maxVms at hi hj
        rw [UInt32.toNat_ofNat_of_lt' (by simp only [UInt32.size]; omega),
          UInt32.toNat_ofNat_of_lt' (by simp only [UInt32.size]; omega)] at hnat
        exact Fin.ext hnat.symm
      have hreg := h.initial d i (hij ▸ hjd) (by rw [hvm]; rfl)
      rw [(registry_none_of_free h hk).1] at hreg
      cases hreg

end CreateArm

/-! ## Every run -/

/-- **One request**: the two agree exactly on those that do not touch what a delete left. -/
theorem both_agree_iff (h : Sync s) (r : LoopRequest) :
    (SameOutcome (bothStep s r).1 ↔ Undeleted s r) ∧ (Undeleted s r → Sync (bothStep s r).2) := by
  obtain ⟨r, hr⟩ := r
  cases r with
  | create label imagePath cpu mem crc =>
    have hne : imagePath ≠ some "" := hr
    simp only [bothStep, HyperRequest.toKernel, Kernel.dispatch, Undeleted]
    by_cases hlimits : label.utf8ByteSize ≤ 32 ∧ ∀ p ∈ imagePath, p.utf8ByteSize ≤ 128
    · by_cases hd : ∀ i, s.2.manager.deleted i = false
      · have hsame := create_same h label imagePath cpu mem crc hne hlimits.1 hlimits.2 hd
        exact ⟨iff_of_true hsame.1 (fun _ _ => hd), fun _ => hsame.2⟩
      · obtain ⟨d, hdel⟩ := not_forall.1 hd
        rw [Bool.not_eq_false] at hdel
        have hdiff := create_deleted h label imagePath cpu mem crc hlimits.1 hlimits.2 hdel
        exact ⟨iff_of_false hdiff (fun hall => hd (hall hlimits.1 hlimits.2)),
          fun hall => absurd (hall hlimits.1 hlimits.2) hd⟩
    · obtain ⟨⟨e, hl⟩, e', hk⟩ := create_long (s := s) label imagePath cpu mem crc hlimits
      rw [hl, hk]
      exact ⟨iff_of_true trivial (fun hlabel hpath => absurd ⟨hlabel, hpath⟩ hlimits), fun _ => h⟩
  | start vmId =>
    have hsame := start_same h vmId
    exact ⟨iff_of_true hsame.1 trivial, fun _ => hsame.2⟩
  | stop vmId =>
    constructor
    · constructor
      · intro hsame i hi
        by_contra hdel
        rw [Bool.not_eq_false] at hdel
        exact stop_deleted h hi hdel hsame
      · exact fun hlive => (stop_same h vmId hlive).1
    · exact fun hlive => (stop_same h vmId hlive).2
  | delete vmId =>
    have hsame := delete_same h vmId
    exact ⟨iff_of_true hsame.1 trivial, fun _ => hsame.2⟩
  | list => exact ⟨iff_of_true (list_same h) trivial, fun _ => h⟩
  | imageLoad len crc hex =>
    have hsame := imageLoad_same h len crc hex
    exact ⟨iff_of_true hsame.1 trivial, fun _ => hsame.2⟩

/-- **The stand-in answers as the kernel throughout a run exactly when no `Create` within the limits comes after a delete
and no deleted VM is stopped.** -/
theorem loopback_simulates_iff (rs : List LoopRequest) :
    (∀ b ∈ answers bothStep (LoopbackHyperLink.new, Kernel.init) rs, SameOutcome b) ↔
      Along bothStep Undeleted (LoopbackHyperLink.new, Kernel.init) rs :=
  answers_iff_along (I := Sync) (fun _ r h => both_agree_iff h r) sync_init rs

/-- Create a VM, stop it, delete it, and create another. -/
def recreate : List LoopRequest :=
  [⟨.create "a" none none none none, by decide⟩, ⟨.stop 0, by decide⟩, ⟨.delete 0, by decide⟩,
    ⟨.create "b" none none none none, by decide⟩]

/-- **A slot is used again by the stand-in only**: it gives the second VM number 0, the kernel number 1. -/
theorem recreate_differs :
    (answers bothStep (LoopbackHyperLink.new, Kernel.init) recreate).getLast? =
        some (.ok (.created 0), .ok (.created 1)) ∧
      ¬ ∀ b ∈ answers bothStep (LoopbackHyperLink.new, Kernel.init) recreate, SameOutcome b := by
  have hlast : (answers bothStep (LoopbackHyperLink.new, Kernel.init) recreate).getLast? =
      some (.ok (.created 0), .ok (.created 1)) := by
    decide +kernel
  refine ⟨hlast, fun h => ?_⟩
  have : (0 : UInt32) = 1 := h _ (List.mem_of_getLast? hlast)
  exact absurd this (by decide)

end Celium
