import Celium.HyperHost
import Celium.NetworkCalls
import Celium.Publish
import Celium.VolumeCalls
/-!
# HyperDropIn — the bridge host beside the in-memory one

Over the loopback link, `CelhyperVmHost` and `MemVmHost` run the same lifecycle on two tables of four slots.  The rest goes
to the host contained in the bridge, which has no VM of its own and, as `snapshot` does not reach it, never learns its
owner: what needs either is refused there.  `DropIn` relates the two while they agree: the tables are the same, and both
hosts' stores are still empty.
-/
namespace Celium

open Fixed Runs

/-- A slot of the in-memory host as the link keeps it. -/
def Slot.loop (s : Slot) : LoopSlot :=
  ⟨s.label, s.state, s.lastExit, s.imagePath, s.cpuCount, s.memoryMib, s.bootBlobCrc32c⟩

/-- The bridge host over the loopback link. -/
abbrev LoopbackVmHost : Type := CelhyperVmHost LoopbackHyperLink

structure DropIn (c : LoopbackVmHost) (h : MemVmHost) : Prop where
  slots : ∀ i : Fin maxVms, c.link.slots i = (h.slotAt i).map Slot.loop
  bare : ∀ (i : Fin maxVms) (s : Slot), h.slotAt i = some s → s.volumes = []
  labels : ∀ (i : Fin maxVms) (s : Slot), h.slotAt i = some s → c.labels.lookup (UInt32.ofNat i) = some s.label
  policies : ∀ (i : Fin maxVms) (s : Slot), h.slotAt i = some s → c.policies.lookup (UInt32.ofNat i) = some s.restartPolicy
  fallback : c.fallback = .new
  strict : c.strict = false
  vault : h.vault = default
  nets : h.nets = default
  owner : h.owner ≠ none
  caps : h.caps = .all

/-- Both hosts answer alike: nothing is created that needs the owner, and nothing changes the attachments of a VM. -/
def MemVmHost.Alike (h : MemVmHost) : VmHostCall → Prop
  | .handle (.createVolume name sizeBytes) => ¬ CreateOk name sizeBytes
  | .handle (.createNetwork name cidr) =>
    ¬ (MemNetworkStore.validateName name = .ok () ∧ ∃ block, Cidr4.parse cidr = .ok block)
  | .handle (.createSecurityGroup name rules) => ¬ MemNetworkStore.SgOk name rules
  | .handle (.detachVolume vmId _) => ∀ s, h.slotMut vmId ≠ .ok s
  | .attachPreserved vmId _ => ∀ s, h.slotMut vmId ≠ .ok s
  | _ => True

/-- The limits the two hosts share: 32 bytes of label, 128 of image path. -/
def VmHostCall.Within : VmHostCall → Prop
  | .handle (.create label _ imagePath _ _ _) => label.utf8ByteSize ≤ 32 ∧ ∀ p ∈ imagePath, p.utf8ByteSize ≤ 128
  | _ => True

/-! ## The two tables -/

theorem Capabilities.all_contains (op : VmOp) : Capabilities.all.contains (required op) = true := by
  cases op <;> simp only [required] <;> decide

namespace MemVmHost

variable {h : MemVmHost}

theorem slotAt_eq {i : Fin maxSlots} {vmId : UInt32} (hi : vmId.toNat = i.1) : h.slots[vmId.toNat]? = some (h.slotAt i) := by
  rw [hi, slotAt, Vector.getElem?_eq_getElem i.2]

theorem slotAt_setSlot {i : Fin maxSlots} {vmId : UInt32} (hi : vmId.toNat = i.1) (o : Option Slot) (j : Fin maxSlots) :
    (h.setSlot vmId o).slotAt j = if j = i then o else h.slotAt j := by
  by_cases hj : j = i
  · subst hj
    simp [slotAt, setSlot, hi]
  · have hne : ¬ i.1 = j.1 := fun heq => hj (Fin.ext heq.symm)
    simp [slotAt, setSlot, hi, hne, hj]

theorem toList_slots : h.slots.toList = (List.finRange maxSlots).map h.slotAt := by
  apply List.ext_getElem
  · simp
  · intro i hi hi'
    simp [slotAt]

theorem freeSlot_eq : h.freeSlot = ((List.finRange maxSlots).find? (fun i => (h.slotAt i).isNone)).map Fin.val := by
  have h4 : List.finRange maxSlots = [0, 1, 2, 3] := rfl
  rw [freeSlot, toList_slots, h4]
  simp only [List.map_cons, List.map_nil, List.findIdx?_cons, List.find?_cons, List.findIdx?_nil, List.find?_nil]
  cases (h.slotAt 0).isNone <;> cases (h.slotAt 1).isNone <;> cases (h.slotAt 2).isNone <;>
    cases (h.slotAt 3).isNone <;> rfl

end MemVmHost

namespace DropIn

variable {c c' : LoopbackVmHost} {h h' : MemVmHost}

theorem freeSlot (hd : DropIn c h) : h.freeSlot = c.link.freeSlot.map Fin.val := by
  have hnone : ∀ i : Fin maxVms, (c.link.slots i).isNone = (h.slotAt i).isNone := by
    intro i
    rw [hd.slots i, Option.isNone_map]
  rw [MemVmHost.freeSlot_eq, LoopbackHyperLink.freeSlot]
  simp only [hnone]
  rfl

/-- A slot by its number, in both tables. -/
theorem slot (hd : DropIn c h) (vmId : UInt32) :
    (∃ e e', h.slotMut vmId = .error e ∧ c.link.slot vmId = .error e') ∨
      ∃ (i : Fin maxVms) (s : Slot), vmId.toNat = i ∧ h.slotAt i = some s ∧ h.slotMut vmId = .ok s ∧
        c.link.slot vmId = .ok (i, s.loop) := by
  by_cases hlt : vmId.toNat < maxVms
  · have hget := MemVmHost.slotAt_eq (h := h) (i := ⟨vmId.toNat, hlt⟩) rfl
    cases hs : h.slotAt ⟨vmId.toNat, hlt⟩ with
    | none =>
      rw [hs] at hget
      obtain ⟨e', he'⟩ : ∃ e', c.link.slot vmId = .error e' := slotAt_error fun i hi => by
        obtain rfl : (⟨vmId.toNat, hlt⟩ : Fin maxVms) = i := Fin.ext hi
        exact (hd.slots _).trans (congrArg (Option.map Slot.loop) hs)
      exact .inl ⟨_, e', by rw [MemVmHost.slotMut, hget], he'⟩
    | some s =>
      rw [hs] at hget
      refine .inr ⟨⟨vmId.toNat, hlt⟩, s, rfl, hs, by rw [MemVmHost.slotMut, hget], slotAt_ok.2 ⟨rfl, ?_⟩⟩
      exact (hd.slots _).trans (congrArg (Option.map Slot.loop) hs)
  · have hget : h.slots[vmId.toNat]? = none := Vector.getElem?_eq_none (Nat.not_lt.1 hlt)
    obtain ⟨e', he'⟩ : ∃ e', c.link.slot vmId = .error e' := slotAt_error fun i hi => absurd (hi ▸ i.2) hlt
    exact .inl ⟨_, e', by rw [MemVmHost.slotMut, hget], he'⟩

/-- The same change of one slot in both tables. -/
theorem put (hd : DropIn c h) {i : Fin maxVms} {vmId : UInt32} (hi : vmId.toNat = i) {o : Option Slot}
    (hlink : c'.link = c.link.setSlot i (o.map Slot.loop)) (hh : h' = h.setSlot vmId o)
    (hnew : ∀ s, o = some s → s.volumes = [] ∧ c'.labels.lookup (UInt32.ofNat i) = some s.label ∧
      c'.policies.lookup (UInt32.ofNat i) = some s.restartPolicy)
    (hlabels : ∀ j : Fin maxVms, j ≠ i → c'.labels.lookup (UInt32.ofNat j) = c.labels.lookup (UInt32.ofNat j))
    (hpolicies : ∀ j : Fin maxVms, j ≠ i → c'.policies.lookup (UInt32.ofNat j) = c.policies.lookup (UInt32.ofNat j))
    (hfallback : c'.fallback = c.fallback) (hstrict : c'.strict = c.strict) : DropIn c' h' := by
  have hat : ∀ j : Fin maxVms, h'.slotAt j = if j = i then o else h.slotAt j := by
    intro j
    rw [hh]
    exact MemVmHost.slotAt_setSlot hi o j
  constructor
  · intro j
    rw [hlink, LoopbackHyperLink.setSlot, hat]
    split
    · rename_i hj
      rw [hj]
      exact Function.update_self _ _ _
    · rename_i hj
      exact (Function.update_of_ne hj _ _).trans (hd.slots j)
  · intro j s hs
    rw [hat] at hs
    split at hs
    · exact (hnew s hs).1
    · exact hd.bare j s hs
  · intro j s hs
    rw [hat] at hs
    split at hs
    · rename_i hj
      rw [hj]
      exact (hnew s hs).2.1
    · rename_i hj
      rw [hlabels j hj]
      exact hd.labels j s hs
  · intro j s hs
    rw [hat] at hs
    split at hs
    · rename_i hj
      rw [hj]
      exact (hnew s hs).2.2
    · rename_i hj
      rw [hpolicies j hj]
      exact hd.policies j s hs
  · rw [hfallback]
    exact hd.fallback
  · rw [hstrict]
    exact hd.strict
  all_goals rw [hh]
  · exact hd.vault
  · exact hd.nets
  · exact hd.owner
  · exact hd.caps

/-- A slot is rewritten, with the same label and policy. -/
theorem rewrite (hd : DropIn c h) {i : Fin maxVms} {vmId : UInt32} (hi : vmId.toNat = i) {s t : Slot}
    (hs : h.slotAt i = some s) (hvolumes : t.volumes = s.volumes) (hlabel : t.label = s.label)
    (hpolicy : t.restartPolicy = s.restartPolicy) :
    DropIn { c with link := c.link.setSlot i (some t.loop) } (h.setSlot vmId (some t)) := by
  refine hd.put hi rfl rfl ?_ (fun _ _ => rfl) (fun _ _ => rfl) rfl rfl
  rintro _ ⟨⟩
  rw [hvolumes, hlabel, hpolicy]
  exact ⟨hd.bare i s hs, hd.labels i s hs, hd.policies i s hs⟩

theorem apply_eq (hd : DropIn c h) (op : VmOp) : h.apply op = h.dispatch op := by
  rw [MemVmHost.apply, hd.caps, Capabilities.all_contains]
  rfl

end DropIn

/-- The two hosts side by side. -/
def besideMem (debug : HyperReply → String) (s : LoopbackVmHost × MemVmHost) (call : VmHostCall) :
    (VmHostReply × VmHostReply) × (LoopbackVmHost × MemVmHost) :=
  (CelhyperVmHost.host LoopbackHyperLink.apply debug).both MemVmHost.host s call

section Steps

variable {c c' : LoopbackVmHost} {h h' : MemVmHost} (debug : HyperReply → String)

/-- The hosts agree on a call exactly if it is one they answer alike, and then stay related. -/
def StepsAlike (debug : HyperReply → String) (c : LoopbackVmHost) (h : MemVmHost) (call : VmHostCall) : Prop :=
  (VmHostReply.Agrees (besideMem debug (c, h) call).1 ↔ h.Alike call) ∧
    (h.Alike call → DropIn (besideMem debug (c, h) call).2.1 (besideMem debug (c, h) call).2.2)

variable {debug}

/-- Both succeed, with the same reply. -/
theorem stepsAlike_ok {op : VmOp} {reply : VmOpReply} (hop : h.Alike (.handle op)) (hd : DropIn c' h')
    (hc : c.handle LoopbackHyperLink.apply debug op = (.ok reply, c')) (hh : h.apply op = (.ok reply, h')) :
    StepsAlike debug c h (.handle op) := by
  have hboth : besideMem debug (c, h) (.handle op) = ((.handled (.ok reply), .handled (.ok reply)), (c', h')) := by
    simp only [besideMem, VmHost.both, VmHost.serve, CelhyperVmHost.host, MemVmHost.host, hc, hh]
  rw [StepsAlike, hboth]
  exact ⟨iff_of_true rfl hop, fun _ => hd⟩

/-- Both fail, and nothing changes. -/
theorem stepsAlike_error {op : VmOp} (hop : h.Alike (.handle op)) (hd : DropIn c h)
    (hc : ∃ e, c.handle LoopbackHyperLink.apply debug op = (.error e, c)) (hh : ∃ e, h.apply op = (.error e, h)) :
    StepsAlike debug c h (.handle op) := by
  obtain ⟨e, hc⟩ := hc
  obtain ⟨e', hh⟩ := hh
  have hboth : besideMem debug (c, h) (.handle op) = ((.handled (.error e), .handled (.error e')), (c, h)) := by
    simp only [besideMem, VmHost.both, VmHost.serve, CelhyperVmHost.host, MemVmHost.host, hc, hh]
  rw [StepsAlike, hboth]
  exact ⟨iff_of_true trivial hop, fun _ => hd⟩

/-- The bridge fails where the in-memory host does not. -/
theorem stepsAlike_apart {op : VmOp} (hop : ¬ h.Alike (.handle op))
    (hc : ∃ e, c.handle LoopbackHyperLink.apply debug op = (.error e, c)) (hh : ∃ reply, (h.apply op).1 = .ok reply) :
    StepsAlike debug c h (.handle op) := by
  obtain ⟨e, hc⟩ := hc
  obtain ⟨reply, hh⟩ := hh
  refine ⟨iff_of_false ?_ hop, fun halike => absurd halike hop⟩
  simp only [besideMem, VmHost.both, VmHost.serve, CelhyperVmHost.host, MemVmHost.host, hc, hh]
  exact id

/-! ## The lifecycle -/

theorem stepsAlike_create (hd : DropIn c h) (label : String) (policy : RestartPolicy) (imagePath : Option String)
    (cpu : Option UInt32) (mem : Option UInt64) (crc : Option UInt32)
    (hin : (VmHostCall.handle (.create label policy imagePath cpu mem crc)).Within) :
    StepsAlike debug c h (.handle (.create label policy imagePath cpu mem crc)) := by
  obtain ⟨hlabel, hpath⟩ := hin
  have hlink := c.link.apply_create label imagePath cpu mem crc hlabel hpath
  have hmem : h.apply (.create label policy imagePath cpu mem crc) =
      h.create label policy imagePath cpu mem crc := hd.apply_eq _
  rw [MemVmHost.create, if_neg (Nat.not_lt.2 hlabel), hd.freeSlot] at hmem
  cases hfree : c.link.freeSlot with
  | none =>
    rw [hfree] at hmem hlink
    refine stepsAlike_error trivial hd ?_ ⟨_, hmem⟩
    simp only [CelhyperVmHost.handle_create, hlink, HyperReply.expect]
    exact ⟨_, rfl⟩
  | some i =>
    rw [hfree] at hmem hlink
    have hto : (UInt32.ofNat i).toNat = i := by
      have := i.2
      unfold maxVms at this
      rw [UInt32.toNat_ofNat']
      omega
    have hinj : ∀ j : Fin maxVms, j ≠ i → UInt32.ofNat j ≠ UInt32.ofNat i := fun j hj heq => hj (ofNat_inj heq)
    let s : Slot := ⟨label, .created, none, policy, [], imagePath, cpu, mem, crc⟩
    let made : LoopbackVmHost :=
      { c with link := c.link.setSlot i (some s.loop) }.remember (UInt32.ofNat i) label policy
    have hput : DropIn made (h.setSlot (UInt32.ofNat i) (some s)) := by
      refine hd.put (o := some s) hto rfl rfl ?_ ?_ ?_ rfl rfl
      · rintro _ ⟨⟩
        exact ⟨rfl, AList.lookup_insert _, AList.lookup_insert _⟩
      · exact fun j hj => AList.lookup_insert_ne (hinj j hj)
      · exact fun j hj => AList.lookup_insert_ne (hinj j hj)
    refine stepsAlike_ok trivial hput ?_ hmem
    simp only [CelhyperVmHost.handle_create, hlink, HyperReply.expect, HyperReply.asCreated]
    rfl

theorem stepsAlike_start (hd : DropIn c h) (vmId : UInt32) : StepsAlike debug c h (.handle (.start vmId)) := by
  have hmem : h.apply (.start vmId) = h.start vmId := hd.apply_eq _
  rcases hd.slot vmId with ⟨e, e', hs, hl⟩ | ⟨i, s, hi, hat, hs, hl⟩
  · simp only [MemVmHost.start, hs] at hmem
    refine stepsAlike_error trivial hd ?_ ⟨_, hmem⟩
    simp only [CelhyperVmHost.handle_start, CelhyperVmHost.changeState, LoopbackHyperLink.apply, hl, HyperReply.expect]
    exact ⟨_, rfl⟩
  · have hstate : s.loop.state = s.state := rfl
    simp only [MemVmHost.start, hs] at hmem
    by_cases hterm : s.state.isTerminal = true
    · rw [if_pos hterm] at hmem
      refine stepsAlike_error trivial hd ?_ ⟨_, hmem⟩
      simp only [CelhyperVmHost.handle_start, CelhyperVmHost.changeState, LoopbackHyperLink.apply, hl, hstate, if_pos hterm,
        HyperReply.expect]
      exact ⟨_, rfl⟩
    · rw [if_neg hterm] at hmem
      by_cases hrun : s.state = .running
      · rw [if_pos hrun] at hmem
        refine stepsAlike_error trivial hd ?_ ⟨_, hmem⟩
        simp only [CelhyperVmHost.handle_start, CelhyperVmHost.changeState, LoopbackHyperLink.apply, hl, hstate, if_neg hterm,
          if_pos hrun, HyperReply.expect]
        exact ⟨_, rfl⟩
      · rw [if_neg hrun] at hmem
        refine stepsAlike_ok trivial
          (hd.rewrite hi hat (t := { s with state := .halted, lastExit := some 12 }) rfl rfl rfl) ?_ hmem
        simp only [CelhyperVmHost.handle_start, CelhyperVmHost.changeState, LoopbackHyperLink.apply, hl, hstate, if_neg hterm,
          if_neg hrun, HyperReply.expect, HyperReply.asState]
        rfl

theorem stepsAlike_stop (hd : DropIn c h) (vmId : UInt32) : StepsAlike debug c h (.handle (.stop vmId)) := by
  have hmem : h.apply (.stop vmId) = h.stop vmId := hd.apply_eq _
  rcases hd.slot vmId with ⟨e, e', hs, hl⟩ | ⟨i, s, hi, hat, hs, hl⟩
  · simp only [MemVmHost.stop, hs] at hmem
    refine stepsAlike_error trivial hd ?_ ⟨_, hmem⟩
    simp only [CelhyperVmHost.handle_stop, CelhyperVmHost.changeState, LoopbackHyperLink.apply, hl, HyperReply.expect]
    exact ⟨_, rfl⟩
  · have hstate : s.loop.state = s.state := rfl
    simp only [MemVmHost.stop, hs] at hmem
    cases hterm : s.state.isTerminal with
    | true =>
      rw [hterm] at hmem
      refine stepsAlike_ok trivial (hd.rewrite hi hat (t := s) rfl rfl rfl) ?_ hmem
      simp only [CelhyperVmHost.handle_stop, CelhyperVmHost.changeState, LoopbackHyperLink.apply, hl, hstate, hterm,
        HyperReply.expect, HyperReply.asState]
      rfl
    | false =>
      rw [hterm] at hmem
      refine stepsAlike_ok trivial (hd.rewrite hi hat (t := { s with state := .stopped }) rfl rfl rfl) ?_ hmem
      simp only [CelhyperVmHost.handle_stop, CelhyperVmHost.changeState, LoopbackHyperLink.apply, hl, hstate, hterm,
        HyperReply.expect, HyperReply.asState]
      rfl

theorem stepsAlike_delete (hd : DropIn c h) (vmId : UInt32) : StepsAlike debug c h (.handle (.delete vmId)) := by
  have hmem : h.apply (.delete vmId) = h.delete vmId := hd.apply_eq _
  rcases hd.slot vmId with ⟨e, e', hs, hl⟩ | ⟨i, s, hi, hat, hs, hl⟩
  · simp only [MemVmHost.delete, hs] at hmem
    refine stepsAlike_error trivial hd ?_ ⟨_, hmem⟩
    simp only [CelhyperVmHost.handle_delete, LoopbackHyperLink.apply, hl, HyperReply.expect]
    exact ⟨_, rfl⟩
  · have hstate : s.loop.state = s.state := rfl
    simp only [MemVmHost.delete, hs] at hmem
    cases hterm : s.state.isTerminal with
    | false =>
      rw [hterm] at hmem
      refine stepsAlike_error trivial hd ?_ ⟨_, hmem⟩
      simp only [CelhyperVmHost.handle_delete, LoopbackHyperLink.apply, hl, hstate, hterm, HyperReply.expect]
      exact ⟨_, rfl⟩
    | true =>
      rw [hterm] at hmem
      have hid : vmId = UInt32.ofNat i := by
        rw [← hi, UInt32.ofNat_toNat]
      have hinj : ∀ j : Fin maxVms, j ≠ i → UInt32.ofNat j ≠ vmId := fun j hj heq => hj (ofNat_inj (heq.trans hid))
      let gone : LoopbackVmHost := { c with link := c.link.setSlot i none }.forget vmId
      have hput : DropIn gone (h.setSlot vmId none) := by
        refine hd.put (o := none) hi rfl rfl (fun _ h => by cases h) ?_ ?_ rfl rfl
        · exact fun j hj => AList.lookup_erase_ne (hinj j hj)
        · exact fun j hj => AList.lookup_erase_ne (hinj j hj)
      refine stepsAlike_ok trivial hput ?_ hmem
      simp only [CelhyperVmHost.handle_delete, LoopbackHyperLink.apply, hl, hstate, hterm, HyperReply.expect,
        HyperReply.asDeleted]
      rfl

/-! ## The rest -/

theorem new_apply (op : VmOp) : MemVmHost.new.apply op = MemVmHost.new.dispatch op := by
  rw [MemVmHost.apply, MemVmHost.new, Capabilities.all_contains]
  rfl

/-- What the bridge does with an operation that the contained host leaves without effect. -/
theorem DropIn.handle_other (hd : DropIn c h) {op : VmOp} {r : HostResult} (hop : op.isLifecycle = false)
    (hnew : MemVmHost.new.dispatch op = (r, .new)) : c.handle LoopbackHyperLink.apply debug op = (r, c) := by
  have hsame : { c with fallback := .new, strict := false } = c := by rw [← hd.fallback, ← hd.strict]
  rw [CelhyperVmHost.handle_other _ _ _ hop, hd.strict, hd.fallback, new_apply, hnew]
  exact congrArg (Prod.mk r) hsame

theorem stepsAlike_other (hd : DropIn c h) {op : VmOp} {r : VmOpReply} (hop : op.isLifecycle = false)
    (halike : h.Alike (.handle op)) (hnew : MemVmHost.new.dispatch op = (.ok r, .new))
    (hmem : h.dispatch op = (.ok r, h)) : StepsAlike debug c h (.handle op) :=
  stepsAlike_ok halike hd (hd.handle_other hop hnew) ((hd.apply_eq op).trans hmem)

theorem stepsAlike_refused (hd : DropIn c h) {op : VmOp} {e : String} (hop : op.isLifecycle = false)
    (halike : h.Alike (.handle op)) (hnew : MemVmHost.new.dispatch op = (.error e, .new))
    (hmem : ∃ e, h.dispatch op = (.error e, h)) : StepsAlike debug c h (.handle op) := by
  obtain ⟨e', hmem⟩ := hmem
  exact stepsAlike_error halike hd ⟨e, hd.handle_other hop hnew⟩ ⟨e', (hd.apply_eq op).trans hmem⟩

theorem stepsAlike_split (hd : DropIn c h) {op : VmOp} {e : String} (hop : op.isLifecycle = false)
    (halike : ¬ h.Alike (.handle op)) (hnew : MemVmHost.new.dispatch op = (.error e, .new))
    (hmem : ∃ reply, (h.dispatch op).1 = .ok reply) : StepsAlike debug c h (.handle op) := by
  obtain ⟨reply, hmem⟩ := hmem
  exact stepsAlike_apart halike ⟨e, hd.handle_other hop hnew⟩ ⟨reply, by rw [hd.apply_eq, hmem]⟩

/-- An operation that reads and writes one store only does to an empty one what the contained host does. -/
theorem stepsAlike_vault (hd : DropIn c h) {op : VmOp} (hop : op.isLifecycle = false) (halike : h.Alike (.handle op))
    {α : Type} {tag : String} {f : α → VmOpReply} {g : MemVolumeStore → CelResult α × MemVolumeStore}
    (hg : (g default).2 = default)
    (heq : ∀ k : MemVmHost, k.dispatch op = (MemVmHost.answer tag f (g k.vault).1, { k with vault := (g k.vault).2 })) :
    StepsAlike debug c h (.handle op) := by
  have hmem : h.dispatch op = (MemVmHost.answer tag f (g default).1, h) := by
    rw [heq, hd.vault, hg, ← hd.vault]
  have hnew : MemVmHost.new.dispatch op = (MemVmHost.answer tag f (g default).1, .new) := by
    rw [heq, show MemVmHost.new.vault = default from rfl, hg]
    rfl
  cases hr : MemVmHost.answer tag f (g default).1 with
  | error e =>
    rw [hr] at hnew hmem
    exact stepsAlike_refused hd hop halike hnew ⟨e, hmem⟩
  | ok reply =>
    rw [hr] at hnew hmem
    exact stepsAlike_other hd hop halike hnew hmem

theorem stepsAlike_nets (hd : DropIn c h) {op : VmOp} (hop : op.isLifecycle = false) (halike : h.Alike (.handle op))
    {α : Type} {tag : String} {f : α → VmOpReply} {g : MemNetworkStore → CelResult α × MemNetworkStore}
    (hg : (g default).2 = default)
    (heq : ∀ k : MemVmHost, k.dispatch op = (MemVmHost.answer tag f (g k.nets).1, { k with nets := (g k.nets).2 })) :
    StepsAlike debug c h (.handle op) := by
  have hmem : h.dispatch op = (MemVmHost.answer tag f (g default).1, h) := by
    rw [heq, hd.nets, hg, ← hd.nets]
  have hnew : MemVmHost.new.dispatch op = (MemVmHost.answer tag f (g default).1, .new) := by
    rw [heq, show MemVmHost.new.nets = default from rfl, hg]
    rfl
  cases hr : MemVmHost.answer tag f (g default).1 with
  | error e =>
    rw [hr] at hnew hmem
    exact stepsAlike_refused hd hop halike hnew ⟨e, hmem⟩
  | ok reply =>
    rw [hr] at hnew hmem
    exact stepsAlike_other hd hop halike hnew hmem

/-- Every slot of the in-memory host is as it was created, and no volume is attached. -/
theorem DropIn.attached (hd : DropIn c h) (id : VolumeId) : h.attached id = false := by
  rw [MemVmHost.attached, MemVmHost.toList_slots, List.any_eq_false]
  intro o ho
  obtain ⟨i, -, rfl⟩ := List.mem_map.1 ho
  cases hs : h.slotAt i with
  | none => simp
  | some s => simp [hd.bare i s hs]

theorem new_slotMut (vmId : UInt32) : ∃ e, MemVmHost.new.slotMut vmId = .error e := by
  cases hs : MemVmHost.new.slotMut vmId with
  | error e => exact ⟨e, rfl⟩
  | ok s =>
    have hget : (Vector.replicate maxSlots (none : Option Slot))[vmId.toNat]? = some (some s) := MemVmHost.slotMut_ok hs
    rw [Vector.getElem?_replicate] at hget
    split at hget <;> cases hget

theorem stepsAlike_createVolume (hd : DropIn c h) (name : String) (sizeBytes : UInt64) :
    StepsAlike debug c h (.handle (.createVolume name sizeBytes)) := by
  obtain ⟨owner, howner⟩ := Option.ne_none_iff_exists'.1 hd.owner
  have hmem : h.dispatch (.createVolume name sizeBytes) =
      (MemVmHost.answer "vault create" .volumeCreated (h.vault.create owner name sizeBytes).1,
        { h with vault := (h.vault.create owner name sizeBytes).2 }) := by
    simp only [MemVmHost.dispatch, MemVmHost.createVolume, howner]
  by_cases hok : CreateOk name sizeBytes
  · rw [h.vault.create_valid owner hok] at hmem
    exact stepsAlike_split hd rfl (fun halike => halike hok) rfl ⟨_, congrArg Prod.fst hmem⟩
  · obtain ⟨e, he⟩ := h.vault.create_invalid owner hok
    rw [he] at hmem
    exact stepsAlike_refused hd rfl hok rfl ⟨_, hmem⟩

theorem stepsAlike_deleteVolume (hd : DropIn c h) (id : VolumeId) :
    StepsAlike debug c h (.handle (.deleteVolume id)) := by
  refine stepsAlike_other (r := .volumeDeleted id) hd rfl trivial rfl ?_
  simp only [MemVmHost.dispatch, MemVmHost.deleteVolume, hd.attached, hd.vault]
  change (_, { h with vault := default }) = _
  rw [← hd.vault]
  rfl

theorem stepsAlike_attachVolume (hd : DropIn c h) (vmId : UInt32) (id : VolumeId) (mountName : String) :
    StepsAlike debug c h (.handle (.attachVolume vmId id mountName)) := by
  have hgone : ∀ k : MemVmHost, k.vault = default → ∃ e, k.dispatch (.attachVolume vmId id mountName) = (.error e, k) := by
    intro k hk
    simp only [MemVmHost.dispatch, MemVmHost.attachVolume, hk]
    split
    · exact ⟨_, rfl⟩
    · exact ⟨_, rfl⟩
  obtain ⟨e, he⟩ := hgone .new rfl
  exact stepsAlike_refused hd rfl trivial he (hgone h hd.vault)

theorem stepsAlike_detachVolume (hd : DropIn c h) (vmId : UInt32) (id : VolumeId) :
    StepsAlike debug c h (.handle (.detachVolume vmId id)) := by
  obtain ⟨e, he⟩ := new_slotMut vmId
  have hnew : MemVmHost.new.dispatch (.detachVolume vmId id) = (.error e, .new) := by
    simp only [MemVmHost.dispatch, MemVmHost.detachVolume, he]
  cases hs : h.slotMut vmId with
  | error e' =>
    refine stepsAlike_refused hd rfl ?_ hnew ⟨e', ?_⟩
    · intro s hs'
      cases hs.symm.trans hs'
    · simp only [MemVmHost.dispatch, MemVmHost.detachVolume, hs]
  | ok s =>
    refine stepsAlike_split hd rfl (fun halike => halike s hs) hnew ?_
    simp only [MemVmHost.dispatch, MemVmHost.detachVolume, hs]
    exact ⟨_, rfl⟩

theorem stepsAlike_createNetwork (hd : DropIn c h) (name cidr : String) :
    StepsAlike debug c h (.handle (.createNetwork name cidr)) := by
  obtain ⟨owner, howner⟩ := Option.ne_none_iff_exists'.1 hd.owner
  cases hblock : Cidr4.parse cidr with
  | error e =>
    refine stepsAlike_refused hd rfl ?_ rfl ?_
    · rintro ⟨-, block, hok⟩
      cases hblock.symm.trans hok
    · simp only [MemVmHost.dispatch, MemVmHost.createNetwork, howner, hblock]
      exact ⟨_, rfl⟩
  | ok block =>
    rcases h.nets.createNetwork_cases owner name block with ⟨⟨e, he⟩, hname⟩ | ⟨hname, hok⟩
    · refine stepsAlike_refused hd rfl (fun halike => hname halike.1) rfl ⟨"net create" ++ ": " ++ e.debug, ?_⟩
      simp only [MemVmHost.dispatch, MemVmHost.createNetwork, howner, hblock, he]
      rw [← howner]
      rfl
    · refine stepsAlike_split hd rfl (fun halike => halike ⟨hname, block, hblock⟩) rfl ?_
      simp only [MemVmHost.dispatch, MemVmHost.createNetwork, howner, hblock, hok]
      exact ⟨_, rfl⟩

theorem stepsAlike_attachNic (hd : DropIn c h) (net : NetworkId) (vmId : UInt32) (ip : Option String) :
    StepsAlike debug c h (.handle (.attachNic net vmId ip)) := by
  have hgone : ∀ k : MemVmHost, k.nets = default → ∃ e, k.dispatch (.attachNic net vmId ip) = (.error e, k) := by
    rintro ⟨slots, vault, nets, owner, caps⟩ rfl
    simp only [MemVmHost.dispatch, MemVmHost.attachNic]
    split
    · exact ⟨_, rfl⟩
    · split
      · exact ⟨_, rfl⟩
      · exact ⟨_, rfl⟩
  obtain ⟨e, he⟩ := hgone .new rfl
  exact stepsAlike_refused hd rfl trivial he (hgone h hd.nets)

theorem stepsAlike_createSecurityGroup (hd : DropIn c h) (name : String) (rules : List SecurityRule) :
    StepsAlike debug c h (.handle (.createSecurityGroup name rules)) := by
  obtain ⟨owner, howner⟩ := Option.ne_none_iff_exists'.1 hd.owner
  have hmem : h.dispatch (.createSecurityGroup name rules) =
      (MemVmHost.answer "sg create" .securityGroupCreated (h.nets.createSecurityGroup owner name rules).1,
        { h with nets := (h.nets.createSecurityGroup owner name rules).2 }) := by
    simp only [MemVmHost.dispatch, MemVmHost.createSecurityGroup, howner]
  rcases h.nets.createSecurityGroup_cases owner name rules with ⟨⟨e, he⟩, hno⟩ | ⟨sg, hok, heq⟩
  · rw [he] at hmem
    exact stepsAlike_refused hd rfl hno rfl ⟨_, hmem⟩
  · rw [heq] at hmem
    exact stepsAlike_split hd rfl (fun halike => halike hok) rfl ⟨_, congrArg Prod.fst hmem⟩

theorem stepsAlike_createLoadBalancer (hd : DropIn c h) (name : String) (net : NetworkId) (vip : String)
    (frontendPort : UInt16) (algo : LbAlgo) (backends : List LbBackend) :
    StepsAlike debug c h (.handle (.createLoadBalancer name net vip frontendPort algo backends)) := by
  obtain ⟨owner, howner⟩ := Option.ne_none_iff_exists'.1 hd.owner
  refine stepsAlike_refused hd rfl trivial rfl ?_
  simp only [MemVmHost.dispatch, MemVmHost.createLoadBalancer, howner]
  cases hvip : Ipv4Addr.parse vip with
  | none => exact ⟨_, rfl⟩
  | some addr =>
    rcases h.nets.createLoadBalancer_cases owner name net addr frontendPort algo backends with
      ⟨⟨e, he⟩, -⟩ | ⟨lb, ⟨-, -, v, hv, -⟩, -⟩
    · refine ⟨"lb create" ++ ": " ++ e.debug, ?_⟩
      simp only [he]
      rw [← howner]
      rfl
    · rw [hd.nets] at hv
      cases hv

/-- The row of one slot, on both sides. -/
theorem DropIn.row (hd : DropIn c h) (owner : NodeId) {i : Fin maxVms} {s : Slot} (hs : h.slotAt i = some s) :
    c.row owner ⟨UInt32.ofNat i, s.label, s.state.tag, s.lastExit, s.imagePath, s.cpuCount, s.memoryMib,
      s.bootBlobCrc32c⟩ = MemVmHost.row owner i s := by
  have hlabel : (if s.label.isEmpty then c.labelOf (UInt32.ofNat i) else s.label) = s.label := by
    split
    · rw [CelhyperVmHost.labelOf, hd.labels i s hs]
      rfl
    · rfl
  have hpolicy : c.policyOf (UInt32.ofNat i) = s.restartPolicy := by
    rw [CelhyperVmHost.policyOf, hd.policies i s hs]
    rfl
  simp only [CelhyperVmHost.row, MemVmHost.row, hlabel, hpolicy, hd.bare i s hs]

theorem DropIn.rows (hd : DropIn c h) (owner : NodeId) :
    (c.snapshot LoopbackHyperLink.apply owner).1 = (h.currentRows owner).1 := by
  simp only [CelhyperVmHost.snapshot, LoopbackHyperLink.apply, MemVmHost.currentRows, MemVmHost.rememberOwner_slots,
    MemVmHost.toList_slots]
  have hidx : ((List.finRange maxSlots).map h.slotAt).zipIdx = (List.finRange maxSlots).map (fun i => (h.slotAt i, i.1)) := by
    apply List.ext_getElem
    · simp
    · intro i hi hi'
      simp
  rw [hidx, List.map_filterMap, List.filterMap_map]
  refine List.filterMap_congr fun i _ => ?_
  change _ = (h.slotAt i).map (MemVmHost.row owner i)
  rw [hd.slots i]
  cases hs : h.slotAt i with
  | none => rfl
  | some s => exact congrArg some (hd.row owner hs)

theorem stepsAlike_snapshot (hd : DropIn c h) (owner : NodeId) : StepsAlike debug c h (.snapshot owner) := by
  have hrows := hd.rows owner
  have hnext : (h.currentRows owner).2 = h := by
    obtain ⟨o, ho⟩ := Option.ne_none_iff_exists'.1 hd.owner
    simp only [MemVmHost.currentRows, MemVmHost.rememberOwner, ho]
  have hboth : besideMem debug (c, h) (.snapshot owner) =
      ((.rows (h.currentRows owner).1, .rows (h.currentRows owner).1), (c, h)) := by
    simp only [besideMem, VmHost.both, VmHost.serve, CelhyperVmHost.host, MemVmHost.host, hrows, hnext]
    rfl
  rw [StepsAlike, hboth]
  exact ⟨iff_of_true rfl trivial, fun _ => hd⟩

theorem stepsAlike_attachPreserved (hd : DropIn c h) (vmId : UInt32) (attachments : List VolumeAttachment) :
    StepsAlike debug c h (.attachPreserved vmId attachments) := by
  obtain ⟨e, he⟩ := new_slotMut vmId
  have hnew : c.attachPreserved vmId attachments = (.error e, c) := by
    simp only [CelhyperVmHost.attachPreserved, hd.fallback, MemVmHost.attachPreserved, he]
    rw [← hd.fallback]
  cases hs : h.slotMut vmId with
  | error e' =>
    have hmem : h.attachPreserved vmId attachments = (.error e', h) := by
      simp only [MemVmHost.attachPreserved, hs]
    have hboth : besideMem debug (c, h) (.attachPreserved vmId attachments) =
        ((.attached (.error e), .attached (.error e')), (c, h)) := by
      simp only [besideMem, VmHost.both, VmHost.serve, CelhyperVmHost.host, MemVmHost.host, hnew, hmem]
    rw [StepsAlike, hboth]
    refine ⟨iff_of_true trivial fun s hs' => ?_, fun _ => hd⟩
    cases hs.symm.trans hs'
  | ok s =>
    refine ⟨iff_of_false ?_ fun halike => halike s hs, fun halike => absurd hs (halike s)⟩
    simp only [besideMem, VmHost.both, VmHost.serve, CelhyperVmHost.host, MemVmHost.host, hnew,
      MemVmHost.attachPreserved, hs]
    exact id

/-- **One call to both hosts.** -/
theorem stepsAlike (hd : DropIn c h) {call : VmHostCall} (hin : call.Within) : StepsAlike debug c h call := by
  cases call with
  | snapshot owner => exact stepsAlike_snapshot hd owner
  | attachPreserved vmId attachments => exact stepsAlike_attachPreserved hd vmId attachments
  | handle op =>
    cases op with
    | create label policy imagePath cpu mem crc => exact stepsAlike_create hd label policy imagePath cpu mem crc hin
    | start vmId => exact stepsAlike_start hd vmId
    | stop vmId => exact stepsAlike_stop hd vmId
    | delete vmId => exact stepsAlike_delete hd vmId
    | list => exact stepsAlike_ok trivial hd rfl (hd.apply_eq _)
    | createVolume name sizeBytes => exact stepsAlike_createVolume hd name sizeBytes
    | deleteVolume id => exact stepsAlike_deleteVolume hd id
    | listVolumes => exact stepsAlike_other hd rfl trivial rfl (by rw [MemVmHost.dispatch, hd.vault]; rfl)
    | attachVolume vmId id mountName => exact stepsAlike_attachVolume hd vmId id mountName
    | detachVolume vmId id => exact stepsAlike_detachVolume hd vmId id
    | readVolume id offset len =>
      have hgone : ∀ k : MemVmHost, k.vault = default → ∃ e, k.dispatch (.readVolume id offset len) = (.error e, k) := by
        intro k hk
        simp only [MemVmHost.dispatch, MemVmHost.readVolume, hk]
        split
        · exact ⟨_, rfl⟩
        · exact ⟨_, rfl⟩
      obtain ⟨e, he⟩ := hgone .new rfl
      exact stepsAlike_refused hd rfl trivial he (hgone h hd.vault)
    | writeVolume id offset bytes =>
      have hgone : ∀ k : MemVmHost, k.vault = default → ∃ e, k.dispatch (.writeVolume id offset bytes) = (.error e, k) := by
        rintro ⟨slots, vault, nets, owner, caps⟩ rfl
        simp only [MemVmHost.dispatch, MemVmHost.writeVolume]
        split
        · exact ⟨_, rfl⟩
        · exact ⟨_, rfl⟩
      obtain ⟨e, he⟩ := hgone .new rfl
      exact stepsAlike_refused hd rfl trivial he (hgone h hd.vault)
    | createSnapshot id name =>
      refine stepsAlike_vault (g := fun s => s.createSnapshot id name) hd rfl trivial ?_ fun k => rfl
      simp only [MemVolumeStore.createSnapshot]
      cases MemVolumeStore.validateName name <;> rfl
    | listSnapshots id => exact stepsAlike_other hd rfl trivial rfl (by rw [MemVmHost.dispatch, hd.vault]; rfl)
    | deleteSnapshot id => exact stepsAlike_vault (g := fun s => s.deleteSnapshot id) hd rfl trivial rfl fun k => rfl
    | restoreSnapshot id => exact stepsAlike_vault (g := fun s => s.restoreSnapshot id) hd rfl trivial rfl fun k => rfl
    | createNetwork name cidr => exact stepsAlike_createNetwork hd name cidr
    | deleteNetwork net => exact stepsAlike_nets (g := fun s => s.deleteNetwork net) hd rfl trivial rfl fun k => rfl
    | listNetworks => exact stepsAlike_other hd rfl trivial rfl (by rw [MemVmHost.dispatch, hd.nets]; rfl)
    | attachNic net vmId ip => exact stepsAlike_attachNic hd net vmId ip
    | detachNic id => exact stepsAlike_nets (g := fun s => s.detachNic id) hd rfl trivial rfl fun k => rfl
    | listNics => exact stepsAlike_other hd rfl trivial rfl (by rw [MemVmHost.dispatch, hd.nets]; rfl)
    | createSecurityGroup name rules => exact stepsAlike_createSecurityGroup hd name rules
    | deleteSecurityGroup id =>
      exact stepsAlike_nets (g := fun s => s.deleteSecurityGroup id) hd rfl trivial rfl fun k => rfl
    | listSecurityGroups => exact stepsAlike_other hd rfl trivial rfl (by rw [MemVmHost.dispatch, hd.nets]; rfl)
    | createLoadBalancer name net vip frontendPort algo backends =>
      exact stepsAlike_createLoadBalancer hd name net vip frontendPort algo backends
    | deleteLoadBalancer id =>
      exact stepsAlike_nets (g := fun s => s.deleteLoadBalancer id) hd rfl trivial rfl fun k => rfl
    | listLoadBalancers => exact stepsAlike_other hd rfl trivial rfl (by rw [MemVmHost.dispatch, hd.nets]; rfl)

end Steps

/-! ## Whole runs -/

/-- After `set_host` has primed the hosts with a `snapshot`. -/
theorem dropIn_primed (owner : NodeId) :
    DropIn (CelhyperVmHost.new LoopbackHyperLink.new) (MemVmHost.new.rememberOwner owner) := by
  have hnone : ∀ i : Fin maxVms, (MemVmHost.new.rememberOwner owner).slotAt i = none := by
    intro i
    simp [MemVmHost.slotAt, MemVmHost.rememberOwner, MemVmHost.new]
  have hfree : ∀ {i : Fin maxVms} {s : Slot} {P : Prop}, (MemVmHost.new.rememberOwner owner).slotAt i = some s → P := by
    intro i s P hs
    cases (hnone i).symm.trans hs
  refine ⟨fun i => ?_, fun _ _ => hfree, fun _ _ => hfree, fun _ _ => hfree, rfl, rfl, rfl, rfl, (fun h => by cases h), rfl⟩
  rw [hnone i]
  rfl

/-- A call within the limits. -/
structure BoundedCall where
  call : VmHostCall
  within : call.Within

/-- `set_host`'s call. -/
def BoundedCall.snapshot (owner : NodeId) : BoundedCall := ⟨.snapshot owner, trivial⟩

/-- The two hosts side by side, on calls within the limits. -/
def beside (debug : HyperReply → String) (s : LoopbackVmHost × MemVmHost) (b : BoundedCall) :
    (VmHostReply × VmHostReply) × (LoopbackVmHost × MemVmHost) :=
  besideMem debug s b.call

theorem beside_snapshot (debug : HyperReply → String) (owner : NodeId) :
    beside debug (CelhyperVmHost.new LoopbackHyperLink.new, MemVmHost.new) (.snapshot owner) =
      ((.rows [], .rows []), (CelhyperVmHost.new LoopbackHyperLink.new, MemVmHost.new.rememberOwner owner)) :=
  rfl

/-- **From the `snapshot` of `set_host` on, the bridge host over the loopback link and the in-memory host answer alike at
every step exactly if every call is one they answer alike.** -/
theorem drop_in_iff (debug : HyperReply → String) (owner : NodeId) (calls : List BoundedCall) :
    (∀ r ∈ answers (beside debug) (CelhyperVmHost.new LoopbackHyperLink.new, MemVmHost.new) (.snapshot owner :: calls),
        VmHostReply.Agrees r) ↔
      Along (beside debug) (fun s b => s.2.Alike b.call) (CelhyperVmHost.new LoopbackHyperLink.new, MemVmHost.new)
        (.snapshot owner :: calls) := by
  rw [answers, List.forall_mem_cons, Along, beside_snapshot]
  refine and_congr (iff_of_true rfl trivial) ?_
  refine answers_iff_along (I := fun s : LoopbackVmHost × MemVmHost => DropIn s.1 s.2) (fun s b hd => ?_)
    (dropIn_primed owner) calls
  exact (stepsAlike hd b.within : StepsAlike debug s.1 s.2 b.call)

/-- A volume, on both hosts. -/
def volumeCalls : List BoundedCall :=
  [.snapshot ⟨"n1"⟩, ⟨.handle (.createVolume "data" 2), trivial⟩]

/-- **After a `snapshot`, a `CreateVolume` succeeds on the in-memory host and fails on the bridge**, whose contained host
does not know its owner. -/
theorem volume_not_created :
    answers (beside fun _ => "") (CelhyperVmHost.new LoopbackHyperLink.new, MemVmHost.new) volumeCalls =
      [(.rows [], .rows []),
        (.handled (.error "vault: owner not yet known; snapshot first"),
          .handled (.ok (.volumeCreated ⟨⟨"n1/v1"⟩, "n1", "data", 2⟩)))] ∧
    ¬ ∀ r ∈ answers (beside fun _ => "") (CelhyperVmHost.new LoopbackHyperLink.new, MemVmHost.new) volumeCalls,
      VmHostReply.Agrees r := by
  have hanswers : answers (beside fun _ => "") (CelhyperVmHost.new LoopbackHyperLink.new, MemVmHost.new) volumeCalls =
      [(.rows [], .rows []),
        (.handled (.error "vault: owner not yet known; snapshot first"),
          .handled (.ok (.volumeCreated ⟨⟨"n1/v1"⟩, "n1", "data", 2⟩)))] := by decide +kernel
  refine ⟨hanswers, fun h => ?_⟩
  rw [hanswers] at h
  exact h _ (List.mem_cons_of_mem _ List.mem_cons_self)

end Celium
