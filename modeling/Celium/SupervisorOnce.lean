import Celium.Supervisor
import Mathlib.Data.Finset.Card
import Mathlib.Data.Fintype.Basic
import Mathlib.Data.Set.Function
/-!
# SupervisorOnce — when a pass recovers every orphan, once

On the elected supervisor, with a `MemVmHost` that has a free slot for every orphan: each orphan gets a VM of its own
that carries what the orphan had, and no later pass makes another, exactly when every `Create` is granted and no orphan
is taken for a VM the host already has.
-/
namespace Celium

/-- A recovery label fits a host. -/
theorem recoveryLabel_size {o : RemoteVm} {l : String} (h : recoveryLabel o = some l) : l.utf8ByteSize ≤ 32 := by
  unfold recoveryLabel at h
  dsimp only at h
  split at h
  · obtain ⟨cs, hcs, rfl⟩ := Option.map_eq_some_iff.1 h
    exact (Text.sliceTo_size hcs).le
  · obtain rfl := Option.some.inj h
    exact Nat.le_of_not_lt ‹_›

namespace MemVmHost

/-- What stands in a slot. -/
def slotAt (h : MemVmHost) (i : Fin maxSlots) : Option Slot := h.slots[i.1]

/-- The free slots. -/
def vacant (h : MemVmHost) : Finset (Fin maxSlots) := Finset.univ.filter (fun i => h.slotAt i = none)

theorem mem_vacant {h : MemVmHost} {i : Fin maxSlots} : i ∈ h.vacant ↔ h.slotAt i = none := by simp [vacant]

/-- `h'` is `h` with one free slot filled. -/
structure Fills (h : MemVmHost) (i : Fin maxSlots) (s : Slot) (h' : MemVmHost) : Prop where
  free : h.slotAt i = none
  filled : h'.slotAt i = some s
  others : ∀ j, j ≠ i → h'.slotAt j = h.slotAt j
  caps : h'.caps = h.caps

theorem Fills.vacant {h h' : MemVmHost} {i : Fin maxSlots} {s : Slot} (hf : h.Fills i s h') :
    h'.vacant = h.vacant.erase i := by
  ext j
  rw [Finset.mem_erase, mem_vacant, mem_vacant]
  by_cases hj : j = i
  · subst hj
    simp [hf.filled]
  · rw [hf.others j hj]
    exact (and_iff_right hj).symm

theorem Fills.card {h h' : MemVmHost} {i : Fin maxSlots} {s : Slot} (hf : h.Fills i s h') :
    h'.vacant.card + 1 = h.vacant.card := by
  rw [hf.vacant]
  exact Finset.card_erase_add_one (mem_vacant.2 hf.free)

/-- What stands in a slot stays there while free slots are filled. -/
theorem Fills.keeps {h h' : MemVmHost} {i j : Fin maxSlots} {s t : Slot} (hf : h.Fills i s h') (hj : h.slotAt j = some t) :
    h'.slotAt j = some t := by
  by_cases hji : j = i
  · subst hji
    rw [hf.free] at hj
    cases hj
  · rw [hf.others j hji, hj]

theorem freeSlot_none {h : MemVmHost} : h.freeSlot = none ↔ h.vacant = ∅ := by
  unfold freeSlot
  rw [List.findIdx?_eq_none_iff, Finset.eq_empty_iff_forall_notMem]
  constructor
  · intro hall i hi
    have hmem : h.slots[i.1] ∈ h.slots.toList := Vector.mem_toList_iff.2 (Vector.getElem_mem i.2)
    have hsome := hall _ hmem
    rw [show h.slots[i.1] = none from mem_vacant.1 hi] at hsome
    cases hsome
  · intro hall o ho
    obtain ⟨k, hk, rfl⟩ := Vector.getElem_of_mem (Vector.mem_toList_iff.1 ho)
    have hne : h.slots[k] ≠ none := fun hn => hall ⟨k, hk⟩ (mem_vacant.2 hn)
    simpa [Option.isSome_iff_ne_none] using hne

/-- The slot the supervisor's `Create` and `attach_preserved` leave for an orphan. -/
def recoveredSlot (l : String) (o : RemoteVm) : Slot :=
  { label := l, state := .created, lastExit := none, restartPolicy := .never, volumes := o.volumes,
    imagePath := o.imagePath, cpuCount := o.cpuCount, memoryMib := o.memoryMib, bootBlobCrc32c := o.bootBlobCrc32c }

/-- The supervisor's `Create` is granted: the capability is there, the label fits and a slot is free. -/
structure Grants (h : MemVmHost) (l : String) : Prop where
  caps : h.caps.contains .vmLifecycleWrite = true
  label : l.utf8ByteSize ≤ 32
  free : h.vacant.Nonempty

theorem setSlot_fills {h : MemVmHost} {i : Fin maxSlots} (hi : h.slotAt i = none) (s : Slot) {vmId : UInt32}
    (hv : vmId.toNat = i.1) : h.Fills i s (h.setSlot vmId (some s)) := by
  refine ⟨hi, ?_, fun j hj => ?_, rfl⟩
  · simp [slotAt, setSlot, hv]
  · have hne : ¬ i.1 = j.1 := fun h => hj (Fin.ext h.symm)
    simp [slotAt, setSlot, hv, hne]

/-- **A granted `Create` fills a free slot with what the orphan had**, its volumes included. -/
theorem recovery_granted {h : MemVmHost} {l : String} {o : RemoteVm} (hg : h.Grants l) :
    ∃ vmId h', host.handle h (recoveryOp l o) = (.ok (.created vmId), h') ∧
      ∃ i, h.Fills i (recoveredSlot l o) (host.reattach h' vmId o) := by
  obtain ⟨k, hk⟩ : ∃ k, h.freeSlot = some k := by
    cases hk : h.freeSlot with
    | none => exact absurd (freeSlot_none.1 hk) hg.free.ne_empty
    | some k => exact ⟨k, rfl⟩
  obtain ⟨hto, hlt, hnone⟩ := freeSlot_some hk
  have hfree : h.slotAt ⟨k, hlt⟩ = none := by
    rw [Vector.getElem?_eq_getElem hlt] at hnone
    exact Option.some.inj hnone
  set bare : Slot := { recoveredSlot l o with volumes := [] } with hbare
  have hop : h.apply (recoveryOp l o) = (.ok (.created (UInt32.ofNat k)), h.setSlot (UInt32.ofNat k) (some bare)) := by
    unfold apply
    rw [if_neg (by simp [Capabilities.required, recoveryOp, hg.caps])]
    simp only [dispatch, recoveryOp, create]
    rw [if_neg (Nat.not_lt.2 hg.label), hk]
    rfl
  refine ⟨UInt32.ofNat k, _, hop, ⟨k, hlt⟩, ?_⟩
  have hfill := setSlot_fills hfree bare hto
  unfold VmHost.reattach
  split
  · rename_i hvol
    have : recoveredSlot l o = bare := by rw [hbare, recoveredSlot, List.isEmpty_iff.1 hvol]
    rw [this]
    exact hfill
  · have hslot : (h.setSlot (UInt32.ofNat k) (some bare)).slotMut (UInt32.ofNat k) = .ok bare := by
      unfold slotMut
      rw [hto, Vector.getElem?_eq_getElem hlt]
      rw [show (h.setSlot (UInt32.ofNat k) (some bare)).slots[k] = some bare from hfill.filled]
    have hattach : (host.attachPreserved (h.setSlot (UInt32.ofNat k) (some bare)) (UInt32.ofNat k) o.volumes).2 =
        h.setSlot (UInt32.ofNat k) (some (recoveredSlot l o)) := by
      change (attachPreserved _ _ _).2 = _
      unfold attachPreserved
      rw [hslot]
      simp only [setSlot, hto, Vector.setIfInBounds_setIfInBounds]
      rfl
    rw [hattach]
    exact setSlot_fills hfree _ hto

/-- **A refused `Create` leaves the host as it was.** -/
theorem recovery_refused {h : MemVmHost} {l : String} {o : RemoteVm} (hg : ¬ h.Grants l) :
    ∃ e, host.handle h (recoveryOp l o) = (.error e, h) := by
  change ∃ e, h.apply (recoveryOp l o) = (.error e, h)
  unfold apply
  by_cases hcaps : h.caps.contains .vmLifecycleWrite = true
  · rw [if_neg (by simp [Capabilities.required, recoveryOp, hcaps])]
    simp only [dispatch, recoveryOp, create]
    by_cases hlabel : l.utf8ByteSize ≤ 32
    · rw [if_neg (Nat.not_lt.2 hlabel)]
      have hempty : h.vacant = ∅ := by
        by_contra hne
        exact hg ⟨hcaps, hlabel, Finset.nonempty_iff_ne_empty.2 hne⟩
      rw [freeSlot_none.2 hempty]
      exact ⟨_, rfl⟩
    · rw [if_pos (Nat.lt_of_not_le hlabel)]
      exact ⟨_, rfl⟩
  · rw [if_pos (by simp [Capabilities.required, recoveryOp, hcaps])]
    exact ⟨_, rfl⟩

/-! ## The loop -/

/-- **What one turn of the loop can do.** -/
inductive Turn (existing : List String) (o : RemoteVm) (os : List RemoteVm) (h : MemVmHost) : Prop
  | cut (label : recoveryLabel o = none) (eq : host.recover existing (o :: os) h = (.panicked, [], h))
  | skipped (l : String) (label : recoveryLabel o = some l) (there : l ∈ existing)
      (eq : host.recover existing (o :: os) h = host.recover existing os h)
  | refused (l : String) (label : recoveryLabel o = some l) (no : ¬ h.Grants l) (e : CelError)
      (eq : host.recover existing (o :: os) h = (.failed e, [], h))
  | made (l : String) (label : recoveryLabel o = some l) (new : l ∉ existing) (yes : h.Grants l) (vm : RestartedVm)
      (i : Fin maxSlots) (h' : MemVmHost) (fills : h.Fills i (recoveredSlot l o) h')
      (eq : host.recover existing (o :: os) h =
        ((host.recover existing os h').1, vm :: (host.recover existing os h').2.1, (host.recover existing os h').2.2))

theorem turn (existing : List String) (o : RemoteVm) (os : List RemoteVm) (h : MemVmHost) : Turn existing o os h := by
  cases hl : recoveryLabel o with
  | none => exact .cut hl (recover_cut host hl)
  | some l =>
    by_cases hex : l ∈ existing
    · exact .skipped l hl hex (recover_skip host hl hex)
    · by_cases hg : h.Grants l
      · obtain ⟨vmId, h', hc, i, hf⟩ := recovery_granted (o := o) hg
        exact .made l hl hex hg _ i _ hf (recover_made host hl hex hc)
      · obtain ⟨e, hc⟩ := recovery_refused (o := o) hg
        exact .refused l hl hg _ (recover_refused host hl hex hc)

/-- What the loop keeps of the host: only free slots are filled, one for each VM it made. -/
structure Grown (h : MemVmHost) (n : Nat) (h' : MemVmHost) : Prop where
  keeps : ∀ (j : Fin maxSlots) t, h.slotAt j = some t → h'.slotAt j = some t
  card : h'.vacant.card + n = h.vacant.card
  caps : h'.caps = h.caps

theorem recover_grown (existing : List String) (os : List RemoteVm) (h : MemVmHost) :
    h.Grown (host.recover existing os h).2.1.length (host.recover existing os h).2.2 := by
  have hrefl : ∀ h : MemVmHost, h.Grown 0 h := fun h => ⟨fun _ _ hj => hj, rfl, rfl⟩
  induction os generalizing h with
  | nil => exact hrefl h
  | cons o os ih =>
    cases turn existing o os h with
    | cut label eq =>
      rw [eq]
      exact hrefl h
    | skipped l label there eq =>
      rw [eq]
      exact ih h
    | refused l label no e eq =>
      rw [eq]
      exact hrefl h
    | made l label new yes vm i h' fills eq =>
      rw [eq]
      have hrest := ih h'
      refine ⟨fun j t hj => hrest.keeps j t (fills.keeps hj), ?_, hrest.caps.trans fills.caps⟩
      have h1 := fills.card
      have h2 := hrest.card
      dsimp only
      rw [List.length_cons]
      omega

/-- The loop makes at most one VM for each orphan, and all of them only if each was granted and none was passed over. -/
theorem recover_length (existing : List String) (os : List RemoteVm) (h : MemVmHost) :
    (host.recover existing os h).2.1.length ≤ os.length ∧
      (os.length ≤ (host.recover existing os h).2.1.length → ∀ o ∈ os,
        h.caps.contains .vmLifecycleWrite = true ∧ ∃ l, recoveryLabel o = some l ∧ l ∉ existing) := by
  induction os generalizing h with
  | nil => exact ⟨le_rfl, fun _ o ho => absurd ho List.not_mem_nil⟩
  | cons o os ih =>
    rw [List.length_cons]
    cases turn existing o os h with
    | cut label eq =>
      rw [eq]
      exact ⟨Nat.zero_le _, fun hle => absurd hle (Nat.not_succ_le_zero _)⟩
    | skipped l label there eq =>
      rw [eq]
      have hle := (ih h).1
      exact ⟨hle.trans (Nat.le_succ _), fun hge => by omega⟩
    | refused l label no e eq =>
      rw [eq]
      exact ⟨Nat.zero_le _, fun hle => absurd hle (Nat.not_succ_le_zero _)⟩
    | made l label new yes vm i h' fills eq =>
      rw [eq]
      obtain ⟨hle, hall⟩ := ih h'
      refine ⟨Nat.succ_le_succ hle, fun hge o' ho' => ?_⟩
      rcases List.mem_cons.1 ho' with rfl | ho'
      · exact ⟨yes.caps, l, label, new⟩
      · have := hall (Nat.le_of_succ_le_succ hge) o' ho'
        rwa [fills.caps] at this

/-- **Where every orphan is new and may be created, each gets a slot of its own.** -/
theorem recover_places (existing : List String) {os : List RemoteVm} (hnd : os.Nodup) {h : MemVmHost}
    (hfree : os.length ≤ h.vacant.card)
    (hall : ∀ o ∈ os, h.caps.contains .vmLifecycleWrite = true ∧ ∃ l, recoveryLabel o = some l ∧ l ∉ existing) :
    ∃ f : RemoteVm → Fin maxSlots, Set.InjOn f {o | o ∈ os} ∧ ∀ o ∈ os, h.slotAt (f o) = none ∧
      ∃ l, recoveryLabel o = some l ∧ (host.recover existing os h).2.2.slotAt (f o) = some (recoveredSlot l o) := by
  induction os generalizing h with
  | nil => exact ⟨fun _ => 0, fun o ho => absurd ho List.not_mem_nil, fun o ho => absurd ho List.not_mem_nil⟩
  | cons o os ih =>
    obtain ⟨hcaps, l', hl', hnew'⟩ := hall o List.mem_cons_self
    rw [List.length_cons] at hfree
    cases turn existing o os h with
    | cut label eq => exact absurd (hl'.symm.trans label) (by simp)
    | skipped l label there eq => exact absurd there (Option.some.inj (hl'.symm.trans label) ▸ hnew')
    | refused l label no e eq =>
      refine absurd ⟨hcaps, recoveryLabel_size label, ?_⟩ no
      exact Finset.card_pos.1 (Nat.lt_of_lt_of_le (Nat.succ_pos _) hfree)
    | made l label new yes vm i h' fills eq =>
      obtain ⟨hno, hnd⟩ := List.nodup_cons.1 hnd
      have hcard := fills.card
      obtain ⟨f, hinj, hf⟩ := ih hnd (h := h') (by omega) (fun o' ho' => by
        rw [fills.caps]
        exact hall o' (List.mem_cons_of_mem o ho'))
      -- The slot taken for `o` is full when the rest of the orphans get theirs.
      have hne : ∀ o' ∈ os, f o' ≠ i := by
        intro o' ho' hi
        have hnone := (hf o' ho').1
        rw [hi, fills.filled] at hnone
        cases hnone
      have hold : ∀ o' ∈ os, Function.update f o i o' = f o' :=
        fun o' ho' => Function.update_of_ne (ne_of_mem_of_not_mem ho' hno) i f
      refine ⟨Function.update f o i, ?_, ?_⟩
      · intro a ha b hb hab
        rcases List.mem_cons.1 ha with ha | ha <;> rcases List.mem_cons.1 hb with hb | hb
        · exact ha.trans hb.symm
        · rw [ha, Function.update_self, hold b hb] at hab
          exact absurd hab.symm (hne b hb)
        · rw [hb, Function.update_self, hold a ha] at hab
          exact absurd hab (hne a ha)
        · rw [hold a ha, hold b hb] at hab
          exact hinj ha hb hab
      · intro o' ho'
        rw [eq]
        rcases List.mem_cons.1 ho' with rfl | ho'
        · rw [Function.update_self]
          exact ⟨fills.free, l, label, (recover_grown existing os h').keeps i _ fills.filled⟩
        · rw [hold o' ho']
          obtain ⟨hnone, hslot⟩ := hf o' ho'
          rw [fills.others _ (hne o' ho')] at hnone
          exact ⟨hnone, hslot⟩

/-- A loop in which every label is on the host already does nothing. -/
theorem recover_nothing (existing : List String) (os : List RemoteVm) {h : MemVmHost}
    (hall : ∀ o ∈ os, ∃ l, recoveryLabel o = some l ∧ l ∈ existing) : host.recover existing os h = (.done, [], h) := by
  induction os with
  | nil => rfl
  | cons o os ih =>
    obtain ⟨l, hl, hex⟩ := hall o List.mem_cons_self
    rw [recover_skip host hl hex]
    exact ih (fun o' ho' => hall o' (List.mem_cons_of_mem o ho'))

/-! ## The pass -/

/-- Some VM on the host has the label. -/
def HasLabel (h : MemVmHost) (l : String) : Prop := ∃ i s, h.slotAt i = some s ∧ s.label = l

@[simp] theorem rememberOwner_slotAt (h : MemVmHost) (owner : NodeId) (i : Fin maxSlots) :
    (h.rememberOwner owner).slotAt i = h.slotAt i := by
  unfold rememberOwner
  split <;> rfl

@[simp] theorem rememberOwner_caps (h : MemVmHost) (owner : NodeId) : (h.rememberOwner owner).caps = h.caps := by
  unfold rememberOwner
  split <;> rfl

theorem vacant_congr {h h' : MemVmHost} (heq : ∀ i, h'.slotAt i = h.slotAt i) : h'.vacant = h.vacant := by
  ext i
  rw [mem_vacant, mem_vacant, heq]

/-- **The labels a pass compares with are those on the host.** -/
theorem mem_labels (h : MemVmHost) (owner : NodeId) (l : String) :
    l ∈ ((host.snapshot h owner).1.map (·.label)) ↔ h.HasLabel l := by
  have hrow : ∀ (i : Nat) (s : Slot), (row owner i s).label = s.label := fun _ _ => rfl
  change l ∈ ((h.rememberOwner owner).slots.toList.zipIdx.filterMap (fun e => e.1.map (row owner e.2))).map (·.label) ↔ _
  simp only [List.mem_map, List.mem_filterMap, Prod.exists, Option.map_eq_some_iff]
  constructor
  · rintro ⟨r, ⟨o, k, hmem, s, rfl, rfl⟩, rfl⟩
    obtain ⟨hlt, hget⟩ := List.mk_mem_zipIdx_iff_getElem?.1 hmem |> List.getElem?_eq_some_iff.1
    have hk : k < maxSlots := by simpa using hlt
    refine ⟨⟨k, hk⟩, s, ?_, (hrow k s).symm⟩
    rw [← h.rememberOwner_slotAt owner]
    simpa [slotAt] using hget
  · rintro ⟨i, s, hs, rfl⟩
    rw [← h.rememberOwner_slotAt owner] at hs
    refine ⟨row owner i.1 s, ⟨some s, i.1, ?_, s, rfl, rfl⟩, hrow i.1 s⟩
    rw [List.mk_mem_zipIdx_iff_getElem?, List.getElem?_eq_some_iff]
    exact ⟨by simp, by simpa [slotAt] using hs⟩

/-- The host a pass leaves. -/
def supervised (h : MemVmHost) (g : Inner) (now : Nat) : MemVmHost :=
  (g.runSupervisorStep host (some h) now).host.getD h

theorem endPass_slotAt (g : Inner) (now : Nat) (r : LoopEnd × List RestartedVm × MemVmHost) (h : MemVmHost)
    (i : Fin maxSlots) : ((g.endPass host now r).host.getD h).slotAt i = r.2.2.slotAt i := by
  obtain ⟨_ | e | _, out, h'⟩ := r
  · unfold Inner.endPass
    dsimp only
    split
    · rfl
    · exact h'.rememberOwner_slotAt _ i
  · rfl
  · rfl

/-- **The slots a pass leaves** are those of its loop. -/
theorem supervised_slotAt {g : Inner} (hsup : g.isSupervisor = true) (h : MemVmHost) (now : Nat) (i : Fin maxSlots) :
    (h.supervised g now).slotAt i =
      (host.recover ((host.snapshot h g.config.nodeId).1.map (·.label)) g.orphanedVms.1
        (h.rememberOwner g.config.nodeId)).2.2.slotAt i := by
  unfold supervised Inner.runSupervisorStep
  rw [if_neg (by simp [hsup])]
  dsimp only
  split
  · rename_i hnil
    rw [List.isEmpty_iff.1 hnil]
    exact (h.rememberOwner_slotAt _ i).symm
  · exact endPass_slotAt _ now _ h i

theorem supervised_idle {g : Inner} (hsup : ¬ g.isSupervisor = true) (h : MemVmHost) (now : Nat) :
    h.supervised g now = h := by
  unfold supervised Inner.runSupervisorStep
  rw [if_pos (by simpa using hsup)]
  rfl

end MemVmHost

/-! ## The orphans -/

namespace Inner

/-- The two states say the same of every other node: its membership row, and its VMs up to `owner_alive`. -/
structure SamePeers (g g' : Inner) : Prop where
  members : ∀ x, x ≠ g.membership.selfId → g'.membership.get x = g.membership.get x
  vms : ∀ k, k.1 ≠ g.federation.selfId →
    (g'.federation.rows.lookup k).map RemoteVm.received = (g.federation.rows.lookup k).map RemoteVm.received

theorem orphanedVms_nodup {cfg : MeshConfig} {g : Inner} (hg : g.Wf cfg) : g.orphanedVms.1.Nodup :=
  (NamespaceFederation.refreshAlive_wf hg.vms _).list_nodup.filter _

/-- **The orphans are a matter of the other nodes' rows only.** -/
theorem SamePeers.orphanedVms {cfg : MeshConfig} {g g' : Inner} (hg : g.Wf cfg) (hg' : g'.Wf cfg) (h : g.SamePeers g')
    {o : RemoteVm} (ho : o ∈ g'.orphanedVms.1) : o ∈ g.orphanedVms.1 := by
  obtain ⟨k, v, hv, hown, halive, hpolicy, rfl⟩ := (g'.mem_orphanedVms o).1 ho
  have hkv : k.1 = v.owner := congrArg Prod.fst (hg'.vms.keyed k v hv).symm
  rw [hg'.vm_self] at hown
  have hlook := h.vms k (by rw [hkv, hg.vm_self]; exact hown)
  rw [hv, Option.map_some] at hlook
  obtain ⟨w, hw, hwv⟩ := Option.map_eq_some_iff.1 hlook.symm
  have howner : w.received.owner = v.received.owner := by rw [hwv]
  change w.owner = v.owner at howner
  have hpol : w.received.restartPolicy = v.received.restartPolicy := by rw [hwv]
  have hsame : ({ w.received with ownerAlive := false } : RemoteVm) = { v.received with ownerAlive := false } := by
    rw [hwv]
  refine (g.mem_orphanedVms _).2 ⟨k, w, hw, ?_, ?_, ?_, hsame.symm⟩
  · rw [howner, hg.vm_self]
    exact hown
  · rw [howner, ← Bool.not_eq_true, aliveOf_iff hg.members]
    rw [← Bool.not_eq_true, aliveOf_iff hg'.members] at halive
    rwa [h.members _ (by rw [hg.member_self]; exact hown)] at halive
  · exact hpol.trans hpolicy

theorem SamePeers.refl (g : Inner) : g.SamePeers g := ⟨fun _ _ => rfl, fun _ _ => rfl⟩

theorem orphanedVms_samePeers (g : Inner) : g.SamePeers g.orphanedVms.2 := by
  refine ⟨fun _ _ => rfl, fun k _ => ?_⟩
  change ((g.federation.refreshAlive g.aliveOf).rows.lookup k).map RemoteVm.received = _
  rw [NamespaceFederation.refreshAlive_rows, Option.map_map]
  rfl

theorem burst_wf {cfg : MeshConfig} {g : Inner} (hg : g.Wf cfg) (peers : List String) : (g.burst peers).Wf cfg := by
  induction peers generalizing g with
  | nil => exact hg
  | cons p peers ih => exact ih hg.tick

theorem burst_tables (g : Inner) (peers : List String) :
    (g.burst peers).membership = g.membership ∧ (g.burst peers).federation = g.federation := by
  induction peers generalizing g with
  | nil => exact ⟨rfl, rfl⟩
  | cons p peers ih => exact ih g.sendSync.2

theorem republish_samePeers {cfg : MeshConfig} {g g' : Inner} (hg : g.Wf cfg) (h : g'.Wf cfg ∧ g.SamePeers g')
    {σ : Type} {H : VmHost σ} (host : σ) (now : Nat) :
    (g'.republishAfterOp H host now).1.Wf cfg ∧ g.SamePeers (g'.republishAfterOp H host now).1 := by
  obtain ⟨hg', hsame⟩ := h
  unfold republishAfterOp
  dsimp only
  refine ⟨burst_wf (publish_wf hg' _ now) _, fun x hx => ?_, fun k hk => ?_⟩
  · rw [(burst_tables _ _).1, ← hsame.members x hx]
    rw [hg.member_self, ← hg'.member_self] at hx
    exact Membership.bumpSelf_rows _ _ now hx
  · rw [(burst_tables _ _).2, ← hsame.vms k hk]
    rw [hg.vm_self, ← hg'.vm_self] at hk
    exact congrArg (Option.map RemoteVm.received) (NamespaceFederation.setLocal_peers _ _ hk)

/-- **A pass leaves what the tables say of other nodes.** -/
theorem runSupervisorStep_samePeers {cfg : MeshConfig} {g : Inner} (hg : g.Wf cfg) {σ : Type} (H : VmHost σ)
    (host : Option σ) (now : Nat) :
    (g.runSupervisorStep H host now).inner.Wf cfg ∧ g.SamePeers (g.runSupervisorStep H host now).inner := by
  have hread : g.orphanedVms.2.Wf cfg ∧ g.SamePeers g.orphanedVms.2 := ⟨listVms_wf hg, g.orphanedVms_samePeers⟩
  unfold runSupervisorStep
  split
  · exact ⟨hg, .refl g⟩
  · cases host with
    | none => exact ⟨hg, .refl g⟩
    | some h =>
      dsimp only
      split
      · exact hread
      · generalize H.recover _ _ _ = r
        obtain ⟨_ | e | _, out, h'⟩ := r
        · unfold endPass
          dsimp only
          split
          · exact hread
          · exact republish_samePeers hg hread _ now
        · exact hread
        · exact hread

end Inner

/-! ## Recovery, once -/

/-- The VM has what the orphan had. -/
structure Slot.Carries (s : Slot) (o : RemoteVm) : Prop where
  imagePath : s.imagePath = o.imagePath
  cpuCount : s.cpuCount = o.cpuCount
  memoryMib : s.memoryMib = o.memoryMib
  bootBlobCrc32c : s.bootBlobCrc32c = o.bootBlobCrc32c
  volumes : s.volumes = o.volumes

/-- The host after passes that each find the shared state they are paired with. -/
def MemVmHost.supervisedAll (h : MemVmHost) (later : List (Inner × Nat)) : MemVmHost :=
  later.foldl (fun h p => h.supervised p.1 p.2) h

/-- A pass gives every orphan a VM of its own that was not there before and has what the orphan had, and no later pass
adds a VM, as long as the other nodes' rows stay as they are. -/
structure RecoversOnce (cfg : MeshConfig) (g : Inner) (h : MemVmHost) (now : Nat) : Prop where
  recovered : ∃ f : RemoteVm → Fin maxSlots, Set.InjOn f {o | o ∈ g.orphanedVms.1} ∧ ∀ o ∈ g.orphanedVms.1,
    h.slotAt (f o) = none ∧ ∃ s, (h.supervised g now).slotAt (f o) = some s ∧ s.Carries o
  settled : ∀ later : List (Inner × Nat), (∀ p ∈ later, p.1.Wf cfg ∧ g.SamePeers p.1) →
    ∀ i, ((h.supervised g now).supervisedAll later).slotAt i = (h.supervised g now).slotAt i

/-- The orphan can be recovered on the host: `Create` is granted, the label can be cut, and no VM has it yet. -/
structure MemVmHost.Takes (h : MemVmHost) (o : RemoteVm) : Prop where
  caps : h.caps.contains .vmLifecycleWrite = true
  label : ∃ l, recoveryLabel o = some l ∧ ¬ h.HasLabel l

namespace MemVmHost

/-- A pass over orphans that all have their label on the host leaves its slots alone. -/
theorem supervised_settled {h : MemVmHost} {g : Inner}
    (hall : ∀ o ∈ g.orphanedVms.1, ∃ l, recoveryLabel o = some l ∧ h.HasLabel l) (now : Nat) (i : Fin maxSlots) :
    (h.supervised g now).slotAt i = h.slotAt i := by
  by_cases hsup : g.isSupervisor = true
  · have hnothing := recover_nothing ((host.snapshot h g.config.nodeId).1.map (·.label)) g.orphanedVms.1
      (h := h.rememberOwner g.config.nodeId) (fun o ho => by
        obtain ⟨l, hl, hlab⟩ := hall o ho
        exact ⟨l, hl, (h.mem_labels _ l).2 hlab⟩)
    rw [supervised_slotAt hsup, hnothing]
    exact h.rememberOwner_slotAt _ i
  · rw [supervised_idle hsup]

theorem supervisedAll_settled {cfg : MeshConfig} {g : Inner} (hg : g.Wf cfg) {h : MemVmHost}
    (hall : ∀ o ∈ g.orphanedVms.1, ∃ l, recoveryLabel o = some l ∧ h.HasLabel l) (later : List (Inner × Nat))
    (hlater : ∀ p ∈ later, p.1.Wf cfg ∧ g.SamePeers p.1) (i : Fin maxSlots) :
    (h.supervisedAll later).slotAt i = h.slotAt i := by
  induction later generalizing h with
  | nil => rfl
  | cons p later ih =>
    obtain ⟨hwf, hsame⟩ := hlater p List.mem_cons_self
    have hstep : ∀ j, (h.supervised p.1 p.2).slotAt j = h.slotAt j :=
      supervised_settled (fun o ho => hall o (hsame.orphanedVms hg hwf ho)) p.2
    refine (ih ?_ (fun q hq => hlater q (List.mem_cons_of_mem p hq))).trans (hstep i)
    intro o ho
    obtain ⟨l, hl, j, s, hs, hlab⟩ := hall o ho
    exact ⟨l, hl, j, s, (hstep j).trans hs, hlab⟩

/-- As many VMs are new on the host as the pass made. -/
theorem new_card {h h' : MemVmHost} {n : Nat} (hgrown : h.Grown n h') : (h.vacant \ h'.vacant).card = n := by
  have hsub : h'.vacant ⊆ h.vacant := by
    intro i hi
    rw [mem_vacant] at hi ⊢
    cases hs : h.slotAt i with
    | none => rfl
    | some t => exact absurd ((hgrown.keeps i t hs).symm.trans hi) (by simp)
  have hcard := hgrown.card
  rw [Finset.card_sdiff_of_subset hsub]
  omega

end MemVmHost

open MemVmHost in
/-- **A pass recovers every orphan, once, exactly when the host takes each of them.** -/
theorem recovers_once_iff {cfg : MeshConfig} {g : Inner} (hg : g.Wf cfg) (hsup : g.isSupervisor = true) (h : MemVmHost)
    (now : Nat) (hfree : g.orphanedVms.1.length ≤ h.vacant.card) :
    RecoversOnce cfg g h now ↔ ∀ o ∈ g.orphanedVms.1, h.Takes o := by
  set id := g.config.nodeId
  set existing := (host.snapshot h id).1.map (·.label) with hexisting
  set h0 := h.rememberOwner id with hh0
  have hslots0 : ∀ i, h0.slotAt i = h.slotAt i := h.rememberOwner_slotAt id
  have hafter : ∀ i, (h.supervised g now).slotAt i = (host.recover existing g.orphanedVms.1 h0).2.2.slotAt i :=
    supervised_slotAt hsup h now
  have hnd := Inner.orphanedVms_nodup hg
  have htakes : ∀ o, h.Takes o ↔
      (h0.caps.contains .vmLifecycleWrite = true ∧ ∃ l, recoveryLabel o = some l ∧ l ∉ existing) := by
    intro o
    have hcaps : h0.caps = h.caps := h.rememberOwner_caps id
    constructor
    · rintro ⟨hc, l, hl, hno⟩
      exact ⟨hcaps ▸ hc, l, hl, fun hmem => hno ((h.mem_labels id l).1 hmem)⟩
    · rintro ⟨hc, l, hl, hno⟩
      exact ⟨hcaps ▸ hc, l, hl, fun hlab => hno ((h.mem_labels id l).2 hlab)⟩
  constructor
  · rintro ⟨⟨f, hinj, hf⟩, -⟩ o ho
    -- Each orphan has a new VM, so the loop made as many as there are orphans.
    have hnew : g.orphanedVms.1.toFinset.image f ⊆
        h0.vacant \ (host.recover existing g.orphanedVms.1 h0).2.2.vacant := by
      intro i hi
      obtain ⟨o', ho', rfl⟩ := Finset.mem_image.1 hi
      obtain ⟨hnone, s, hs, -⟩ := hf o' (List.mem_toFinset.1 ho')
      rw [Finset.mem_sdiff, mem_vacant, mem_vacant, hslots0, ← hafter, hs]
      exact ⟨hnone, by simp⟩
    have hcard := Finset.card_le_card hnew
    rw [new_card (recover_grown existing g.orphanedVms.1 h0), Finset.card_image_of_injOn (by simpa using hinj),
      List.toFinset_card_of_nodup hnd] at hcard
    exact (htakes o).2 ((recover_length existing g.orphanedVms.1 h0).2 hcard o ho)
  · intro hall
    obtain ⟨f, hinj, hf⟩ := recover_places existing hnd (h := h0)
      (by rw [vacant_congr hslots0]; exact hfree) (fun o ho => (htakes o).1 (hall o ho))
    refine ⟨⟨f, hinj, fun o ho => ?_⟩, ?_⟩
    · obtain ⟨hnone, l, -, hs⟩ := hf o ho
      exact ⟨(hslots0 _).symm.trans hnone, recoveredSlot l o, (hafter _).trans hs, ⟨rfl, rfl, rfl, rfl, rfl⟩⟩
    · refine supervisedAll_settled hg (fun o ho => ?_)
      obtain ⟨-, l, hl, hs⟩ := hf o ho
      exact ⟨l, hl, f o, recoveredSlot l o, (hafter _).trans hs, rfl⟩

/-- A host with one VM, whose label is the one the supervisor would give to the VM `web` of `b`. -/
def hostWithWeb : MemVmHost := (MemVmHost.new.apply (.create "web@b" .never none none none none)).2

/-- Node `a` once `b` is `Dead`, and what a pass with an empty host leaves. -/
def deadB : Inner := silentFor 1500000000
def deadBNext : Inner := (deadB.runSupervisorStep MemVmHost.host (some .new) 0).inner

/-- The VM of the dead `b` goes to an empty host, and the next pass leaves the host as it is. -/
theorem recovers_once_dead : deadB.orphanedVms.1 ≠ [] ∧ RecoversOnce (defaultsFor "a") deadB .new 0 ∧
    ∀ i, ((MemVmHost.new.supervised deadB 0).supervised deadBNext 1).slotAt i =
      (MemVmHost.new.supervised deadB 0).slotAt i := by
  have hlabel : ∀ o ∈ deadB.orphanedVms.1, recoveryLabel o = some "web@b" := by decide +kernel
  have htakes : ∀ o ∈ deadB.orphanedVms.1, MemVmHost.new.Takes o := by
    refine fun o ho => ⟨by decide +kernel, "web@b", hlabel o ho, ?_⟩
    rintro ⟨i, s, hs, -⟩
    have hnone : ∀ i, MemVmHost.new.slotAt i = none := by decide
    rw [hnone i] at hs
    cases hs
  have hwf : deadB.Wf (defaultsFor "a") := silentFor_wf _
  have honce := (recovers_once_iff hwf (by decide +kernel) .new 0 (by decide +kernel)).2 htakes
  have hnext := honce.settled [(deadBNext, 1)] (by
    intro p hp
    rw [List.mem_singleton.1 hp]
    exact Inner.runSupervisorStep_samePeers hwf MemVmHost.host (some .new) 0)
  simp only [MemVmHost.supervisedAll, List.foldl_cons, List.foldl_nil] at hnext
  exact ⟨by decide +kernel, honce, hnext⟩

/-- An orphan is taken for a VM of the supervisor's own that happens to have the label. -/
theorem orphan_mistaken : ¬ ∀ (cfg : MeshConfig) (g : Inner) (h : MemVmHost) (now : Nat), g.Wf cfg →
    g.isSupervisor = true → g.orphanedVms.1.length ≤ h.vacant.card → RecoversOnce cfg g h now := by
  intro hall
  obtain ⟨⟨f, -, hf⟩, -⟩ := hall _ deadB hostWithWeb 0 (silentFor_wf _) (by decide +kernel)
    (by decide +kernel)
  have hsame : ∀ i, (hostWithWeb.supervised deadB 0).slotAt i = hostWithWeb.slotAt i := by
    decide +kernel
  obtain ⟨o, ho⟩ := List.exists_mem_of_ne_nil deadB.orphanedVms.1 (by decide +kernel)
  obtain ⟨hnone, s, hs, -⟩ := hf o ho
  rw [hsame, hnone] at hs
  cases hs

end Celium
