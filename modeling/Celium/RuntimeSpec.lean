import Celium.Runtime
import Celium.StoreShare
/-!
# RuntimeSpec — what each part of a call can do

The inner host seen through what its VMs and volumes are charged (`charged`): a create opens one cell, a delete closes
one, and nothing else moves any (`apply_serves`).  The tenant store seen through the usage of the one tenant: a charge
adds, a release takes away, and neither moves the tree.
-/
namespace Celium

open Fixed StoreState

/-! ## What a live VM or volume is charged -/

/-- The charge planned for the VM in a slot. -/
def Slot.charge (s : Slot) : QuotaCharge :=
  { (default : QuotaCharge) with vcpus := s.cpuCount.getD 0, memoryMib := s.memoryMib.getD 0 }

def MemVolume.charge (v : MemVolume) : QuotaCharge := { (default : QuotaCharge) with storageBytes := v.meta_.sizeBytes }

namespace MemVmHost

variable {h : MemVmHost} {i : UInt32} {s : Slot}

/-- The planned charge of a resource that is live in the host; nothing where none is. -/
def charged (h : MemVmHost) : Resource → QuotaCharge
  | .vm vmId   => (h.slots[vmId.toNat]?.join.map Slot.charge).getD default
  | .volume id => ((h.vault.rows.lookup id).map MemVolume.charge).getD default

theorem charged_setSlot (hi : i.toNat < 4) (o : Option Slot) :
    (h.setSlot i o).charged = Function.update h.charged (.vm i) ((o.map Slot.charge).getD default) := by
  funext r
  cases r with
  | volume id => rfl
  | vm j =>
    by_cases hj : j = i
    · subst hj
      simp [charged, setSlot, hi]
    · have hne : ¬ i.toNat = j.toNat := fun hij => hj (UInt32.toNat_inj.1 hij.symm)
      simp [charged, setSlot, hne, hj]

/-- Rewriting a slot without touching its shape moves no charge. -/
theorem charged_rewrite {s' : Slot} (hs : h.slotMut i = .ok s) (hsame : s'.charge = s.charge) :
    (h.setSlot i (some s')).charged = h.charged := by
  have hget := slotMut_ok hs
  rw [charged_setSlot (lt_of_slot hget)]
  have : h.charged (.vm i) = s.charge := by simp [charged, hget]
  rw [Option.map_some, Option.getD_some, hsame, ← this, Function.update_eq_self]

/-- Rewriting the body of a volume moves no charge. -/
theorem charged_body {id : VolumeId} {v : MemVolume} {vault : MemVolumeStore} (hv : h.vault.rows.lookup id = some v)
    (body : List UInt8) (hrows : vault.rows = h.vault.rows.insert id { v with body }) :
    { h with vault }.charged = h.charged := by
  funext r
  cases r with
  | vm j => rfl
  | volume id' =>
    simp only [charged, hrows, Assoc.lookup_insert_ite]
    split
    · rename_i hid
      subst hid
      rw [hv]
      rfl
    · rfl

theorem charged_rows {vault : MemVolumeStore} (hrows : vault.rows = h.vault.rows) :
    { h with vault }.charged = h.charged := by
  funext r
  cases r <;> simp only [charged, hrows]

/-- The owner and the volume counter are as they were. -/
def SameIds (h h' : MemVmHost) : Prop := h'.owner = h.owner ∧ h'.vault.next = h.vault.next

/-- **What serving an operation can do to the charged resources.** -/
inductive Serves (h : MemVmHost) (op : VmOp) (reply : HostResult) (h' : MemVmHost) : Prop
  | vmOpened (vmId : UInt32) (c : QuotaCharge) (issue : issued op reply = some (.vm vmId)) (plan : chargeFor op = some c)
      (free : h.charged (.vm vmId) = default) (eq : h'.charged = Function.update h.charged (.vm vmId) c)
      (ids : h.SameIds h')
  | volumeOpened (owner : String) (c : QuotaCharge) (known : h.owner = some owner)
      (issue : issued op reply = some (.volume (MemVolumeStore.volumeId owner (satAdd64 h.vault.next 1))))
      (plan : chargeFor op = some c)
      (eq : h'.charged = Function.update h.charged (.volume (MemVolumeStore.volumeId owner (satAdd64 h.vault.next 1))) c)
      (same : h'.owner = h.owner) (next : h'.vault.next = satAdd64 h.vault.next 1)
  | closed (r : Resource) (none_issued : issued op reply = none) (free : freed op reply = some r)
      (plan : chargeFor op = none) (eq : h'.charged = Function.update h.charged r default) (ids : h.SameIds h')
  | neither (none_issued : issued op reply = none) (none_freed : freed op reply = none)
      (refused : (chargeFor op).isSome → ∃ e, reply = .error e) (eq : h'.charged = h.charged) (ids : h.SameIds h')

theorem SameIds.refl (h : MemVmHost) : h.SameIds h := ⟨rfl, rfl⟩

theorem serves_error (op : VmOp) (e : String) {h' : MemVmHost} (heq : h'.charged = h.charged) (hids : h.SameIds h') :
    Serves h op (.error e) h' := by
  refine .neither ?_ ?_ (fun _ => ⟨e, rfl⟩) heq hids
  · cases op <;> rfl
  · cases op <;> rfl

/-- The operation neither creates nor deletes a VM or a volume, and implies no charge. -/
def Passes (op : VmOp) : Prop := ∀ reply, issued op reply = none ∧ freed op reply = none ∧ chargeFor op = none

theorem Passes.serves {op : VmOp} (hop : Passes op) {reply : HostResult} {h' : MemVmHost}
    (heq : h'.charged = h.charged) (hids : h.SameIds h') : Serves h op reply h' := by
  obtain ⟨hi, hf, hc⟩ := hop reply
  refine .neither hi hf (fun hsome => ?_) heq hids
  rw [hc] at hsome
  cases hsome

/-- An operation that passes and at most rewrites one slot, keeping its shape. -/
theorem Passes.serves_slot {op : VmOp} (hop : Passes op) {reply : HostResult} {h' : MemVmHost}
    (hh : h' = h ∨ ∃ i s s', h.slotMut i = .ok s ∧ Slot.charge s' = s.charge ∧ h' = h.setSlot i (some s')) :
    Serves h op reply h' := by
  rcases hh with rfl | ⟨i, s, s', hs, hsame, rfl⟩
  · exact hop.serves rfl (.refl _)
  · exact hop.serves (charged_rewrite hs hsame) ⟨rfl, rfl⟩

/-- An operation that passes and at most rewrites one volume's body or the snapshots. -/
theorem Passes.serves_vault {op : VmOp} (hop : Passes op) {reply : HostResult} {vault : MemVolumeStore}
    (hnext : vault.next = h.vault.next)
    (hrows : vault.rows = h.vault.rows ∨ ∃ id v body, h.vault.rows.lookup id = some v ∧
      vault.rows = h.vault.rows.insert id { v with body }) : Serves h op reply { h with vault } := by
  rcases hrows with hrows | ⟨id, v, body, hv, hrows⟩
  · exact hop.serves (charged_rows hrows) ⟨rfl, hnext⟩
  · exact hop.serves (charged_body hv body hrows) ⟨rfl, hnext⟩

theorem create_serves (label : String) (restartPolicy : RestartPolicy) (imagePath : Option String)
    (cpuCount : Option UInt32) (memoryMib : Option UInt64) (crc : Option UInt32) :
    Serves h (.create label restartPolicy imagePath cpuCount memoryMib crc)
      (h.create label restartPolicy imagePath cpuCount memoryMib crc).1
      (h.create label restartPolicy imagePath cpuCount memoryMib crc).2 := by
  unfold create
  split
  · exact serves_error _ _ rfl (.refl h)
  · cases hk : h.freeSlot with
    | none => exact serves_error _ _ rfl (.refl h)
    | some k =>
      obtain ⟨hto, hlt, hget⟩ := freeSlot_some hk
      refine .vmOpened (UInt32.ofNat k) _ rfl rfl ?_ ?_ ⟨rfl, rfl⟩
      · simp [charged, hto, hget]
      · rw [charged_setSlot (by rw [hto]; exact hlt)]
        rfl

theorem delete_serves (vmId : UInt32) : Serves h (.delete vmId) (h.delete vmId).1 (h.delete vmId).2 := by
  unfold delete
  cases hs : h.slotMut vmId with
  | error e => exact serves_error _ _ rfl (.refl h)
  | ok s =>
    simp only
    split
    · exact serves_error _ _ rfl (.refl h)
    · exact .closed (.vm vmId) rfl rfl rfl (charged_setSlot (lt_of_slot (slotMut_ok hs)) none) ⟨rfl, rfl⟩

theorem createVolume_serves (name : String) (sizeBytes : UInt64) :
    Serves h (.createVolume name sizeBytes) (h.createVolume name sizeBytes).1 (h.createVolume name sizeBytes).2 := by
  unfold createVolume
  cases ho : h.owner with
  | none => exact serves_error _ _ rfl (.refl h)
  | some owner =>
    have hquiet : h.SameIds { h with owner := some owner } := ⟨ho.symm, rfl⟩
    simp only [MemVolumeStore.create]
    split
    · exact serves_error _ _ rfl hquiet
    · split
      · exact serves_error _ _ rfl hquiet
      · split
        · exact serves_error _ _ rfl hquiet
        · refine .volumeOpened owner _ ho rfl rfl ?_ ho.symm rfl
          funext r
          cases r with
          | vm i => rfl
          | volume id =>
            simp only [charged, Assoc.lookup_insert_ite, Function.update_apply, Resource.volume.injEq]
            split <;> rfl

theorem deleteVolume_serves (id : VolumeId) :
    Serves h (.deleteVolume id) (h.deleteVolume id).1 (h.deleteVolume id).2 := by
  unfold deleteVolume
  split
  · exact serves_error _ _ rfl (.refl h)
  · refine .closed (.volume id) rfl rfl rfl ?_ ⟨rfl, rfl⟩
    funext r
    cases r with
    | vm i => rfl
    | volume id' =>
      simp only [MemVolumeStore.delete, charged, Assoc.lookup_erase_ite, Function.update_apply, Resource.volume.injEq]
      split <;> rfl

theorem start_serves (vmId : UInt32) : Serves h (.start vmId) (h.start vmId).1 (h.start vmId).2 := by
  refine Passes.serves_slot (fun _ => ⟨rfl, rfl, rfl⟩) ?_
  unfold start
  cases hs : h.slotMut vmId with
  | error e => exact .inl rfl
  | ok s =>
    simp only
    split
    · exact .inl rfl
    · split
      · exact .inl rfl
      · exact .inr ⟨vmId, s, { s with state := .halted, lastExit := some 12 }, hs, rfl, rfl⟩

theorem stop_serves (vmId : UInt32) : Serves h (.stop vmId) (h.stop vmId).1 (h.stop vmId).2 := by
  refine Passes.serves_slot (fun _ => ⟨rfl, rfl, rfl⟩) ?_
  unfold stop
  cases hs : h.slotMut vmId with
  | error e => exact .inl rfl
  | ok s =>
    refine .inr ⟨vmId, s, _, hs, ?_, rfl⟩
    split <;> rfl

theorem attachVolume_serves (vmId : UInt32) (id : VolumeId) (mountName : String) :
    Serves h (.attachVolume vmId id mountName) (h.attachVolume vmId id mountName).1
      (h.attachVolume vmId id mountName).2 := by
  refine Passes.serves_slot (fun _ => ⟨rfl, rfl, rfl⟩) ?_
  unfold attachVolume
  split
  · exact .inl rfl
  · split
    · exact .inl rfl
    · cases hs : h.slotMut vmId with
      | error e => exact .inl rfl
      | ok s =>
        simp only
        split
        · exact .inl rfl
        · exact .inr ⟨vmId, s, { s with volumes := s.volumes ++ [⟨id, mountName⟩] }, hs, rfl, rfl⟩

theorem detachVolume_serves (vmId : UInt32) (id : VolumeId) :
    Serves h (.detachVolume vmId id) (h.detachVolume vmId id).1 (h.detachVolume vmId id).2 := by
  refine Passes.serves_slot (fun _ => ⟨rfl, rfl, rfl⟩) ?_
  unfold detachVolume
  cases hs : h.slotMut vmId with
  | error e => exact .inl rfl
  | ok s => exact .inr ⟨vmId, s, { s with volumes := s.volumes.filter (fun a => a.volumeId ≠ id) }, hs, rfl, rfl⟩

theorem range_ok {v : MemVolumeStore} {id : VolumeId} {offset : UInt64} {len : Nat} {what : String} {vol : MemVolume}
    (hr : v.range id offset len what = .ok vol) : v.rows.lookup id = some vol := by
  unfold MemVolumeStore.range at hr
  split at hr
  · cases hr
  · rename_i hv
    split at hr
    · cases hr
    · split at hr
      · cases hr
      · rw [hv, Except.ok.inj hr]

theorem writeVolume_serves (id : VolumeId) (offset : UInt64) (bytes : List UInt8) :
    Serves h (.writeVolume id offset bytes) (h.writeVolume id offset bytes).1 (h.writeVolume id offset bytes).2 := by
  unfold writeVolume
  split
  · exact serves_error _ _ rfl (.refl h)
  · unfold MemVolumeStore.write
    cases hr : h.vault.range id offset bytes.length "write" with
    | error e => exact Passes.serves_vault (fun _ => ⟨rfl, rfl, rfl⟩) rfl (.inl rfl)
    | ok v => exact Passes.serves_vault (fun _ => ⟨rfl, rfl, rfl⟩) rfl (.inr ⟨id, v, _, range_ok hr, rfl⟩)

theorem createSnapshot_serves (id : VolumeId) (name : String) :
    Serves h (.createSnapshot id name) (h.dispatch (.createSnapshot id name)).1
      (h.dispatch (.createSnapshot id name)).2 := by
  refine Passes.serves_vault (fun _ => ⟨rfl, rfl, rfl⟩) ?_ (.inl ?_)
  all_goals
    split
    · rfl
    · split <;> rfl

theorem restoreSnapshot_serves (id : SnapshotId) :
    Serves h (.restoreSnapshot id) (h.dispatch (.restoreSnapshot id)).1 (h.dispatch (.restoreSnapshot id)).2 := by
  simp only [dispatch, MemVolumeStore.restoreSnapshot]
  have hp : Passes (.restoreSnapshot id) := fun _ => ⟨rfl, rfl, rfl⟩
  split
  · exact hp.serves_vault rfl (.inl rfl)
  · split
    · exact hp.serves_vault rfl (.inl rfl)
    · split
      · exact hp.serves_vault rfl (.inl rfl)
      · rename_i v hv
        split
        · exact hp.serves_vault rfl (.inl rfl)
        · exact hp.serves_vault rfl (.inr ⟨_, v, _, hv, rfl⟩)

/-- The operations that at most change the network store. -/
theorem Passes.serves_nets {op : VmOp} (hop : Passes op) {reply : HostResult} {h' : MemVmHost}
    (hh : ∃ nets, h' = { h with nets }) : Serves h op reply h' := by
  obtain ⟨nets, rfl⟩ := hh
  exact hop.serves rfl ⟨rfl, rfl⟩

/-- **Every operation, served**: it opens or closes what its reply says, and moves no other charge. -/
theorem dispatch_serves (op : VmOp) : Serves h op (h.dispatch op).1 (h.dispatch op).2 := by
  cases op with
  | create label restartPolicy imagePath cpuCount memoryMib crc => exact create_serves ..
  | delete vmId => exact delete_serves vmId
  | createVolume name sizeBytes => exact createVolume_serves name sizeBytes
  | deleteVolume id => exact deleteVolume_serves id
  | start vmId => exact start_serves vmId
  | stop vmId => exact stop_serves vmId
  | attachVolume vmId id mountName => exact attachVolume_serves vmId id mountName
  | detachVolume vmId id => exact detachVolume_serves vmId id
  | writeVolume id offset bytes => exact writeVolume_serves id offset bytes
  | createSnapshot id name => exact createSnapshot_serves id name
  | restoreSnapshot id => exact restoreSnapshot_serves id
  | deleteSnapshot id => exact Passes.serves_vault (fun _ => ⟨rfl, rfl, rfl⟩) rfl (.inl rfl)
  | readVolume id offset len =>
    refine Passes.serves_nets (fun _ => ⟨rfl, rfl, rfl⟩) ⟨h.nets, ?_⟩
    simp only [dispatch, readVolume]
    split <;> rfl
  | createNetwork name cidr =>
    refine Passes.serves_nets (fun _ => ⟨rfl, rfl, rfl⟩) ?_
    simp only [dispatch, createNetwork]
    split
    · exact ⟨_, rfl⟩
    · split <;> exact ⟨_, rfl⟩
  | attachNic id vmId ip =>
    refine Passes.serves_nets (fun _ => ⟨rfl, rfl, rfl⟩) ?_
    simp only [dispatch, attachNic]
    split
    · exact ⟨_, rfl⟩
    · split <;> exact ⟨_, rfl⟩
  | createSecurityGroup name rules =>
    refine Passes.serves_nets (fun _ => ⟨rfl, rfl, rfl⟩) ?_
    simp only [dispatch, createSecurityGroup]
    split <;> exact ⟨_, rfl⟩
  | createLoadBalancer name id vip port algo backends =>
    refine Passes.serves_nets (fun _ => ⟨rfl, rfl, rfl⟩) ?_
    simp only [dispatch, createLoadBalancer]
    split
    · exact ⟨_, rfl⟩
    · split <;> exact ⟨_, rfl⟩
  | _ => exact Passes.serves_nets (fun _ => ⟨rfl, rfl, rfl⟩) ⟨_, rfl⟩

theorem apply_serves (op : VmOp) : Serves h op (h.apply op).1 (h.apply op).2 := by
  unfold apply
  split
  · exact serves_error _ _ rfl (.refl h)
  · exact dispatch_serves op

theorem rememberOwner_charged (owner : NodeId) : (h.rememberOwner owner).charged = h.charged := by
  unfold rememberOwner
  split <;> rfl

theorem attachPreserved_charged (vmId : UInt32) (attachments : List VolumeAttachment) :
    (h.attachPreserved vmId attachments).2.charged = h.charged ∧ h.SameIds (h.attachPreserved vmId attachments).2 := by
  unfold attachPreserved
  cases hs : h.slotMut vmId with
  | error e => exact ⟨rfl, .refl h⟩
  | ok s => exact ⟨charged_rewrite hs rfl, rfl, rfl⟩

end MemVmHost

/-! ## The store, seen from one tenant -/

namespace StoreState

variable {s : StoreState} {tenant : TenantId} {c : QuotaCharge}

theorem usageAt_le_max (s : StoreState) (d : Dim) (tenant : TenantId) : s.usageAt d tenant ≤ d.max := by
  unfold usageAt
  cases s.tenants.lookup tenant.raw with
  | none => exact Nat.zero_le _
  | some t => exact t.usage.amount_le_max d

/-- The usages on a chain move, and one tenant's with them. -/
theorem Recounts.usageAt_self {chain : List TenantId} {f : Tenant → QuotaUsage} {g : Dim → ℕ → ℕ} {s' : StoreState}
    (hr : Recounts s chain f s') (hchain : s.chainFrom tenant = .ok chain)
    (hf : ∀ t d, (f t).amount d = g d (t.usage.amount d)) (d : Dim) :
    s'.usageAt d tenant = g d (s.usageAt d tenant) := by
  have hmem : tenant ∈ chain := List.mem_of_mem_head? (chain_head hchain)
  have hid : tenant ∈ s.ids := (mem_ids tenant).2 (up_isSome.2 (chain_live hchain tenant hmem))
  rw [hr.usageAt (g := g d) (fun i t _ _ => hf t d) tenant hid, if_pos hmem]

/-- **A charge, from the tenant's side**: refused without a change, or added, up to the integer maximum. -/
theorem charge_usageAt (s : StoreState) (tenant : TenantId) (c : QuotaCharge) :
    (∃ e, s.charge tenant c = (.error e, s) ∧ ¬ s.Chargeable tenant c) ∨
    ∃ u s', s.charge tenant c = (.ok u, s') ∧ s.Chargeable tenant c ∧ (∃ chain, s.chainFrom tenant = .ok chain) ∧
      s'.up = s.up ∧ ∀ d, s'.usageAt d tenant = min (s.usageAt d tenant + c.amount d) d.max := by
  rcases charge_cases s tenant c with ⟨e, he, hno, -⟩ | ⟨chain, u, s', heq, hchain, hfits, hrec, -⟩
  · exact .inl ⟨e, he, hno⟩
  · refine .inr ⟨u, s', heq, hfits, ⟨chain, hchain⟩, hrec.sameIndex.up_eq, fun d => ?_⟩
    exact hrec.usageAt_self (g := fun d n => min (n + c.amount d) d.max) hchain
      (fun t d => QuotaUsage.amount_plus t.usage c d) d

/-- **A release, from the tenant's side**: it fails with `chain_from` and changes nothing, or takes the charge away. -/
theorem release_usageAt (s : StoreState) (tenant : TenantId) (c : QuotaCharge) :
    (∃ e, s.chainFrom tenant = .error e ∧ (s.release tenant c).2 = s) ∨
    (∃ chain, s.chainFrom tenant = .ok chain) ∧ (s.release tenant c).2.up = s.up ∧
      ∀ d, (s.release tenant c).2.usageAt d tenant = s.usageAt d tenant - c.amount d := by
  rcases release_cases s tenant c with ⟨e, he, hchain⟩ | ⟨chain, u, s', heq, hchain, hrec, -⟩
  · exact .inl ⟨e, hchain, by rw [he]⟩
  · refine .inr ⟨⟨chain, hchain⟩, ?_, fun d => ?_⟩
    · rw [heq]
      exact hrec.sameIndex.up_eq
    · rw [heq]
      exact hrec.usageAt_self (g := fun d n => n - c.amount d) hchain
        (fun t d => amount_releaseQuota t.usage c d) d

/-- Where `chain_from` finds the chain, the whole charge is taken away. -/
theorem usageAt_release {s : StoreState} {tenant : TenantId} (h : ∃ chain, s.chainFrom tenant = .ok chain)
    (c : QuotaCharge) (d : Dim) :
    (s.release tenant c).2.usageAt d tenant = s.usageAt d tenant - c.amount d := by
  obtain ⟨chain, hchain⟩ := h
  rcases s.release_usageAt tenant c with ⟨e, he, -⟩ | ⟨-, -, hrelease⟩
  · cases hchain.symm.trans he
  · exact hrelease d

end StoreState

end Celium
