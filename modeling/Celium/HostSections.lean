import Celium.Lib.Runs
import Celium.MemHost
import Celium.NetworkCalls
/-!
# HostSections — calls on one host, section by section

A `MemVmHost` has a lock for its slots, one for its owner and one in each of its two stores, and no call holds two of them
at a time.  A call is thus a sequence of one or two critical sections, between which any other call may run.  `Rest` is
what is left of a call, with the data it has read so far; `locked` is its next section.  Alone, a call is `apply`
(`locked_alone`).

What refers to something else on a host: an attachment to its volume, a NIC to its VM.
-/
namespace Celium

open Fixed Runs

inductive Invocation where
  | handle (op : VmOp)
  | snapshot (owner : NodeId)
deriving DecidableEq, Repr

inductive HostAnswer where
  | reply (r : HostResult)
  | rows (rows : List RemoteVm)

/-- What is left of a call: all of it, its second section, or nothing. -/
inductive Rest where
  | start (call : Invocation)
  | createVolume (owner name : String) (sizeBytes : UInt64)
  | deleteVolume (volumeId : VolumeId)
  | attachVolume (vmId : UInt32) (volumeId : VolumeId) (mountName : String)
  | createNetwork (owner name : String) (block : Cidr4)
  | attachNic (networkId : NetworkId) (vmId : UInt32) (ip : Option Ipv4Addr)
  | createSecurityGroup (owner name : String) (rules : List SecurityRule)
  | createLoadBalancer (owner name : String) (networkId : NetworkId) (vip : Ipv4Addr) (frontendPort : UInt16)
      (algo : LbAlgo) (backends : List LbBackend)
  | rows (owner : NodeId)
  | returned (answer : HostAnswer)

def Rest.isReturned : Rest → Bool
  | .returned _ => true
  | _ => false

namespace MemVmHost

/-- A call that ends in this section. -/
def ends (p : HostResult × MemVmHost) : Rest × MemVmHost := (.returned (.reply p.1), p.2)

/-- The owner is read under its own lock; what follows goes on with it. -/
def withOwner (h : MemVmHost) (unknown : String) (next : String → Except String Rest) : Rest × MemVmHost :=
  match h.owner with
  | none => (.returned (.reply (.error unknown)), h)
  | some owner =>
    match next owner with
    | .error e => (.returned (.reply (.error e)), h)
    | .ok rest => (rest, h)

/-- The first section of an operation; the only one for most. -/
def first (h : MemVmHost) : VmOp → Rest × MemVmHost
  | .createVolume name sizeBytes =>
    h.withOwner "vault: owner not yet known; snapshot first" fun owner => .ok (.createVolume owner name sizeBytes)
  | .deleteVolume volumeId =>
    if h.attached volumeId then ends (.error "vault delete: volume still attached", h) else (.deleteVolume volumeId, h)
  | .attachVolume vmId volumeId mountName =>
    if mountName.utf8ByteSize > maxMount then ends (.error "attach: mount_name > MAX_MOUNT", h)
    else if (h.vault.get volumeId).isNone then ends (.error "attach: unknown volume", h)
    else (.attachVolume vmId volumeId mountName, h)
  | .createNetwork name cidr =>
    h.withOwner "net: owner not yet known; snapshot first" fun owner =>
      match Cidr4.parse cidr with
      | .error e => .error ("net create: " ++ e.debug)
      | .ok block => .ok (.createNetwork owner name block)
  | .attachNic networkId vmId ip =>
    match h.slotMut vmId with
    | .error e => ends (.error e, h)
    | .ok _ =>
      match ip.map Ipv4Addr.parse with
      | some none => ends (.error "net.nic.attach: bad ip", h)
      | parsed => (.attachNic networkId vmId parsed.join, h)
  | .createSecurityGroup name rules =>
    h.withOwner "sg: owner not yet known; snapshot first" fun owner => .ok (.createSecurityGroup owner name rules)
  | .createLoadBalancer name networkId vip frontendPort algo backends =>
    h.withOwner "lb: owner not yet known; snapshot first" fun owner =>
      match Ipv4Addr.parse vip with
      | none => .error "lb create: bad vip"
      | some vip => .ok (.createLoadBalancer owner name networkId vip frontendPort algo backends)
  | op => ends (h.dispatch op)

/-- The volume is pushed under the lock of the slots. -/
def pushVolume (h : MemVmHost) (vmId : UInt32) (volumeId : VolumeId) (mountName : String) : HostResult × MemVmHost :=
  match h.slotMut vmId with
  | .error e => (.error e, h)
  | .ok s =>
    if s.volumes.any (fun a => a.volumeId == volumeId) then (.error "attach: volume already attached", h)
    else
      let volumes := s.volumes ++ [⟨volumeId, mountName⟩]
      (.ok (.attachments vmId volumes), h.setSlot vmId (some { s with volumes }))

/-- A call of the volume store. -/
def onVault {α : Type} (h : MemVmHost) (tag : String) (f : α → VmOpReply) (p : CelResult α × MemVolumeStore) :
    HostResult × MemVmHost :=
  (answer tag f p.1, { h with vault := p.2 })

/-- A call of the network store. -/
def onNets {α : Type} (h : MemVmHost) (tag : String) (f : α → VmOpReply) (p : CelResult α × MemNetworkStore) :
    HostResult × MemVmHost :=
  (answer tag f p.1, { h with nets := p.2 })

/-- The next section of a call. -/
def locked (h : MemVmHost) : Rest → Rest × MemVmHost
  | .start (.handle op) =>
    if !h.caps.contains (Capabilities.required op) then
      ends (.error ("capability denied: " ++ Capabilities.opTag op), h)
    else h.first op
  | .start (.snapshot owner) => (.rows owner, h.rememberOwner owner)
  | .createVolume owner name sizeBytes =>
    ends (h.onVault "vault create" .volumeCreated (h.vault.create owner name sizeBytes))
  | .deleteVolume volumeId =>
    ends (h.onVault "vault delete" (fun _ => .volumeDeleted volumeId) (h.vault.delete volumeId))
  | .attachVolume vmId volumeId mountName => ends (h.pushVolume vmId volumeId mountName)
  | .createNetwork owner name block =>
    ends (h.onNets "net create" .networkCreated (h.nets.createNetwork owner name block))
  | .attachNic networkId vmId ip => ends (h.onNets "net.nic.attach" .nicAttached (h.nets.attachNic networkId vmId ip))
  | .createSecurityGroup owner name rules =>
    ends (h.onNets "sg create" .securityGroupCreated (h.nets.createSecurityGroup owner name rules))
  | .createLoadBalancer owner name networkId vip frontendPort algo backends =>
    ends (h.onNets "lb create" .loadBalancerCreated
      (h.nets.createLoadBalancer owner name networkId vip frontendPort algo backends))
  | .rows owner => (.returned (.rows (h.slots.toList.zipIdx.filterMap (fun e => e.1.map (row owner e.2)))), h)
  | .returned answer => (.returned answer, h)

theorem first_alone (h : MemVmHost) (op : VmOp) : (h.first op).2.locked (h.first op).1 = ends (h.dispatch op) := by
  obtain ⟨slots, vault, nets, owner, caps⟩ := h
  cases op with
  | createVolume name sizeBytes => cases owner <;> rfl
  | deleteVolume volumeId =>
    simp only [first, dispatch, deleteVolume]
    cases attached _ volumeId <;> rfl
  | attachVolume vmId volumeId mountName =>
    simp only [first, dispatch, attachVolume]
    by_cases hmount : mountName.utf8ByteSize > maxMount
    · simp only [if_pos hmount]
      rfl
    · simp only [if_neg hmount]
      cases (vault.get volumeId).isNone <;> rfl
  | createNetwork name cidr =>
    simp only [first, withOwner, dispatch, createNetwork]
    cases owner with
    | none => rfl
    | some owner => cases Cidr4.parse cidr <;> rfl
  | attachNic networkId vmId ip =>
    simp only [first, dispatch, attachNic]
    cases slotMut _ vmId with
    | error e => rfl
    | ok s =>
      cases ip with
      | none => rfl
      | some ip =>
        simp only [Option.map_some]
        cases Ipv4Addr.parse ip <;> rfl
  | createSecurityGroup name rules => cases owner <;> rfl
  | createLoadBalancer name networkId vip frontendPort algo backends =>
    simp only [first, withOwner, dispatch, createLoadBalancer]
    cases owner with
    | none => rfl
    | some owner => cases Ipv4Addr.parse vip <;> rfl
  | create | start | stop | delete | list | listVolumes | detachVolume | readVolume | writeVolume | createSnapshot
  | listSnapshots | deleteSnapshot | restoreSnapshot | deleteNetwork | listNetworks | detachNic | listNics
  | deleteSecurityGroup | listSecurityGroups | deleteLoadBalancer | listLoadBalancers => rfl

/-- **A call that runs alone is `apply`**: two sections at most, and nothing between them. -/
theorem locked_alone (h : MemVmHost) (op : VmOp) :
    (h.locked (.start (.handle op))).2.locked (h.locked (.start (.handle op))).1 = ends (h.apply op) := by
  have hlocked : h.locked (.start (.handle op)) =
      if !h.caps.contains (Capabilities.required op) then
        ends (.error ("capability denied: " ++ Capabilities.opTag op), h)
      else h.first op := rfl
  rw [hlocked, apply]
  split
  · rfl
  · exact h.first_alone op

/-! ## What refers to what -/

/-- Every attachment is of a volume that is there, and every NIC of a VM that is. -/
structure Linked (h : MemVmHost) : Prop where
  volumes : ∀ (i : Nat) (s : Slot), h.slots[i]? = some (some s) → ∀ a ∈ s.volumes, (h.vault.get a.volumeId).isSome
  nics : ∀ id nic, h.nets.nics.lookup id = some nic → ∃ s, h.slots[nic.vmId.toNat]? = some (some s)

/-- The same, and what follows for the next VM to be created. -/
structure Integrity (h : MemVmHost) : Prop where
  linked : h.Linked
  reused : ∀ label restartPolicy imagePath cpuCount memoryMib bootBlobCrc32c vmId,
    (h.apply (.create label restartPolicy imagePath cpuCount memoryMib bootBlobCrc32c)).1 = .ok (.created vmId) →
      ∀ id nic, h.nets.nics.lookup id = some nic → nic.vmId ≠ vmId

/-- What the section does is in keeping with the rest of the host: what an earlier section of the call has checked still
holds, and a VM that is deleted has no NIC. -/
def InKeeping (h : MemVmHost) : Rest → Prop
  | .start (.handle (.delete vmId)) => h.caps.contains (Capabilities.required (.delete vmId)) = true →
    ∀ s, h.slotMut vmId = .ok s → s.state.isTerminal = true → ∀ id nic, h.nets.nics.lookup id = some nic → nic.vmId ≠ vmId
  | .deleteVolume volumeId => h.attached volumeId = false
  | .attachVolume vmId volumeId _ => ∀ s, h.slotMut vmId = .ok s → s.volumes.any (fun a => a.volumeId == volumeId) = false →
    (h.vault.get volumeId).isSome
  | .attachNic networkId vmId ip => ∀ v addr, h.nets.networks.lookup networkId = some v →
    (h.nets.used networkId).entries.length < maxNicsPerNetwork →
    MemNetworkStore.chooseIp v.cidr (h.nets.used networkId) ip = .ok addr → ∃ s, h.slotMut vmId = .ok s
  | _ => True

variable {h h' : MemVmHost} {i : UInt32} {s s' : Slot}

theorem slotMut_eq_ok : h.slotMut i = .ok s ↔ h.slots[i.toNat]? = some (some s) := by
  refine ⟨slotMut_ok, fun hs => ?_⟩
  rw [slotMut, hs]

theorem slots_setSlot (hi : i.toNat < 4) (o : Option Slot) (j : Nat) :
    (h.setSlot i o).slots[j]? = if j = i.toNat then some o else h.slots[j]? := by
  rw [setSlot, Vector.getElem?_setIfInBounds, if_pos hi]
  split
  · rename_i heq
    rw [if_pos heq.symm]
  · rename_i hne
    rw [if_neg (Ne.symm hne)]

/-- A host with no more attachments and NICs, and no fewer VMs and volumes. -/
theorem Linked.of_subset (hl : h.Linked)
    (hslots : ∀ (i : Nat) (s' : Slot), h'.slots[i]? = some (some s') →
      ∀ a ∈ s'.volumes, ∃ s : Slot, h.slots[i]? = some (some s) ∧ a ∈ s.volumes)
    (hlive : ∀ (i : Nat) s, h.slots[i]? = some (some s) → ∃ s', h'.slots[i]? = some (some s'))
    (hvault : ∀ id, (h.vault.get id).isSome → (h'.vault.get id).isSome)
    (hnics : ∀ id nic, h'.nets.nics.lookup id = some nic → h.nets.nics.lookup id = some nic) : h'.Linked := by
  constructor
  · intro i s' hs' a ha
    obtain ⟨s, hs, ha⟩ := hslots i s' hs' a ha
    exact hvault _ (hl.volumes i s hs a ha)
  · intro id nic hnic
    obtain ⟨s, hs⟩ := hl.nics id nic (hnics id nic hnic)
    exact hlive _ s hs

theorem Linked.of_vault (hl : h.Linked) {vault : MemVolumeStore} (hvault : ∀ id, (h.vault.get id).isSome →
    (vault.get id).isSome) : { h with vault }.Linked :=
  hl.of_subset (fun _ s hs _ ha => ⟨s, hs, ha⟩) (fun _ s hs => ⟨s, hs⟩) hvault (fun _ _ hnic => hnic)

theorem Linked.of_nets (hl : h.Linked) {nets : MemNetworkStore}
    (hnics : ∀ id nic, nets.nics.lookup id = some nic → h.nets.nics.lookup id = some nic) : { h with nets }.Linked :=
  hl.of_subset (fun _ s hs _ ha => ⟨s, hs, ha⟩) (fun _ s hs => ⟨s, hs⟩) (fun _ hget => hget) hnics

/-- A slot is rewritten, with no attachment more. -/
theorem Linked.rewrite (hl : h.Linked) (hs : h.slotMut i = .ok s) (hsub : ∀ a ∈ s'.volumes, a ∈ s.volumes) :
    (h.setSlot i (some s')).Linked := by
  have hs := slotMut_ok hs
  have hi := lt_of_slot hs
  refine hl.of_subset (fun j t ht a ha => ?_) (fun j t ht => ?_) (fun _ hget => hget) (fun _ _ hnic => hnic)
  · rw [slots_setSlot hi] at ht
    split at ht
    · rename_i hj
      obtain rfl := Option.some.inj (Option.some.inj ht)
      exact ⟨s, by rw [hj, hs], hsub a ha⟩
    · exact ⟨t, ht, ha⟩
  · rw [slots_setSlot hi]
    split
    · exact ⟨s', rfl⟩
    · exact ⟨t, ht⟩

/-- A VM in a free slot, with no attachment. -/
theorem Linked.fill (hl : h.Linked) {k : Nat} (hfree : h.freeSlot = some k) (hnone : s'.volumes = []) :
    (h.setSlot (UInt32.ofNat k) (some s')).Linked := by
  obtain ⟨hto, hk, hget⟩ := freeSlot_some hfree
  refine hl.of_subset (fun j t ht a ha => ?_) (fun j t ht => ?_) (fun _ hget => hget) (fun _ _ hnic => hnic)
  · rw [slots_setSlot (by rw [hto]; exact hk)] at ht
    split at ht
    · obtain rfl := Option.some.inj (Option.some.inj ht)
      rw [hnone] at ha
      cases ha
    · exact ⟨t, ht, ha⟩
  · rw [slots_setSlot (by rw [hto]; exact hk)]
    split
    · exact ⟨s', rfl⟩
    · exact ⟨t, ht⟩

/-- A VM is deleted. -/
theorem Linked.vacate (hl : h.Linked) (hs : h.slotMut i = .ok s) :
    (h.setSlot i none).Linked ↔ ∀ id nic, h.nets.nics.lookup id = some nic → nic.vmId ≠ i := by
  have hi := lt_of_slot (slotMut_ok hs)
  constructor
  · rintro hl' id nic hnic rfl
    obtain ⟨t, ht⟩ := hl'.nics id nic hnic
    rw [slots_setSlot hi, if_pos rfl] at ht
    cases ht
  · intro hno
    constructor
    · intro j t ht a ha
      rw [slots_setSlot hi] at ht
      split at ht
      · cases ht
      · exact hl.volumes j t ht a ha
    · intro id nic hnic
      obtain ⟨t, ht⟩ := hl.nics id nic hnic
      refine ⟨t, ?_⟩
      rw [slots_setSlot hi, if_neg (fun heq => hno id nic hnic (UInt32.toNat_inj.1 heq))]
      exact ht

/-- A volume more on a VM. -/
theorem Linked.push (hl : h.Linked) (hs : h.slotMut i = .ok s) (a : VolumeAttachment) :
    (h.setSlot i (some { s with volumes := s.volumes ++ [a] })).Linked ↔ (h.vault.get a.volumeId).isSome := by
  have hs := slotMut_ok hs
  have hi := lt_of_slot hs
  constructor
  · intro hl'
    refine hl'.volumes i.toNat _ (by rw [slots_setSlot hi, if_pos rfl]) a ?_
    exact List.mem_append_right _ List.mem_cons_self
  · intro ha
    constructor
    · intro j t ht b hb
      rw [slots_setSlot hi] at ht
      split at ht
      · obtain rfl := Option.some.inj (Option.some.inj ht)
        rcases List.mem_append.1 hb with hb | hb
        · exact hl.volumes _ s hs b hb
        · rw [List.mem_singleton.1 hb]
          exact ha
      · exact hl.volumes j t ht b hb
    · intro id nic hnic
      obtain ⟨t, ht⟩ := hl.nics id nic hnic
      rw [slots_setSlot hi]
      split
      · exact ⟨_, rfl⟩
      · exact ⟨t, ht⟩

end MemVmHost

/-! ## What the stores keep -/

namespace MemVolumeStore

variable (s : MemVolumeStore)

theorem get_insert {rows : AList (fun _ : VolumeId => MemVolume)} {s' : MemVolumeStore} {k : VolumeId} {v : MemVolume}
    (hrows : s'.rows = rows.insert k v) {id : VolumeId} (h : (rows.lookup id).isSome) : (s'.get id).isSome := by
  rw [get, hrows, Assoc.lookup_insert_ite, Option.isSome_map]
  split
  · rfl
  · exact h

theorem create_keeps (owner name : String) (sizeBytes : UInt64) (id : VolumeId) (h : (s.get id).isSome) :
    ((s.create owner name sizeBytes).2.get id).isSome := by
  rw [get, Option.isSome_map] at h
  unfold create
  split
  · rwa [get, Option.isSome_map]
  · split
    · rwa [get, Option.isSome_map]
    · split
      · rwa [get, Option.isSome_map]
      · exact get_insert rfl h

theorem write_keeps (k : VolumeId) (offset : UInt64) (data : List UInt8) (id : VolumeId) (h : (s.get id).isSome) :
    ((s.write k offset data).2.get id).isSome := by
  rw [get, Option.isSome_map] at h
  unfold write
  split
  · rwa [get, Option.isSome_map]
  · exact get_insert rfl h

theorem createSnapshot_keeps (k : VolumeId) (name : String) (id : VolumeId) (h : (s.get id).isSome) :
    ((s.createSnapshot k name).2.get id).isSome := by
  unfold createSnapshot
  split
  · exact h
  · split
    · exact h
    · exact h

theorem restoreSnapshot_keeps (k : SnapshotId) (id : VolumeId) (h : (s.get id).isSome) :
    ((s.restoreSnapshot k).2.get id).isSome := by
  unfold restoreSnapshot
  split
  · exact h
  · split
    · exact h
    · split
      · exact h
      · split
        · exact h
        · rw [get, Option.isSome_map] at h
          exact get_insert rfl h

end MemVolumeStore

namespace MemVmHost

variable {h : MemVmHost}

theorem deleteVolume_linked (hl : h.Linked) (id : VolumeId) :
    { h with vault := (h.vault.delete id).2 }.Linked ↔ h.attached id = false := by
  have hget : ∀ k, ((h.vault.delete id).2.get k).isSome ↔ k ≠ id ∧ (h.vault.get k).isSome := by
    intro k
    simp only [MemVolumeStore.delete, MemVolumeStore.get, Option.isSome_map, Assoc.lookup_erase_ite]
    split
    · rename_i heq
      exact iff_of_false nofun fun hk => hk.1 heq
    · rename_i hne
      exact ⟨fun hk => ⟨hne, hk⟩, fun hk => hk.2⟩
  constructor
  · intro hl'
    by_contra hatt
    rw [Bool.not_eq_false, attached, List.any_eq_true] at hatt
    obtain ⟨slot, hmem, hslot⟩ := hatt
    obtain ⟨i, hi⟩ := List.mem_iff_getElem?.1 hmem
    rw [Option.any_eq_true] at hslot
    obtain ⟨s, rfl, ha⟩ := hslot
    obtain ⟨a, ha, heq⟩ := List.any_eq_true.1 ha
    have hgone := hl'.volumes i s (by simpa using hi) a ha
    exact ((hget _).1 hgone).1 (by simpa using heq)
  · intro hatt
    constructor
    · intro i s hs a ha
      refine (hget _).2 ⟨fun heq => ?_, hl.volumes i s hs a ha⟩
      have : h.attached id = true := by
        rw [attached, List.any_eq_true]
        refine ⟨some s, ?_, ?_⟩
        · exact List.mem_iff_getElem?.2 ⟨i, by simpa using hs⟩
        · exact List.any_eq_true.2 ⟨a, ha, by simpa using heq⟩
      rw [hatt] at this
      cases this
    · exact hl.nics

theorem attachNic_linked (hl : h.Linked) (net : NetworkId) (vmId : UInt32) (ip : Option Ipv4Addr) :
    { h with nets := (h.nets.attachNic net vmId ip).2 }.Linked ↔ h.InKeeping (.attachNic net vmId ip) := by
  rcases h.nets.attachNic_cases net vmId ip with ⟨⟨e, he⟩, hno⟩ | ⟨v, addr, hv, hroom, hip, hok⟩
  · rw [he]
    exact iff_of_true hl (fun v addr hv hroom hip => absurd hip (hno v hv hroom addr))
  · rw [hok]
    have hlookup : ∀ id, (h.nets.withNic net vmId addr).nics.lookup id =
        if id = MemNetworkStore.nicId net (satAdd32 (h.nets.nicCounter net) 1) then
          some ⟨MemNetworkStore.nicId net (satAdd32 (h.nets.nicCounter net) 1), net, vmId, addr,
            makeMac net (satAdd32 (h.nets.nicCounter net) 1)⟩
        else h.nets.nics.lookup id := fun id => Assoc.lookup_insert_ite _ _ _ _
    constructor
    · intro hl' _ _ _ _ _
      obtain ⟨s, hs⟩ := hl'.nics (MemNetworkStore.nicId net (satAdd32 (h.nets.nicCounter net) 1)) _
        (by rw [hlookup, if_pos rfl])
      exact ⟨s, slotMut_eq_ok.2 hs⟩
    · intro hkeep
      obtain ⟨s, hs⟩ := hkeep v addr hv hroom hip
      refine ⟨hl.volumes, fun id nic hnic => ?_⟩
      have hnic' := (hlookup id).symm.trans hnic
      split at hnic'
      · obtain rfl := Option.some.inj hnic'
        exact ⟨s, slotMut_ok hs⟩
      · exact hl.nics id nic hnic'

end MemVmHost

namespace MemNetworkStore

variable (s : MemNetworkStore)

theorem createNetwork_nics (owner name : String) (cidr : Cidr4) : (s.createNetwork owner name cidr).2.nics = s.nics := by
  rcases s.createNetwork_cases owner name cidr with ⟨⟨e, he⟩, -⟩ | ⟨-, hok⟩
  · rw [he]
  · rw [hok, withNetwork]

theorem deleteNetwork_nics (net : NetworkId) : (s.deleteNetwork net).2.nics = s.nics := by
  rcases s.deleteNetwork_cases net with ⟨⟨e, he⟩, -⟩ | ⟨-, hok⟩
  · rw [he]
  · rw [hok, withoutNetwork]

theorem createSecurityGroup_nics (owner name : String) (rules : List SecurityRule) :
    (s.createSecurityGroup owner name rules).2.nics = s.nics := by
  rcases s.createSecurityGroup_cases owner name rules with ⟨⟨e, he⟩, -⟩ | ⟨sg, -, hok⟩
  · rw [he]
  · rw [hok]

theorem createLoadBalancer_nics (owner name : String) (net : NetworkId) (vip : Ipv4Addr) (frontendPort : UInt16)
    (algo : LbAlgo) (backends : List LbBackend) :
    (s.createLoadBalancer owner name net vip frontendPort algo backends).2.nics = s.nics := by
  rcases s.createLoadBalancer_cases owner name net vip frontendPort algo backends with
    ⟨⟨e, he⟩, -⟩ | ⟨lb, -, -, -, -, hok⟩
  · rw [he]
  · rw [hok]

theorem detachNic_nics (k id : NicId) (nic : Nic) (h : (s.detachNic k).2.nics.lookup id = some nic) :
    s.nics.lookup id = some nic := by
  simp only [detachNic] at h
  split at h
  · exact h
  · rw [Assoc.lookup_erase_ite] at h
    split at h
    · cases h
    · exact h

end MemNetworkStore

namespace MemVmHost

variable {h : MemVmHost}

theorem Linked.same_nics (hl : h.Linked) {nets : MemNetworkStore} (hnics : nets.nics = h.nets.nics) :
    { h with nets }.Linked :=
  hl.of_nets fun _ _ hnic => hnics ▸ hnic

theorem withOwner_snd (h : MemVmHost) (unknown : String) (next : String → Except String Rest) :
    (h.withOwner unknown next).2 = h := by
  unfold withOwner
  split
  · rfl
  · split
    · rfl
    · rfl

/-- The first section of an operation. -/
theorem first_linked (hl : h.Linked) {op : VmOp} (hcaps : h.caps.contains (Capabilities.required op) = true) :
    (h.first op).2.Linked ↔ h.InKeeping (.start (.handle op)) := by
  cases op with
  | create label restartPolicy imagePath cpuCount memoryMib bootBlobCrc32c =>
    refine iff_of_true ?_ trivial
    simp only [first, ends, dispatch, create]
    split
    · exact hl
    · split
      · exact hl
      · rename_i k hfree
        exact hl.fill hfree rfl
  | start vmId =>
    refine iff_of_true ?_ trivial
    simp only [first, ends, dispatch, start]
    split
    · exact hl
    · rename_i s hs
      split
      · exact hl
      · split
        · exact hl
        · exact hl.rewrite hs fun _ ha => ha
  | stop vmId =>
    refine iff_of_true ?_ trivial
    simp only [first, ends, dispatch, stop]
    split
    · exact hl
    · rename_i s hs
      refine hl.rewrite hs fun a ha => ?_
      split at ha
      · exact ha
      · exact ha
  | delete vmId =>
    simp only [first, ends, dispatch, delete]
    split
    · rename_i e he
      refine iff_of_true hl ?_
      rintro - s hs
      cases he.symm.trans hs
    · rename_i s hs
      split
      · rename_i hstate
        refine iff_of_true hl ?_
        rintro - s' hs' hterminal
        obtain rfl := Except.ok.inj (hs.symm.trans hs')
        rw [hterminal] at hstate
        cases hstate
      · rename_i hstate
        rw [hl.vacate hs]
        constructor
        · exact fun hno _ _ _ _ => hno
        · exact fun hkeep => hkeep hcaps s hs (by simpa using hstate)
  | detachVolume vmId volumeId =>
    refine iff_of_true ?_ trivial
    simp only [first, ends, dispatch, detachVolume]
    split
    · exact hl
    · rename_i s hs
      exact hl.rewrite hs fun a ha => List.mem_of_mem_filter ha
  | readVolume volumeId offset len =>
    refine iff_of_true ?_ trivial
    simp only [first, ends, dispatch, readVolume]
    split
    · exact hl
    · exact hl
  | writeVolume volumeId offset bytes =>
    refine iff_of_true ?_ trivial
    simp only [first, ends, dispatch, writeVolume]
    split
    · exact hl
    · exact hl.of_vault (h.vault.write_keeps volumeId offset bytes)
  | createSnapshot volumeId name => exact iff_of_true (hl.of_vault (h.vault.createSnapshot_keeps volumeId name)) trivial
  | deleteSnapshot snapshotId => exact iff_of_true (hl.of_vault fun _ hget => hget) trivial
  | restoreSnapshot snapshotId => exact iff_of_true (hl.of_vault (h.vault.restoreSnapshot_keeps snapshotId)) trivial
  | deleteNetwork networkId => exact iff_of_true (hl.same_nics (h.nets.deleteNetwork_nics networkId)) trivial
  | detachNic nicId => exact iff_of_true (hl.of_nets (h.nets.detachNic_nics nicId)) trivial
  | deleteSecurityGroup sgId => exact iff_of_true (hl.same_nics rfl) trivial
  | deleteLoadBalancer lbId => exact iff_of_true (hl.same_nics rfl) trivial
  | list | listVolumes | listSnapshots | listNetworks | listNics | listSecurityGroups | listLoadBalancers =>
    exact iff_of_true hl trivial
  | createVolume name sizeBytes =>
    rw [first, withOwner_snd]
    exact iff_of_true hl trivial
  | deleteVolume volumeId =>
    refine iff_of_true ?_ trivial
    simp only [first, ends]
    split
    · exact hl
    · exact hl
  | attachVolume vmId volumeId mountName =>
    refine iff_of_true ?_ trivial
    simp only [first, ends]
    split
    · exact hl
    · split
      · exact hl
      · exact hl
  | createNetwork name cidr =>
    rw [first, withOwner_snd]
    exact iff_of_true hl trivial
  | attachNic networkId vmId ip =>
    refine iff_of_true ?_ trivial
    simp only [first, ends]
    split
    · exact hl
    · split
      · exact hl
      · exact hl
  | createSecurityGroup name rules =>
    rw [first, withOwner_snd]
    exact iff_of_true hl trivial
  | createLoadBalancer name networkId vip frontendPort algo backends =>
    rw [first, withOwner_snd]
    exact iff_of_true hl trivial

/-- **One section** keeps what is on a host linked exactly if it is in keeping with it. -/
theorem locked_linked (hl : h.Linked) (rest : Rest) : (h.locked rest).2.Linked ↔ h.InKeeping rest := by
  cases rest with
  | start call =>
    cases call with
    | handle op =>
      rw [locked]
      split
      · rename_i hdenied
        refine iff_of_true hl ?_
        cases op with
        | delete vmId =>
          intro hcaps
          rw [hcaps] at hdenied
          cases hdenied
        | create | start | stop | list | createVolume | deleteVolume | listVolumes | attachVolume | detachVolume
        | readVolume | writeVolume | createSnapshot | listSnapshots | deleteSnapshot | restoreSnapshot | createNetwork
        | deleteNetwork | listNetworks | attachNic | detachNic | listNics | createSecurityGroup | deleteSecurityGroup
        | listSecurityGroups | createLoadBalancer | deleteLoadBalancer | listLoadBalancers => trivial
      · rename_i hcaps
        exact first_linked hl (by simpa using hcaps)
    | snapshot owner =>
      refine iff_of_true ?_ trivial
      simp only [locked, rememberOwner]
      split
      · exact ⟨hl.volumes, hl.nics⟩
      · exact hl
  | createVolume owner name sizeBytes =>
    exact iff_of_true (hl.of_vault (h.vault.create_keeps owner name sizeBytes)) trivial
  | deleteVolume volumeId => exact deleteVolume_linked hl volumeId
  | attachVolume vmId volumeId mountName =>
    simp only [locked, ends, pushVolume]
    split
    · rename_i e he
      refine iff_of_true hl ?_
      intro s hs
      cases he.symm.trans hs
    · rename_i s hs
      split
      · rename_i hany
        refine iff_of_true hl ?_
        intro s' hs' hnone
        obtain rfl := Except.ok.inj (hs.symm.trans hs')
        rw [hany] at hnone
        cases hnone
      · rename_i hnone
        refine (hl.push hs ⟨volumeId, mountName⟩).trans ⟨fun hget _ _ _ => hget, fun hkeep => ?_⟩
        exact hkeep s hs (by simpa using hnone)
  | createNetwork owner name block => exact iff_of_true (hl.same_nics (h.nets.createNetwork_nics owner name block)) trivial
  | attachNic networkId vmId ip => exact attachNic_linked hl networkId vmId ip
  | createSecurityGroup owner name rules =>
    exact iff_of_true (hl.same_nics (h.nets.createSecurityGroup_nics owner name rules)) trivial
  | createLoadBalancer owner name networkId vip frontendPort algo backends =>
    exact iff_of_true (hl.same_nics (h.nets.createLoadBalancer_nics owner name networkId vip frontendPort algo backends))
      trivial
  | rows owner => exact iff_of_true hl trivial
  | returned answer => exact iff_of_true hl trivial

/-- A slot that is free has no NIC left of the VM that held it. -/
theorem Linked.integrity (hl : h.Linked) : h.Integrity := by
  refine ⟨hl, fun label restartPolicy imagePath cpuCount memoryMib bootBlobCrc32c vmId hcreated id nic hnic hvm => ?_⟩
  obtain ⟨s, hs⟩ := hl.nics id nic hnic
  simp only [apply, dispatch, create] at hcreated
  split at hcreated
  · cases hcreated
  · split at hcreated
    · cases hcreated
    · split at hcreated
      · cases hcreated
      · rename_i k hfree
        obtain ⟨hto, -, hget⟩ := freeSlot_some hfree
        cases hcreated
        rw [hvm, hto, hget] at hs
        cases hs

end MemVmHost

/-! ## Any number of calls -/

/-- A host, and what is left of each call made on it. -/
structure HostSystem where
  host : MemVmHost
  calls : List Rest

/-- A call is made, or the `k`-th call gets the lock it waits for. -/
inductive HostAct where
  | invoke (call : Invocation)
  | advance (k : Nat)

namespace HostSystem

def step (s : HostSystem) : HostAct → Unit × HostSystem
  | .invoke call => ((), { s with calls := s.calls ++ [.start call] })
  | .advance k =>
    match s.calls[k]? with
    | none => ((), s)
    | some rest => ((), ⟨(s.host.locked rest).2, s.calls.set k (s.host.locked rest).1⟩)

/-- No call is in flight. -/
def Idle (s : HostSystem) : Prop := ∀ rest ∈ s.calls, rest.isReturned = true

instance (s : HostSystem) : Decidable s.Idle := inferInstanceAs (Decidable (∀ rest ∈ s.calls, rest.isReturned = true))

/-- Whatever section runs next is in keeping with the host. -/
def InKeeping (s : HostSystem) : HostAct → Prop
  | .invoke _ => True
  | .advance k => ∀ rest, s.calls[k]? = some rest → s.host.InKeeping rest

theorem step_linked {s : HostSystem} (hl : s.host.Linked) (act : HostAct) :
    (s.step act).2.host.Linked ↔ s.InKeeping act := by
  cases act with
  | invoke call => exact iff_of_true hl trivial
  | advance k =>
    simp only [step, InKeeping]
    split
    · rename_i hnone
      refine iff_of_true hl ?_
      intro rest hrest
      cases hnone.symm.trans hrest
    · rename_i rest hrest
      rw [MemVmHost.locked_linked hl rest]
      constructor
      · rintro hkeep rest' hrest'
        obtain rfl := Option.some.inj (hrest.symm.trans hrest')
        exact hkeep
      · exact fun hall => hall rest hrest

end HostSystem

/-- A host without a VM or a NIC, over a volume store that may have volumes already. -/
def MemVmHost.withVault (vault : MemVolumeStore) : MemVmHost := { MemVmHost.new with vault }

theorem MemVmHost.withVault_linked (vault : MemVolumeStore) (caps : Capabilities) :
    ((MemVmHost.withVault vault).withCaps caps).Linked := by
  constructor
  · intro i s hs
    have hs' : (Vector.replicate maxSlots (none : Option Slot))[i]? = some (some s) := hs
    rw [Vector.getElem?_replicate] at hs'
    split at hs'
    · cases hs'
    · cases hs'
  · intro id nic hnic
    cases hnic

/-- **Every state of a run is linked exactly if every section that runs is in keeping with the host.** -/
theorem host_linked_iff (vault : MemVolumeStore) (caps : Capabilities) (acts : List HostAct) :
    (∀ s ∈ states HostSystem.step ⟨(MemVmHost.withVault vault).withCaps caps, []⟩ acts, s.host.Linked) ↔
      Along HostSystem.step HostSystem.InKeeping ⟨(MemVmHost.withVault vault).withCaps caps, []⟩ acts :=
  states_iff_along (I := fun _ => True) (P := fun s : HostSystem => s.host.Linked) (fun _ _ _ => trivial)
    (fun _ act _ hl => HostSystem.step_linked hl act) trivial (MemVmHost.withVault_linked vault caps) acts

/-- **Whatever calls are made and however their sections interleave, a host on which every section is in keeping has no
attachment without its volume and no NIC without its VM when no call is in flight.** -/
theorem host_integrity (vault : MemVolumeStore) (caps : Capabilities) (acts : List HostAct)
    (h : Along HostSystem.step HostSystem.InKeeping ⟨(MemVmHost.withVault vault).withCaps caps, []⟩ acts) :
    ∀ s ∈ states HostSystem.step ⟨(MemVmHost.withVault vault).withCaps caps, []⟩ acts, s.Idle → s.host.Integrity :=
  fun s hs _ => ((host_linked_iff vault caps acts).2 h s hs).integrity

/-- Two calls that overlap: a volume is attached while another is created. -/
def overlapping : List HostAct :=
  [.invoke (.snapshot ⟨"n1"⟩), .advance 0, .advance 0,
    .invoke (.handle (.create "web" .never none none none none)), .advance 1,
    .invoke (.handle (.createVolume "disk" 2)), .advance 2, .advance 2,
    .invoke (.handle (.attachVolume 0 ⟨"n1/v1"⟩ "data")), .advance 3,
    .invoke (.handle (.createVolume "more" 2)), .advance 4, .advance 3, .advance 4]

theorem overlapping_integrity :
    (run HostSystem.step ⟨(MemVmHost.withVault default).withCaps .all, []⟩ overlapping).Idle ∧
    ((run HostSystem.step ⟨(MemVmHost.withVault default).withCaps .all, []⟩ overlapping).host.vault.get ⟨"n1/v1"⟩).isSome ∧
    ∀ s ∈ states HostSystem.step ⟨(MemVmHost.withVault default).withCaps .all, []⟩ overlapping, s.Idle →
      s.host.Integrity := by
  refine ⟨by decide +kernel, by decide +kernel, host_integrity default .all overlapping ?_⟩
  refine ⟨trivial, ?_, ?_, trivial, ?_, trivial, ?_, ?_, trivial, ?_, trivial, ?_, ?_, ?_, trivial⟩
  all_goals
    rintro rest ⟨⟩
  iterate 7 trivial
  · intro s hs hnone
    decide +kernel
  · trivial

/-- The volume is deleted between the two sections of its attach. -/
def volumeRace : List HostAct :=
  [.invoke (.snapshot ⟨"n1"⟩), .advance 0, .advance 0,
    .invoke (.handle (.create "web" .never none none none none)), .advance 1,
    .invoke (.handle (.createVolume "disk" 2)), .advance 2, .advance 2,
    .invoke (.handle (.attachVolume 0 ⟨"n1/v1"⟩ "data")), .advance 3,
    .invoke (.handle (.deleteVolume ⟨"n1/v1"⟩)), .advance 4, .advance 4, .advance 3]

/-- A VM with a NIC is deleted; no two calls overlap. -/
def nicLeft : List HostAct :=
  [.invoke (.snapshot ⟨"n1"⟩), .advance 0, .advance 0,
    .invoke (.handle (.create "web" .never none none none none)), .advance 1,
    .invoke (.handle (.createNetwork "net" "10.0.0.0/24")), .advance 2, .advance 2,
    .invoke (.handle (.attachNic ⟨"n1/n1"⟩ 0 none)), .advance 3, .advance 3,
    .invoke (.handle (.stop 0)), .advance 4, .invoke (.handle (.delete 0)), .advance 5]

/-- Where a run from a fresh host ends. -/
def hostAfter (acts : List HostAct) : HostSystem :=
  run HostSystem.step ⟨(MemVmHost.withVault default).withCaps .all, []⟩ acts

/-- **A deleted VM leaves its NIC to the next VM in its slot, and a volume can be attached that is gone.** -/
theorem stale_references :
    ((hostAfter nicLeft).Idle ∧ ((hostAfter nicLeft).host.nets.nics.lookup ⟨"n1/n1/nic1"⟩).map (·.vmId) = some 0 ∧
      (hostAfter nicLeft).host.slots[0]? = some none ∧
      ((hostAfter nicLeft).host.apply (.create "db" .never none none none none)).1 = .ok (.created 0) ∧
      ¬ (hostAfter nicLeft).host.Integrity) ∧
    ((hostAfter volumeRace).Idle ∧ ((hostAfter volumeRace).host.slotMut 0).map (·.volumes) = .ok [⟨⟨"n1/v1"⟩, "data"⟩] ∧
      (hostAfter volumeRace).host.vault.get ⟨"n1/v1"⟩ = none ∧ ¬ (hostAfter volumeRace).host.Integrity) := by
  have hnic : ((hostAfter nicLeft).host.nets.nics.lookup ⟨"n1/n1/nic1"⟩).map (·.vmId) = some 0 := by decide +kernel
  have hfree : (hostAfter nicLeft).host.slots[0]? = some none := by decide +kernel
  have hslot : ((hostAfter volumeRace).host.slotMut 0).map (·.volumes) = .ok [⟨⟨"n1/v1"⟩, "data"⟩] := by decide +kernel
  have hgone : (hostAfter volumeRace).host.vault.get ⟨"n1/v1"⟩ = none := by decide +kernel
  refine ⟨⟨by decide +kernel, hnic, hfree, by decide +kernel, fun h => ?_⟩,
    ⟨by decide +kernel, hslot, hgone, fun h => ?_⟩⟩
  · obtain ⟨nic, hnic, hvm⟩ := Option.map_eq_some_iff.1 hnic
    obtain ⟨s, hs⟩ := h.linked.nics _ nic hnic
    rw [hvm] at hs
    cases hfree.symm.trans hs
  · cases hs : (hostAfter volumeRace).host.slotMut 0 with
    | error e =>
      rw [hs] at hslot
      cases hslot
    | ok s =>
      rw [hs] at hslot
      have hvolumes : s.volumes = [⟨⟨"n1/v1"⟩, "data"⟩] := Except.ok.inj hslot
      have hmem : (⟨⟨"n1/v1"⟩, "data"⟩ : VolumeAttachment) ∈ s.volumes := by
        rw [hvolumes]
        exact List.mem_cons_self
      have hsome := h.linked.volumes _ s (MemVmHost.slotMut_ok hs) _ hmem
      rw [hgone] at hsome
      cases hsome

end Celium
