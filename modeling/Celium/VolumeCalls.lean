import Celium.Volume
/-!
# VolumeCalls — the calls of a volume store, and its ids

The trait `VolumeStore` as one type of calls with their replies, `MemVolumeStore` as a step on them, and
`integrity_check` as the trait has it.  Below that what the ids say: a counter is read off the end of an id, a volume's
after the last `v` and a snapshot's after the last `s`, and a snapshot's volume is found by splitting at the first `@`
where the owner has none.
-/
namespace Celium

open Fixed

/-! ## Calls -/

inductive VolumeOp where
  | create (owner name : String) (sizeBytes : UInt64)
  | delete (id : VolumeId)
  | list
  | get (id : VolumeId)
  | read (id : VolumeId) (offset : UInt64) (len : Nat)
  | write (id : VolumeId) (offset : UInt64) (data : List UInt8)
  | createSnapshot (id : VolumeId) (name : String)
  | listSnapshots (volume : Option VolumeId)
  | deleteSnapshot (id : SnapshotId)
  | restoreSnapshot (id : SnapshotId)
deriving DecidableEq, Repr

inductive VolumeReply where
  | done
  | volume (m : VolumeMeta)
  | volumes (ms : List VolumeMeta)
  | found (m : Option VolumeMeta)
  | bytes (bs : List UInt8)
  | snapshot (m : SnapshotMeta)
  | snapshots (ms : List SnapshotMeta)
deriving DecidableEq, Repr

structure IntegrityReport where
  volumesChecked : UInt32 := 0
  snapshotsChecked : UInt32 := 0
  errors : List String := []
deriving DecidableEq, Repr

def IntegrityReport.isClean (r : IntegrityReport) : Bool := r.errors.isEmpty

namespace MemVolumeStore

def new : MemVolumeStore := default

def apply (s : MemVolumeStore) : VolumeOp → CelResult VolumeReply × MemVolumeStore
  | .create owner name size => ((s.create owner name size).1.map .volume, (s.create owner name size).2)
  | .delete id => ((s.delete id).1.map (fun _ => .done), (s.delete id).2)
  | .list => (.ok (.volumes s.list), s)
  | .get id => (.ok (.found (s.get id)), s)
  | .read id offset len => ((s.read id offset len).map .bytes, s)
  | .write id offset data => ((s.write id offset data).1.map (fun _ => .done), (s.write id offset data).2)
  | .createSnapshot id name => ((s.createSnapshot id name).1.map .snapshot, (s.createSnapshot id name).2)
  | .listSnapshots volume => (.ok (.snapshots (s.listSnapshots volume)), s)
  | .deleteSnapshot id => ((s.deleteSnapshot id).1.map (fun _ => .done), (s.deleteSnapshot id).2)
  | .restoreSnapshot id => ((s.restoreSnapshot id).1.map (fun _ => .done), (s.restoreSnapshot id).2)

/-- The line for a volume whose last byte cannot be read. -/
def checkVolume (s : MemVolumeStore) (v : VolumeMeta) : List String :=
  if v.sizeBytes > 0 then
    match s.read v.id (v.sizeBytes - 1) 1 with
    | .error e => ["volume " ++ v.id.raw ++ ": " ++ e.display]
    | .ok _ => []
  else []

/-- The line for a snapshot that does not go with its volume. -/
def checkSnapshot (s : MemVolumeStore) (sn : SnapshotMeta) : List String :=
  match s.get sn.volume with
  | none => ["snapshot " ++ sn.id.raw ++ ": parent volume " ++ sn.volume.raw ++ " missing"]
  | some parent =>
    if parent.sizeBytes ≠ sn.sizeBytes then
      ["snapshot " ++ sn.id.raw ++ ": size " ++ toString sn.sizeBytes ++ " != parent " ++ sn.volume.raw ++ " (" ++
        toString parent.sizeBytes ++ ")"]
    else []

/-- `integrity_check`, as the trait has it. -/
def integrityCheck (s : MemVolumeStore) : IntegrityReport where
  volumesChecked := s.list.foldl (fun n _ => satAdd32 n 1) 0
  snapshotsChecked := (s.listSnapshots none).foldl (fun n _ => satAdd32 n 1) 0
  errors := s.list.flatMap s.checkVolume ++ (s.listSnapshots none).flatMap s.checkSnapshot

end MemVolumeStore

/-! ## When a create passes its checks -/

/-- The name and the size are within their limits. -/
def CreateOk (name : String) (sizeBytes : UInt64) : Prop :=
  MemVolumeStore.validateName name = .ok () ∧ sizeBytes ≠ 0 ∧ ¬ sizeBytes > maxVolumeBytes

instance (name : String) (sizeBytes : UInt64) : Decidable (CreateOk name sizeBytes) :=
  inferInstanceAs (Decidable (_ ∧ _ ∧ _))

namespace MemVolumeStore

variable (s : MemVolumeStore) (owner : String) {name : String} {sizeBytes : UInt64}

theorem create_valid (h : CreateOk name sizeBytes) :
    s.create owner name sizeBytes =
      (.ok ⟨volumeId owner (satAdd64 s.next 1), owner, name, sizeBytes⟩,
        { s with next := satAdd64 s.next 1
                 rows := s.rows.insert (volumeId owner (satAdd64 s.next 1))
                   ⟨⟨volumeId owner (satAdd64 s.next 1), owner, name, sizeBytes⟩,
                     List.replicate sizeBytes.toNat 0⟩ }) := by
  simp only [create, h.1, if_neg h.2.1, if_neg h.2.2]

theorem create_invalid (h : ¬ CreateOk name sizeBytes) : ∃ e, s.create owner name sizeBytes = (.error e, s) := by
  unfold create
  cases hname : validateName name with
  | error e => exact ⟨e, rfl⟩
  | ok u =>
    simp only
    split
    · exact ⟨_, rfl⟩
    · split
      · exact ⟨_, rfl⟩
      · exact absurd ⟨hname, ‹_›, ‹_›⟩ h

/-! ## What a delete drops -/

theorem mem_drop {s : MemVolumeStore} {id : VolumeId} {k : SnapshotId} :
    k ∈ (s.snaps.entries.filter (fun e => e.2.meta_.volume == id)).map (·.1) ↔
      ∃ sn, s.snaps.lookup k = some sn ∧ sn.meta_.volume = id := by
  simp only [List.mem_map, List.mem_filter, beq_iff_eq]
  constructor
  · rintro ⟨⟨k', sn⟩, ⟨hmem, hvol⟩, rfl⟩
    exact ⟨sn, AList.mem_lookup_iff.2 hmem, hvol⟩
  · rintro ⟨sn, hsn, hvol⟩
    exact ⟨⟨k, sn⟩, ⟨AList.mem_lookup_iff.1 hsn, hvol⟩, rfl⟩

/-- **A delete takes the snapshots of the volume and no others.** -/
theorem delete_snaps {id : VolumeId} {k : SnapshotId} {sn : MemSnapshot} :
    (s.delete id).2.snaps.lookup k = some sn ↔ s.snaps.lookup k = some sn ∧ sn.meta_.volume ≠ id := by
  simp only [delete, Assoc.lookup_foldl_erase, mem_drop]
  constructor
  · intro h
    split at h
    · cases h
    · rename_i hkeep
      exact ⟨h, fun hvol => hkeep ⟨sn, h, hvol⟩⟩
  · rintro ⟨h, hne⟩
    rw [if_neg]
    · exact h
    · rintro ⟨sn', hsn', hvol⟩
      exact hne (Option.some.inj (h.symm.trans hsn') ▸ hvol)

theorem delete_snaps_volume (id : VolumeId) (k : SnapshotId) :
    ((s.delete id).2.snaps.lookup k).map (·.meta_.volume) =
      if (s.snaps.lookup k).map (·.meta_.volume) = some id then none else (s.snaps.lookup k).map (·.meta_.volume) := by
  have hdrop : (∃ sn, s.snaps.lookup k = some sn ∧ sn.meta_.volume = id) ↔
      (s.snaps.lookup k).map (·.meta_.volume) = some id := Option.map_eq_some_iff.symm
  simp only [delete, Assoc.lookup_foldl_erase, mem_drop, hdrop]
  split
  · rfl
  · rfl

end MemVolumeStore

/-! ## Ids -/

/-- The id of the `n`-th snapshot of a volume. -/
def VolumeId.snapshot (id : VolumeId) (n : UInt64) : SnapshotId := ⟨id.raw ++ "@s" ++ toString n.toNat⟩

theorem VolumeId.toList_snapshot (id : VolumeId) (n : UInt64) :
    (id.snapshot n).raw.toList = id.raw.toList ++ '@' :: 's' :: (toString n.toNat).toList := by
  simp [VolumeId.snapshot]

theorem MemVolumeStore.toList_volumeId (owner : String) (n : UInt64) :
    (volumeId owner n).raw.toList = owner.toList ++ '/' :: 'v' :: (toString n.toNat).toList := by
  simp [volumeId]

/-- **A volume's counter can be read off its id**, and with it the owner. -/
theorem MemVolumeStore.volumeId_inj {owner owner' : String} {n m : UInt64}
    (h : volumeId owner n = volumeId owner' m) : owner = owner' ∧ n = m := by
  have hlist := congrArg (fun id => id.raw.toList) h
  simp only [toList_volumeId] at hlist
  obtain ⟨howner, hcounter⟩ := Text.counted_inj (by decide) hlist
  exact ⟨String.toList_inj.1 howner, UInt64.toNat_inj.1 hcounter⟩

theorem VolumeId.snapshot_inj {id id' : VolumeId} {n m : UInt64} (h : id.snapshot n = id'.snapshot m) :
    id = id' ∧ n = m := by
  have hlist := congrArg (fun s => s.raw.toList) h
  simp only [toList_snapshot] at hlist
  obtain ⟨hid, hcounter⟩ := Text.counted_inj (by decide) hlist
  exact ⟨VolumeId.ext (String.toList_inj.1 hid), UInt64.toNat_inj.1 hcounter⟩

/-- A snapshot id is split back where the volume's id has no `@`. -/
theorem SnapshotId.split_snapshot {id : VolumeId} (h : '@' ∉ id.raw.toList) (n : UInt64) :
    (id.snapshot n).split = some (id, n.toNat) := by
  rw [SnapshotId.split, id.toList_snapshot, Text.splitOnce_append h]
  simp only [Text.parseUnsigned_toString (le_u64Max n), Option.map_some, String.ofList_toList]

/-- **It is not split at all where the owner has one**: what stands after the first `@` still holds a slash. -/
theorem SnapshotId.split_at {owner : String} (h : '@' ∈ owner.toList) (n m : UInt64) :
    ((MemVolumeStore.volumeId owner n).snapshot m).split = none := by
  obtain ⟨as, bs, hsplit, has⟩ := Text.exists_first h
  have hlist : ((MemVolumeStore.volumeId owner n).snapshot m).raw.toList =
      as ++ '@' :: (bs ++ '/' :: 'v' :: (toString n.toNat).toList ++ '@' :: 's' :: (toString m.toNat).toList) := by
    rw [VolumeId.toList_snapshot, MemVolumeStore.toList_volumeId, hsplit]
    simp
  rw [SnapshotId.split, hlist, Text.splitOnce_append has]
  simp only
  split
  · rename_i digits heq
    have hslash : '/' ∈ digits := by
      have hmem : '/' ∈ 's' :: digits := by
        rw [← heq]
        simp
      rcases List.mem_cons.1 hmem with hs | hmem
      · exact absurd hs (by decide)
      · exact hmem
    rw [Text.parseUnsigned_none (by decide) (by decide) hslash]
    rfl
  · rfl

theorem MemVolumeStore.at_mem_volumeId {owner : String} {n : UInt64} :
    '@' ∈ (volumeId owner n).raw.toList ↔ '@' ∈ owner.toList := by
  have hn : '@' ∉ (toString n.toNat).toList := Text.not_mem_toString (by decide) _
  rw [toList_volumeId]
  simp only [List.mem_append, List.mem_cons, hn, or_false]
  simp

end Celium
