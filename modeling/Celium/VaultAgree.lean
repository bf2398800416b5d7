import Celium.Lib.Runs
import Celium.FileVolume
/-!
# VaultAgree — the two volume stores, call by call

Both stores are given the same calls, with creates for one owner and the store on disk closed and opened again in
between.  They hold the same records, and a body file holds what the body in memory holds; the files of one owner's
volumes and snapshots do not meet.  The two part at one call only: a restore, for which the store in memory looks for the
volume by splitting the snapshot's id.
-/
namespace Celium

open Fixed Runs

/-! ## Same outcome -/

/-- A call that creates volumes for no other owner, or a close and open of the store on disk. -/
inductive VaultCall (owner : String) where
  | op (op : VolumeOp) (owned : ∀ o name size, op = .create o name size → o = owner)
  | reopen

def bothVaults {β : Type} (cd : ManifestCodec β) {owner : String} (s : MemVolumeStore × FileVolumeStore β) :
    VaultCall owner → (CelResult VolumeReply × CelResult VolumeReply) × (MemVolumeStore × FileVolumeStore β)
  | .op op _ => (((s.1.apply op).1, (s.2.apply cd op).1), ((s.1.apply op).2, (s.2.apply cd op).2))
  | .reopen =>
    match FileVolumeStore.openOrCreate cd s.2.disk with
    | .ok file => ((.ok .done, .ok .done), (s.1, file))
    | .error e => ((.ok .done, .error e), s)

/-- The same reply, or an error each. -/
def SameReply : CelResult VolumeReply × CelResult VolumeReply → Prop
  | (.ok a, .ok b) => a = b
  | (.error _, .error _) => True
  | _ => False

/-- The snapshot is there, and its volume has the size it had. -/
def Manifest.Restorable (m : Manifest) (id : SnapshotId) : Prop :=
  ∃ snap vol, m.snapshots.lookup id = some snap ∧ m.volumes.lookup snap.volume = some vol ∧
    vol.sizeBytes = snap.sizeBytes

/-- Where the owner's name has an `@`, no snapshot is restored that could be. -/
def NoRestore {β : Type} {owner : String} (s : MemVolumeStore × FileVolumeStore β) : VaultCall owner → Prop
  | .op (.restoreSnapshot id) _ => '@' ∈ owner.toList → ¬ s.2.manifest.Restorable id
  | _ => True

/-! ## The relation -/

section Sync

variable {β : Type} (cd : ManifestCodec β) (owner : String)

structure VaultSync (mem : MemVolumeStore) (file : FileVolumeStore β) : Prop where
  next : (file.manifest.nextPerOwner.lookup owner).getD 0 = mem.next
  nextSnap : ∀ id, file.manifest.nextSnap.lookup id = mem.nextSnap.lookup id
  volumes : ∀ id, file.manifest.volumes.lookup id = (mem.rows.lookup id).map (·.meta_)
  snapshots : ∀ id, file.manifest.snapshots.lookup id = (mem.snaps.lookup id).map (·.meta_)
  volume : ∀ id v, mem.rows.lookup id = some v → file.disk.bodies id.file = some v.body ∧
    v.body.length = v.meta_.sizeBytes.toNat ∧ ∃ n, id = MemVolumeStore.volumeId owner n
  snapshot : ∀ id sn, mem.snaps.lookup id = some sn → file.disk.bodies id.file = some sn.body ∧
    sn.body.length = sn.meta_.sizeBytes.toNat ∧ (∃ n, id = sn.meta_.volume.snapshot n) ∧
    (mem.rows.lookup sn.meta_.volume).isSome
  saved : file.Saved cd

theorem vaultSync_empty : VaultSync cd owner .new ⟨default, .empty⟩ where
  next := rfl
  nextSnap := fun _ => rfl
  volumes := fun _ => rfl
  snapshots := fun _ => rfl
  volume := fun _ _ h => by cases h
  snapshot := fun _ _ h => by cases h
  saved := .inr ⟨rfl, rfl⟩

variable {cd owner} {mem : MemVolumeStore} {file : FileVolumeStore β}

/-- The files of the volumes in memory do not meet. -/
theorem VaultSync.file_ne (h : VaultSync cd owner mem file) {id id' : VolumeId} {v v' : MemVolume}
    (hv : mem.rows.lookup id = some v) (hv' : mem.rows.lookup id' = some v') (hne : id ≠ id') : id.file ≠ id'.file := by
  obtain ⟨-, -, n, rfl⟩ := h.volume id v hv
  obtain ⟨-, -, m, rfl⟩ := h.volume id' v' hv'
  intro hfile
  exact hne (by rw [(volumeId_file_inj.1 hfile).2])

theorem VaultSync.snapshot_file_ne (h : VaultSync cd owner mem file) {id id' : SnapshotId} {sn sn' : MemSnapshot}
    (hs : mem.snaps.lookup id = some sn) (hs' : mem.snaps.lookup id' = some sn') (hne : id ≠ id') :
    id.file ≠ id'.file := by
  obtain ⟨-, -, ⟨n, rfl⟩, hvol⟩ := h.snapshot id sn hs
  obtain ⟨-, -, ⟨m, rfl⟩, hvol'⟩ := h.snapshot id' sn' hs'
  obtain ⟨v, hv⟩ := Option.isSome_iff_exists.1 hvol
  obtain ⟨v', hv'⟩ := Option.isSome_iff_exists.1 hvol'
  intro hfile
  obtain ⟨hvolumes, rfl⟩ := snapshot_file_inj hfile
  by_cases heq : sn.meta_.volume = sn'.meta_.volume
  · exact hne (by rw [heq])
  · exact h.file_ne hv hv' heq hvolumes

/-! ## One call -/

/-- Both stores answer alike and stay in step. -/
def Agree (cd : ManifestCodec β) (owner : String) (mem : MemVolumeStore) (file : FileVolumeStore β) (op : VolumeOp) :
    Prop :=
  SameReply ((mem.apply op).1, (file.apply cd op).1) ∧ VaultSync cd owner (mem.apply op).2 (file.apply cd op).2

/-- A call that changes neither store. -/
theorem agree_of_read (h : VaultSync cd owner mem file) {op : VolumeOp} {r r' : CelResult VolumeReply}
    (hmem : mem.apply op = (r, mem)) (hfile : file.plan cd op = file.answer r') (hsame : SameReply (r, r')) :
    Agree cd owner mem file op := by
  have happly : file.apply cd op = (r', file) := by
    rw [FileVolumeStore.apply, hfile]
    rfl
  rw [Agree, hmem, happly]
  exact ⟨hsame, h⟩

/-- A call that both refuse. -/
theorem agree_of_error (h : VaultSync cd owner mem file) {op : VolumeOp} (hmem : ∃ e, mem.apply op = (.error e, mem))
    (hfile : ∃ e, file.plan cd op = file.answer (.error e)) : Agree cd owner mem file op := by
  obtain ⟨e, he⟩ := hmem
  obtain ⟨e', he'⟩ := hfile
  exact agree_of_read h he he' trivial

theorem create_agree (h : VaultSync cd owner mem file) (name : String) (size : UInt64) :
    Agree cd owner mem file (.create owner name size) := by
  by_cases hok : CreateOk name size
  · have hid : file.nextId owner = MemVolumeStore.volumeId owner (satAdd64 mem.next 1) := by
      rw [FileVolumeStore.nextId, h.next]
    have hmem : mem.apply (.create owner name size) = _ :=
      congrArg (fun p : CelResult VolumeMeta × MemVolumeStore => (p.1.map VolumeReply.volume, p.2)) (mem.create_valid owner hok)
    have hfile : file.apply cd (.create owner name size) =
        (.ok (.volume ⟨file.nextId owner, owner, name, size⟩),
          ⟨file.withVolume owner name size,
            { file.disk.setBody (file.nextId owner).file (some (List.replicate size.toNat 0)) with
              manifest := some (.json (cd.encode (file.withVolume owner name size))), tmp := none }⟩) := by
      simp only [FileVolumeStore.apply, FileVolumeStore.plan, file.create_valid cd owner hok, VaultDisk.calls_append,
        VaultDisk.calls_writeBody, VaultDisk.calls_saveManifest]
    rw [Agree, hmem, hfile, hid]
    refine ⟨rfl, ?_⟩
    dsimp only
    constructor
    · simp only [FileVolumeStore.withVolume, AList.lookup_insert, Option.getD_some, h.next]
    · exact h.nextSnap
    · intro id
      simp only [FileVolumeStore.withVolume, hid, Assoc.lookup_insert_ite, h.volumes id]
      split
      · rfl
      · rfl
    · exact h.snapshots
    · intro id v hv
      rw [Assoc.lookup_insert_ite] at hv
      split at hv
      · rename_i heq
        subst heq
        obtain rfl := Option.some.inj hv
        exact ⟨file.disk.setBody_self _ _, List.length_replicate, _, rfl⟩
      · rename_i hne
        obtain ⟨hbody, hlen, n, rfl⟩ := h.volume id v hv
        refine ⟨(file.disk.setBody_of_ne ?_ _).trans hbody, hlen, n, rfl⟩
        intro hfile
        exact hne (by rw [(volumeId_file_inj.1 hfile).2])
    · intro id sn hsn
      obtain ⟨hbody, hlen, hid', hvol⟩ := h.snapshot id sn hsn
      have hne := (volume_file_ne_snapshot (MemVolumeStore.volumeId owner (satAdd64 mem.next 1)) id).symm
      refine ⟨(file.disk.setBody_of_ne hne (some (List.replicate size.toNat 0))).trans hbody, hlen, hid', ?_⟩
      rw [Assoc.lookup_insert_ite]
      split
      · rfl
      · exact hvol
    · exact .inl rfl
  · obtain ⟨e, he⟩ := mem.create_invalid owner hok
    exact agree_of_error h ⟨e, by simp only [MemVolumeStore.apply, he]; rfl⟩ (file.create_invalid cd owner hok)

/-- The snapshots of a volume are the ones the memory store drops with it. -/
theorem VaultSync.mem_snapshotsOf (h : VaultSync cd owner mem file) {id : VolumeId} {k : SnapshotId} :
    k ∈ file.snapshotsOf id ↔ ∃ sn, mem.snaps.lookup k = some sn ∧ sn.meta_.volume = id := by
  rw [file.mem_snapshotsOf]
  simp only [h.snapshots k, Option.map_eq_some_iff]
  constructor
  · rintro ⟨_, ⟨sn, hsn, rfl⟩, hvol⟩
    exact ⟨sn, hsn, hvol⟩
  · rintro ⟨sn, hsn, hvol⟩
    exact ⟨_, ⟨sn, hsn, rfl⟩, hvol⟩

/-- The files of a volume that stays are not among the ones that go, -/
theorem VaultSync.file_kept (h : VaultSync cd owner mem file) {id k : VolumeId} {v : MemVolume}
    (hv : mem.rows.lookup k = some v) (hne : k ≠ id) : k.file ∉ file.dropped id := by
  rw [FileVolumeStore.mem_dropped, h.volumes id, Option.isSome_map]
  rintro (⟨hfile, hsome⟩ | ⟨sn, -, hfile⟩)
  · obtain ⟨v', hv'⟩ := Option.isSome_iff_exists.1 hsome
    exact h.file_ne hv hv' hne hfile
  · exact volume_file_ne_snapshot k sn hfile.symm

/-- nor are those of its snapshots. -/
theorem VaultSync.snapshot_file_kept (h : VaultSync cd owner mem file) {id : VolumeId} {k : SnapshotId} {sn : MemSnapshot}
    (hsn : mem.snaps.lookup k = some sn) (hne : sn.meta_.volume ≠ id) : k.file ∉ file.dropped id := by
  rw [FileVolumeStore.mem_dropped]
  rintro (⟨hfile, -⟩ | ⟨k', hk', hfile⟩)
  · exact volume_file_ne_snapshot id k hfile.symm
  · obtain ⟨sn', hsn', hvol'⟩ := h.mem_snapshotsOf.1 hk'
    have hkk : k' ≠ k := by
      rintro rfl
      exact hne ((Option.some.inj (hsn.symm.trans hsn')) ▸ hvol')
    exact h.snapshot_file_ne hsn' hsn hkk hfile

theorem delete_agree (h : VaultSync cd owner mem file) (id : VolumeId) : Agree cd owner mem file (.delete id) := by
  have hfile : file.apply cd (.delete id) =
      (.ok .done, ⟨file.withoutVolume id,
        { file.disk with
          bodies := fun f => if f ∈ file.dropped id then none else file.disk.bodies f
          manifest := some (.json (cd.encode (file.withoutVolume id))), tmp := none }⟩) := by
    simp only [FileVolumeStore.apply, FileVolumeStore.plan, file.delete_eq, VaultDisk.calls_append,
      VaultDisk.calls_remove, VaultDisk.calls_saveManifest]
  rw [Agree, hfile]
  refine ⟨rfl, ?_⟩
  simp only [MemVolumeStore.apply, MemVolumeStore.delete]
  constructor
  · exact h.next
  · intro k
    simp only [FileVolumeStore.withoutVolume, Assoc.lookup_erase_ite, h.nextSnap k]
  · intro k
    simp only [FileVolumeStore.withoutVolume, Assoc.lookup_erase_ite, h.volumes k]
    split
    · rfl
    · rfl
  · intro k
    simp only [FileVolumeStore.withoutVolume, Assoc.lookup_foldl_erase, h.snapshots k, h.mem_snapshotsOf, MemVolumeStore.mem_drop]
    split
    · rfl
    · rfl
  · intro k v hv
    rw [Assoc.lookup_erase_ite] at hv
    split at hv
    · cases hv
    · rename_i hne
      obtain ⟨hbody, hlen, hid⟩ := h.volume k v hv
      exact ⟨(if_neg (h.file_kept hv hne)).trans hbody, hlen, hid⟩
  · intro k sn hsn
    rw [Assoc.lookup_foldl_erase] at hsn
    split at hsn
    · cases hsn
    · rename_i hkeep
      obtain ⟨hbody, hlen, hid, hvol⟩ := h.snapshot k sn hsn
      have hne : sn.meta_.volume ≠ id := fun hvol => hkeep (MemVolumeStore.mem_drop.2 ⟨sn, hsn, hvol⟩)
      refine ⟨(if_neg (h.snapshot_file_kept hsn hne)).trans hbody, hlen, hid, ?_⟩
      rw [Assoc.lookup_erase_ite, if_neg hne]
      exact hvol
  · exact .inl rfl

/-- Both stores let the same ranges pass. -/
theorem range_agree (h : VaultSync cd owner mem file) (id : VolumeId) (offset : UInt64) (len : Nat) (what : String) :
    (∃ e e', mem.range id offset len what = .error e ∧ file.range id offset len what = .error e') ∨
      ∃ v, mem.range id offset len what = .ok v ∧ file.range id offset len what = .ok () ∧
        mem.rows.lookup id = some v ∧ offset.toNat + len ≤ v.body.length := by
  unfold MemVolumeStore.range FileVolumeStore.range
  rw [h.volumes id]
  cases hv : mem.rows.lookup id with
  | none => exact .inl ⟨_, _, rfl, rfl⟩
  | some v =>
    obtain ⟨-, hlen, -⟩ := h.volume id v hv
    simp only [Option.map_some, ← hlen]
    cases hend : checkedAdd64 offset.toNat len with
    | none => exact .inl ⟨_, _, rfl, rfl⟩
    | some stop =>
      obtain ⟨rfl, -⟩ := checkedAdd64_eq_some hend
      simp only
      split
      · exact .inl ⟨_, _, rfl, rfl⟩
      · exact .inr ⟨v, rfl, rfl, rfl, by omega⟩

theorem read_agree (h : VaultSync cd owner mem file) (id : VolumeId) (offset : UInt64) (len : Nat) :
    Agree cd owner mem file (.read id offset len) := by
  refine agree_of_read h rfl rfl ?_
  unfold MemVolumeStore.read FileVolumeStore.read
  rcases range_agree h id offset len "read" with ⟨e, e', hm, hf⟩ | ⟨v, hm, hf, hv, hle⟩
  · rw [hm, hf]
    trivial
  · obtain ⟨hbody, -⟩ := h.volume id v hv
    simp only [hm, hf, hbody, if_neg (Nat.not_lt.2 hle)]
    rfl

/-- The volume's new body, in memory and in its file. -/
theorem VaultSync.setVolume (h : VaultSync cd owner mem file) {id : VolumeId} {v : MemVolume}
    (hv : mem.rows.lookup id = some v) {body : List UInt8} (hlen : body.length = v.body.length) :
    VaultSync cd owner { mem with rows := mem.rows.insert id { v with body } }
      ⟨file.manifest, file.disk.setBody id.file (some body)⟩ where
  next := h.next
  nextSnap := h.nextSnap
  volumes := fun id' => by
    simp only [h.volumes id', Assoc.lookup_insert_ite]
    split
    · rename_i heq
      rw [heq, hv]
      rfl
    · rfl
  snapshots := h.snapshots
  volume := fun id' v' hv' => by
    simp only [Assoc.lookup_insert_ite] at hv'
    split at hv'
    · rename_i heq
      subst heq
      obtain rfl := Option.some.inj hv'
      obtain ⟨-, hsize, hid⟩ := h.volume id' v hv
      exact ⟨file.disk.setBody_self _ _, hlen.trans hsize, hid⟩
    · rename_i hne
      obtain ⟨hbody, hsize, hid⟩ := h.volume id' v' hv'
      exact ⟨(file.disk.setBody_of_ne (h.file_ne hv' hv hne) _).trans hbody, hsize, hid⟩
  snapshot := fun id' sn hsn => by
    obtain ⟨hbody, hsize, hid, hvol⟩ := h.snapshot id' sn hsn
    have hne := (volume_file_ne_snapshot id id').symm
    refine ⟨(file.disk.setBody_of_ne hne (some body)).trans hbody, hsize, hid, ?_⟩
    simp only [Assoc.lookup_insert_ite]
    split
    · rfl
    · exact hvol
  saved := h.saved

theorem overwrite_eq {offset : Nat} {data body : List UInt8} (h : offset + data.length ≤ body.length) :
    overwrite offset data body = body.take offset ++ data ++ body.drop (offset + data.length) := by
  rw [overwrite, show offset - body.length = 0 by omega, List.replicate_zero, List.append_nil]

theorem write_agree (h : VaultSync cd owner mem file) (id : VolumeId) (offset : UInt64) (data : List UInt8) :
    Agree cd owner mem file (.write id offset data) := by
  rcases range_agree h id offset data.length "write" with ⟨e, e', hm, hf⟩ | ⟨v, hm, hf, hv, hle⟩
  · refine agree_of_error h ⟨e, ?_⟩ ⟨e', ?_⟩
    · simp only [MemVolumeStore.apply, MemVolumeStore.write, hm]
      rfl
    · simp only [FileVolumeStore.plan, FileVolumeStore.write, hf]
  · obtain ⟨hbody, hlen, -⟩ := h.volume id v hv
    have hmem : mem.apply (.write id offset data) =
        (.ok .done, { mem with rows := mem.rows.insert id { v with body := overwrite offset.toNat data v.body } }) := by
      simp only [MemVolumeStore.apply, MemVolumeStore.write, hm, overwrite_eq hle]
      rfl
    have hfile : file.apply cd (.write id offset data) =
        (.ok .done, ⟨file.manifest, file.disk.setBody id.file (some (overwrite offset.toNat data v.body))⟩) := by
      simp only [FileVolumeStore.apply, FileVolumeStore.plan, FileVolumeStore.write, hf, hbody, VaultDisk.calls,
        List.foldl_cons, List.foldl_nil, VaultDisk.call, Option.map_some]
    rw [Agree, hmem, hfile]
    exact ⟨rfl, h.setVolume hv (overwrite_length hle)⟩

theorem list_agree (h : VaultSync cd owner mem file) : Agree cd owner mem file .list := by
  refine agree_of_read h rfl rfl (congrArg VolumeReply.volumes ?_)
  have : Std.Total (fun a b : VolumeId => a.raw ≤ b.raw) := ⟨fun a b => String.le_total a.raw b.raw⟩
  have : IsTrans VolumeId (fun a b => a.raw ≤ b.raw) := ⟨fun _ _ _ => String.le_trans⟩
  exact (Assoc.sorted_map _ (fun a b hab hba => VolumeId.ext (String.le_antisymm hab hba)) h.volumes).symm

theorem listSnapshots_agree (h : VaultSync cd owner mem file) (volume : Option VolumeId) :
    Agree cd owner mem file (.listSnapshots volume) := by
  refine agree_of_read h rfl rfl (congrArg VolumeReply.snapshots ?_)
  have : Std.Total (fun a b : SnapshotId => a.raw ≤ b.raw) := ⟨fun a b => String.le_total a.raw b.raw⟩
  have : IsTrans SnapshotId (fun a b => a.raw ≤ b.raw) := ⟨fun _ _ _ => String.le_trans⟩
  rw [MemVolumeStore.listSnapshots, FileVolumeStore.listSnapshots,
    Assoc.sorted_map _ (fun a b hab hba => SnapshotId.ext (String.le_antisymm hab hba)) h.snapshots, List.filter_map]
  rfl

/-- A new snapshot, in memory and in its file. -/
theorem VaultSync.addSnapshot (h : VaultSync cd owner mem file) {id : VolumeId} {v : MemVolume}
    (hv : mem.rows.lookup id = some v) (name : String) (n : UInt64) {m : Manifest}
    (howner : m.nextPerOwner = file.manifest.nextPerOwner) (hnext : m.nextSnap = file.manifest.nextSnap.insert id n)
    (hvolumes : m.volumes = file.manifest.volumes)
    (hsnapshots : m.snapshots = file.manifest.snapshots.insert (id.snapshot n)
      ⟨id.snapshot n, id, name, v.meta_.sizeBytes⟩) :
    VaultSync cd owner
      { mem with nextSnap := mem.nextSnap.insert id n
                 snaps := mem.snaps.insert (id.snapshot n) ⟨⟨id.snapshot n, id, name, v.meta_.sizeBytes⟩, v.body⟩ }
      ⟨m, { file.disk.setBody (id.snapshot n).file (some v.body) with
            manifest := some (.json (cd.encode m)), tmp := none }⟩ where
  next := by
    rw [howner]
    exact h.next
  nextSnap := fun id' => by
    simp only [hnext, Assoc.lookup_insert_ite, h.nextSnap id']
  volumes := fun id' => by
    rw [hvolumes]
    exact h.volumes id'
  snapshots := fun id' => by
    simp only [hsnapshots, Assoc.lookup_insert_ite, h.snapshots id']
    split
    · rfl
    · rfl
  volume := fun id' v' hv' => by
    obtain ⟨hbody, hsize, hid⟩ := h.volume id' v' hv'
    have hne := volume_file_ne_snapshot id' (id.snapshot n)
    exact ⟨(file.disk.setBody_of_ne hne (some v.body)).trans hbody, hsize, hid⟩
  snapshot := fun id' sn hsn => by
    obtain ⟨-, hsize, -⟩ := h.volume id v hv
    simp only [Assoc.lookup_insert_ite] at hsn
    split at hsn
    · rename_i heq
      subst heq
      obtain rfl := Option.some.inj hsn
      exact ⟨file.disk.setBody_self _ _, hsize, ⟨n, rfl⟩, by rw [hv]; rfl⟩
    · rename_i hne
      obtain ⟨hbody, hsize', ⟨k, hid⟩, hvol⟩ := h.snapshot id' sn hsn
      refine ⟨(file.disk.setBody_of_ne ?_ _).trans hbody, hsize', ⟨k, hid⟩, hvol⟩
      subst hid
      intro hfile
      obtain ⟨hvolumes, rfl⟩ := snapshot_file_inj hfile
      obtain ⟨v', hv'⟩ := Option.isSome_iff_exists.1 hvol
      by_cases heq : sn.meta_.volume = id
      · exact hne (by rw [heq])
      · exact h.file_ne hv' hv heq hvolumes
  saved := .inl rfl

theorem createSnapshot_agree (h : VaultSync cd owner mem file) (id : VolumeId) (name : String) :
    Agree cd owner mem file (.createSnapshot id name) := by
  cases hname : MemVolumeStore.validateName name with
  | error e =>
    refine agree_of_error h ⟨e, ?_⟩ ⟨e, ?_⟩
    · simp only [MemVolumeStore.apply, MemVolumeStore.createSnapshot, hname]
      rfl
    · simp only [FileVolumeStore.plan, FileVolumeStore.createSnapshot, hname]
  | ok u =>
    cases hv : mem.rows.lookup id with
    | none =>
      refine agree_of_error h ⟨.invalid "snapshot: unknown volume", ?_⟩ ⟨.invalid "snapshot: unknown volume", ?_⟩
      · simp only [MemVolumeStore.apply, MemVolumeStore.createSnapshot, hname, hv]
        rfl
      · simp only [FileVolumeStore.plan, FileVolumeStore.createSnapshot, hname, h.volumes id, hv, Option.map_none]
    | some v =>
      obtain ⟨hbody, hlen, -⟩ := h.volume id v hv
      have hsize : UInt64.ofNat v.body.length = v.meta_.sizeBytes := by rw [hlen, UInt64.ofNat_toNat]
      let n := satAdd64 ((mem.nextSnap.lookup id).getD 0) 1
      let m : Manifest := { file.manifest with
        nextSnap := file.manifest.nextSnap.insert id n
        snapshots := file.manifest.snapshots.insert (id.snapshot n) ⟨id.snapshot n, id, name, v.meta_.sizeBytes⟩ }
      have hmem : mem.apply (.createSnapshot id name) = (.ok (.snapshot ⟨id.snapshot n, id, name, v.meta_.sizeBytes⟩),
          { mem with nextSnap := mem.nextSnap.insert id n
                     snaps := mem.snaps.insert (id.snapshot n) ⟨⟨id.snapshot n, id, name, v.meta_.sizeBytes⟩, v.body⟩ }) := by
        simp only [MemVolumeStore.apply, MemVolumeStore.createSnapshot, hname, hv, hsize]
        rfl
      have hfile : file.apply cd (.createSnapshot id name) =
          (.ok (.snapshot ⟨id.snapshot n, id, name, v.meta_.sizeBytes⟩),
            ⟨m, { file.disk.setBody (id.snapshot n).file (some v.body) with
                  manifest := some (.json (cd.encode m)), tmp := none }⟩) := by
        simp only [FileVolumeStore.apply, FileVolumeStore.plan, FileVolumeStore.createSnapshot, hname, h.volumes id, hv,
          Option.map_some, hbody, hlen, ne_eq, not_true_eq_false, if_false, h.nextSnap id, VaultDisk.calls_append,
          VaultDisk.calls_writeBody, VaultDisk.calls_saveManifest]
        rfl
      rw [Agree, hmem, hfile]
      exact ⟨rfl, h.addSnapshot hv name n rfl rfl rfl rfl⟩

theorem deleteSnapshot_agree (h : VaultSync cd owner mem file) (id : SnapshotId) :
    Agree cd owner mem file (.deleteSnapshot id) := by
  have hfile : file.apply cd (.deleteSnapshot id) =
      (.ok .done, ⟨file.withoutSnapshot id,
        { file.disk with
          bodies := fun f => if f ∈ file.droppedSnapshot id then none else file.disk.bodies f
          manifest := some (.json (cd.encode (file.withoutSnapshot id))), tmp := none }⟩) := by
    simp only [FileVolumeStore.apply, FileVolumeStore.plan, file.deleteSnapshot_eq, VaultDisk.calls_append,
      VaultDisk.calls_remove, VaultDisk.calls_saveManifest]
  have hdropped : ∀ f ∈ file.droppedSnapshot id, f = id.file ∧ (mem.snaps.lookup id).isSome := by
    intro f hf
    rw [FileVolumeStore.mem_droppedSnapshot, h.snapshots id, Option.isSome_map] at hf
    exact hf
  rw [Agree, hfile]
  refine ⟨rfl, ?_⟩
  simp only [MemVolumeStore.apply, MemVolumeStore.deleteSnapshot]
  constructor
  · exact h.next
  · exact h.nextSnap
  · exact h.volumes
  · intro k
    simp only [FileVolumeStore.withoutSnapshot, Assoc.lookup_erase_ite, h.snapshots k]
    split
    · rfl
    · rfl
  · intro k v hv
    obtain ⟨hbody, hlen, hid⟩ := h.volume k v hv
    refine ⟨(if_neg fun hf => ?_).trans hbody, hlen, hid⟩
    exact volume_file_ne_snapshot k id (hdropped _ hf).1
  · intro k sn hsn
    rw [Assoc.lookup_erase_ite] at hsn
    split at hsn
    · cases hsn
    · rename_i hne
      obtain ⟨hbody, hlen, hid, hvol⟩ := h.snapshot k sn hsn
      refine ⟨(if_neg fun hf => ?_).trans hbody, hlen, hid, hvol⟩
      obtain ⟨hfile, hsome⟩ := hdropped _ hf
      obtain ⟨sn', hsn'⟩ := Option.isSome_iff_exists.1 hsome
      exact h.snapshot_file_ne hsn hsn' hne hfile
  · exact .inl rfl

/-- What a restore does on disk, where the snapshot and its volume are there. -/
theorem restore_file (h : VaultSync cd owner mem file) {id : SnapshotId} {sn : MemSnapshot}
    (hsn : mem.snaps.lookup id = some sn) {v : MemVolume} (hv : mem.rows.lookup sn.meta_.volume = some v) :
    file.plan cd (.restoreSnapshot id) =
      if v.meta_.sizeBytes ≠ sn.meta_.sizeBytes then file.answer (.error (.invalid "restore: volume size changed"))
      else ⟨.ok .done, file.manifest, writeBody sn.meta_.volume.file sn.body⟩ := by
  obtain ⟨hbody, -⟩ := h.snapshot id sn hsn
  simp only [FileVolumeStore.plan, FileVolumeStore.restoreSnapshot, h.snapshots id, hsn, Option.map_some, h.volumes, hv,
    hbody]

/-- What a restore does in memory, where the snapshot and its volume are there. -/
theorem restore_mem (h : VaultSync cd owner mem file) {id : SnapshotId} {sn : MemSnapshot}
    (hsn : mem.snaps.lookup id = some sn) {v : MemVolume} (hv : mem.rows.lookup sn.meta_.volume = some v) :
    ('@' ∈ owner.toList → mem.apply (.restoreSnapshot id) = (.error (.invalid "restore: malformed snapshot id"), mem)) ∧
    ('@' ∉ owner.toList → mem.apply (.restoreSnapshot id) =
      if v.body.length ≠ sn.body.length then (.error (.invalid "restore: volume size changed"), mem)
      else (.ok .done, { mem with rows := mem.rows.insert sn.meta_.volume { v with body := sn.body } })) := by
  obtain ⟨-, -, ⟨n, hid⟩, -⟩ := h.snapshot id sn hsn
  obtain ⟨-, -, k, hvid⟩ := h.volume _ v hv
  constructor
  · intro hat
    have hsplit : id.split = none := by rw [hid, hvid, SnapshotId.split_at hat]
    simp only [MemVolumeStore.apply, MemVolumeStore.restoreSnapshot, hsn, hsplit]
    rfl
  · intro hat
    have hno : '@' ∉ sn.meta_.volume.raw.toList := by
      rw [hvid, MemVolumeStore.at_mem_volumeId]
      exact hat
    have hsplit : id.split = some (sn.meta_.volume, n.toNat) := by
      rw [hid]
      exact SnapshotId.split_snapshot hno n
    simp only [MemVolumeStore.apply, MemVolumeStore.restoreSnapshot, hsn, hsplit, hv]
    split
    · rfl
    · rfl

/-- **A restore comes out the same in both stores exactly where the id of a snapshot that is there can be split.** -/
theorem restore_agree_iff (h : VaultSync cd owner mem file) (id : SnapshotId) :
    (SameReply ((mem.apply (.restoreSnapshot id)).1, (file.apply cd (.restoreSnapshot id)).1) ↔
      ('@' ∈ owner.toList → ¬ file.manifest.Restorable id)) ∧
    (('@' ∈ owner.toList → ¬ file.manifest.Restorable id) →
      VaultSync cd owner (mem.apply (.restoreSnapshot id)).2 (file.apply cd (.restoreSnapshot id)).2) := by
  cases hsn : mem.snaps.lookup id with
  | none =>
    have hagree : Agree cd owner mem file (.restoreSnapshot id) := by
      refine agree_of_error h ⟨.invalid "restore: unknown snapshot", ?_⟩ ⟨.invalid "restore: unknown snapshot", ?_⟩
      · simp only [MemVolumeStore.apply, MemVolumeStore.restoreSnapshot, hsn]
        rfl
      · simp only [FileVolumeStore.plan, FileVolumeStore.restoreSnapshot, h.snapshots id, hsn, Option.map_none]
    refine ⟨iff_of_true hagree.1 ?_, fun _ => hagree.2⟩
    rintro - ⟨snap, vol, hsnap, -⟩
    rw [h.snapshots id, hsn] at hsnap
    cases hsnap
  | some sn =>
    obtain ⟨-, hslen, -, hvol⟩ := h.snapshot id sn hsn
    obtain ⟨v, hv⟩ := Option.isSome_iff_exists.1 hvol
    obtain ⟨-, hvlen, -⟩ := h.volume _ v hv
    have hplan := restore_file h hsn hv
    obtain ⟨hmalformed, hplain⟩ := restore_mem h hsn hv
    have hsnap : file.manifest.snapshots.lookup id = some sn.meta_ := by rw [h.snapshots id, hsn, Option.map_some]
    have hvolume : file.manifest.volumes.lookup sn.meta_.volume = some v.meta_ := by
      rw [h.volumes, hv, Option.map_some]
    by_cases hsize : v.meta_.sizeBytes = sn.meta_.sizeBytes
    · have hrestorable : file.manifest.Restorable id := ⟨_, _, hsnap, hvolume, hsize⟩
      have hlen : sn.body.length = v.body.length := by rw [hslen, hvlen, hsize]
      have hfile : file.apply cd (.restoreSnapshot id) =
          (.ok .done, ⟨file.manifest, file.disk.setBody sn.meta_.volume.file (some sn.body)⟩) := by
        simp only [FileVolumeStore.apply, hplan, if_neg (not_not.2 hsize), VaultDisk.calls_writeBody]
      by_cases hat : '@' ∈ owner.toList
      · refine ⟨iff_of_false ?_ (fun hno => hno hat hrestorable), fun hno => absurd hrestorable (hno hat)⟩
        rw [hmalformed hat, hfile]
        exact not_false
      · rw [hplain hat, if_neg (not_not.2 hlen.symm), hfile]
        exact ⟨iff_of_true rfl (fun h' => absurd h' hat), fun _ => h.setVolume hv hlen⟩
    · have hne : v.body.length ≠ sn.body.length := by
        rw [hslen, hvlen]
        exact fun h' => hsize (UInt64.toNat_inj.1 h')
      have hagree : Agree cd owner mem file (.restoreSnapshot id) := by
        refine agree_of_error h ?_ ⟨_, hplan.trans (if_pos hsize)⟩
        by_cases hat : '@' ∈ owner.toList
        · exact ⟨_, hmalformed hat⟩
        · exact ⟨_, (hplain hat).trans (if_pos hne)⟩
      refine ⟨iff_of_true hagree.1 ?_, fun _ => hagree.2⟩
      rintro - ⟨snap, vol, hsnap', hvol', hsize'⟩
      obtain rfl := Option.some.inj (hsnap.symm.trans hsnap')
      obtain rfl := Option.some.inj (hvolume.symm.trans hvol')
      exact hsize hsize'

/-- One step of the two: the same outcome if and only if the condition holds, and then they stay in step. -/
theorem both_agree {s : MemVolumeStore × FileVolumeStore β} (h : VaultSync cd owner s.1 s.2) (c : VaultCall owner) :
    (SameReply (bothVaults cd s c).1 ↔ NoRestore s c) ∧
      (NoRestore s c → VaultSync cd owner (bothVaults cd s c).2.1 (bothVaults cd s c).2.2) := by
  cases c with
  | reopen =>
    simp only [bothVaults, FileVolumeStore.openOrCreate_saved h.saved]
    exact ⟨iff_of_true rfl trivial, fun _ => h⟩
  | op op owned =>
    have hagree : Agree cd owner s.1 s.2 op → NoRestore s (.op op owned) →
        (SameReply (bothVaults cd s (.op op owned)).1 ↔ NoRestore s (.op op owned)) ∧
          (NoRestore s (.op op owned) → VaultSync cd owner (bothVaults cd s (.op op owned)).2.1
            (bothVaults cd s (.op op owned)).2.2) :=
      fun hagree hc => ⟨iff_of_true hagree.1 hc, fun _ => hagree.2⟩
    cases op with
    | create o name size =>
      obtain rfl := owned o name size rfl
      exact hagree (create_agree h name size) trivial
    | delete id => exact hagree (delete_agree h id) trivial
    | list => exact hagree (list_agree h) trivial
    | get id => exact hagree (agree_of_read h rfl rfl (congrArg VolumeReply.found (h.volumes id).symm)) trivial
    | read id offset len => exact hagree (read_agree h id offset len) trivial
    | write id offset data => exact hagree (write_agree h id offset data) trivial
    | createSnapshot id name => exact hagree (createSnapshot_agree h id name) trivial
    | listSnapshots volume => exact hagree (listSnapshots_agree h volume) trivial
    | deleteSnapshot id => exact hagree (deleteSnapshot_agree h id) trivial
    | restoreSnapshot id => exact restore_agree_iff h id

theorem both_saved {s : MemVolumeStore × FileVolumeStore β} (h : s.2.Saved cd) (c : VaultCall owner) :
    (bothVaults cd s c).2.2.Saved cd := by
  cases c with
  | op op owned => exact FileVolumeStore.apply_saved h op
  | reopen =>
    simp only [bothVaults, FileVolumeStore.openOrCreate_saved h]
    exact h

end Sync

/-- **The two stores answer alike at every call of a run, and the one on disk is at any point opened again as it was, if
and only if no restorable snapshot is restored for an owner with an `@` in its name.** -/
theorem vaults_agree_iff {β : Type} (cd : ManifestCodec β) (owner : String) (calls : List (VaultCall owner)) :
    ((∀ b ∈ answers (bothVaults cd) (.new, ⟨default, .empty⟩) calls, SameReply b) ∧
      ∀ s ∈ states (bothVaults cd) (.new, ⟨default, .empty⟩) calls,
        FileVolumeStore.openOrCreate cd s.2.disk = .ok s.2) ↔
      Along (bothVaults cd) NoRestore (.new, ⟨default, .empty⟩) calls := by
  have hagree : (∀ b ∈ answers (bothVaults cd) (.new, ⟨default, .empty⟩) calls, SameReply b) ↔ _ :=
    answers_iff_along (I := fun s => VaultSync cd owner s.1 s.2) (fun _ c h => both_agree h c)
      (vaultSync_empty cd owner) calls
  have hsaved : ∀ s ∈ states (bothVaults cd) (.new, ⟨default, .empty⟩) calls, s.2.Saved cd :=
    inv_states (I := fun s : MemVolumeStore × FileVolumeStore β => s.2.Saved cd) (fun _ c h => both_saved h c)
      (.inr ⟨rfl, rfl⟩) calls
  exact ⟨fun h => hagree.1 h.1,
    fun h => ⟨hagree.2 h, fun s hs => FileVolumeStore.openOrCreate_saved (hsaved s hs)⟩⟩

/-- A snapshot of a volume of `node@site` is taken and restored. -/
def restoreAtSite : List (VaultCall "node@site") :=
  [.op (.create "node@site" "data" 1) (by simp +contextual), .op (.createSnapshot ⟨"node@site/v1"⟩ "s") (by simp),
    .op (.restoreSnapshot ⟨"node@site/v1@s1"⟩) (by simp)]

/-- **The store in memory refuses a restore that the one on disk carries out.** -/
theorem restore_at_differs :
    (answers (bothVaults ManifestCodec.plain) (.new, ⟨default, .empty⟩) restoreAtSite).getLast? =
        some (.error (.invalid "restore: malformed snapshot id"), .ok .done) ∧
      ¬ ∀ b ∈ answers (bothVaults ManifestCodec.plain) (.new, ⟨default, .empty⟩) restoreAtSite, SameReply b := by
  have hlast : (answers (bothVaults ManifestCodec.plain) (.new, ⟨default, .empty⟩) restoreAtSite).getLast? =
      some (.error (.invalid "restore: malformed snapshot id"), .ok .done) := by decide +kernel
  exact ⟨hlast, fun h => h _ (List.mem_of_getLast? hlast)⟩

end Celium
