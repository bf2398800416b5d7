import Celium.Lib.Runs
import Celium.FileVolume
/-!
# VaultIsolation — one volume's files and another's

A file name is an id with four characters made alike, so that two owners whose names differ there can come to one file.
Whether they do is decided when a volume is created: snapshots of volumes with files of their own have files of their
own, and as long as no create takes the file of a volume that is there, no call on one volume reaches the bytes of
another or of its snapshots.
-/
namespace Celium

open Fixed Runs

/-- Every volume and every snapshot that is there has a file of its own. -/
structure Manifest.Isolated (m : Manifest) : Prop where
  volumes : ∀ id id' v v', m.volumes.lookup id = some v → m.volumes.lookup id' = some v' → id.file = id'.file → id = id'
  snapshots : ∀ k k' sn sn', m.snapshots.lookup k = some sn → m.snapshots.lookup k' = some sn' → k.file = k'.file → k = k'

/-- The volumes alone. -/
def Manifest.Distinct (m : Manifest) : Prop :=
  ∀ id id' v v', m.volumes.lookup id = some v → m.volumes.lookup id' = some v' → id.file = id'.file → id = id'

/-- A volume's id is made from its owner's name, and a snapshot's from the id of its volume, which is there. -/
structure Manifest.Keyed (m : Manifest) : Prop where
  volumes : ∀ id v, m.volumes.lookup id = some v → ∃ n, id = MemVolumeStore.volumeId v.owner n
  snapshots : ∀ k sn, m.snapshots.lookup k = some sn →
    (∃ n, k = sn.volume.snapshot n) ∧ (m.volumes.lookup sn.volume).isSome

/-- **Volumes with files of their own have snapshots with files of their own.** -/
theorem Manifest.Distinct.isolated {m : Manifest} (h : m.Distinct) (hk : m.Keyed) : m.Isolated where
  volumes := h
  snapshots := by
    intro k k' sn sn' hsn hsn' hfile
    obtain ⟨⟨n, rfl⟩, hvol⟩ := hk.snapshots k sn hsn
    obtain ⟨⟨n', rfl⟩, hvol'⟩ := hk.snapshots k' sn' hsn'
    obtain ⟨v, hv⟩ := Option.isSome_iff_exists.1 hvol
    obtain ⟨v', hv'⟩ := Option.isSome_iff_exists.1 hvol'
    obtain ⟨hvolumes, rfl⟩ := snapshot_file_inj hfile
    rw [h _ _ v v' hv hv' hvolumes]

namespace FileVolumeStore

variable {β : Type} (cd : ManifestCodec β) (s : FileVolumeStore β)

/-- The volume a call is about. -/
def target : VolumeOp → Option VolumeId
  | .create owner _ _ => some (s.nextId owner)
  | .delete id | .write id _ _ | .createSnapshot id _ => some id
  | .deleteSnapshot id | .restoreSnapshot id => (s.manifest.snapshots.lookup id).map (·.volume)
  | _ => none

/-- A call leaves every other volume readable as it was, and every snapshot of it. -/
def Isolates (op : VolumeOp) : Prop :=
  ∀ id m, s.manifest.volumes.lookup id = some m → s.target op ≠ some id →
    (s.apply cd op).2.manifest.volumes.lookup id = some m ∧
    (∀ offset len, (s.apply cd op).2.read id offset len = s.read id offset len) ∧
    ∀ k sn, s.manifest.snapshots.lookup k = some sn → sn.volume = id →
      (s.apply cd op).2.manifest.snapshots.lookup k = some sn ∧ (s.apply cd op).2.disk.bodies k.file = s.disk.bodies k.file

/-- No volume is created while another owner, whose name looks alike in a file name, has one with the same counter. -/
def NoClash : VolumeOp → Prop
  | .create owner name size =>
    CreateOk name size → ∀ id v, s.manifest.volumes.lookup id = some v → v.owner ≠ owner → safeId v.owner = safeId owner →
      id ≠ MemVolumeStore.volumeId v.owner (satAdd64 ((s.manifest.nextPerOwner.lookup owner).getD 0) 1)
  | _ => True

variable {s}

/-- A new volume then takes no file that is there. -/
theorem NoClash.file_free {owner name : String} {size : UInt64} (h : s.NoClash (.create owner name size))
    (hk : s.manifest.Keyed) (hok : CreateOk name size) {id : VolumeId} {v : VolumeMeta}
    (hv : s.manifest.volumes.lookup id = some v) (hfile : id.file = (s.nextId owner).file) : id = s.nextId owner := by
  obtain ⟨n, rfl⟩ := hk.volumes id v hv
  obtain ⟨howner, rfl⟩ := volumeId_file_inj.1 hfile
  by_contra hne
  exact h hok _ v hv (fun heq => hne (by rw [heq]; rfl)) howner rfl

/-! ## Which files a call names -/

theorem file_remove {fs : List BodyFile} {c : FsCall β} (hc : c ∈ fs.map .remove) {f : BodyFile} (hf : c.file = some f) :
    f ∈ fs := by
  obtain ⟨g, hg, rfl⟩ := List.mem_map.1 hc
  exact Option.some.inj hf ▸ hg

/-- A call that only names files of other volumes and of their snapshots, and leaves the records of these. -/
theorem isolates_of {op : VolumeOp}
    (hvolume : ∀ id m, s.manifest.volumes.lookup id = some m → s.target op ≠ some id →
      (s.plan cd op).manifest.volumes.lookup id = some m ∧ ∀ c ∈ (s.plan cd op).calls, c.file ≠ some id.file)
    (hsnapshot : ∀ k sn, s.manifest.snapshots.lookup k = some sn → s.target op ≠ some sn.volume →
      (s.plan cd op).manifest.snapshots.lookup k = some sn ∧ ∀ c ∈ (s.plan cd op).calls, c.file ≠ some k.file) :
    s.Isolates cd op := by
  intro id m hm htarget
  obtain ⟨hm', hfiles⟩ := hvolume id m hm htarget
  refine ⟨hm', fun offset len => ?_, ?_⟩
  · have hbody : (s.apply cd op).2.disk.bodies id.file = s.disk.bodies id.file := VaultDisk.calls_bodies hfiles _
    have hrange : (s.apply cd op).2.range id offset len "read" = s.range id offset len "read" := by
      rw [range, range, hm, show (s.apply cd op).2.manifest.volumes.lookup id = some m from hm']
    rw [read, read, hrange, hbody]
  · rintro k sn hsn rfl
    obtain ⟨hsn', hfiles⟩ := hsnapshot k sn hsn htarget
    exact ⟨hsn', VaultDisk.calls_bodies hfiles _⟩

theorem isolates_answer {op : VolumeOp} {reply : CelResult VolumeReply} (h : s.plan cd op = s.answer reply) :
    s.Isolates cd op := by
  refine isolates_of cd ?_ ?_
  · intro id m hm _
    rw [h]
    exact ⟨hm, fun c hc => by cases hc⟩
  · intro k sn hsn _
    rw [h]
    exact ⟨hsn, fun c hc => by cases hc⟩

/-- A call that names one file, in its body calls. -/
theorem file_append_saveManifest {cs : List (FsCall β)} {m : Manifest} {f : BodyFile}
    (h : ∀ c ∈ cs, c.file ≠ some f) : ∀ c ∈ cs ++ saveManifest cd m, c.file ≠ some f := by
  intro c hc
  rcases List.mem_append.1 hc with hc | hc
  · exact h c hc
  · rw [file_saveManifest cd m c hc]
    nofun

theorem file_ne_of_writeBody {f g : BodyFile} (h : g ≠ f) (bytes : List UInt8) :
    ∀ c ∈ (writeBody f bytes : List (FsCall β)), c.file ≠ some g :=
  fun _ hc hg => h (file_writeBody hc hg)

/-! ## One call -/

section Step

variable (h : s.manifest.Distinct) (hk : s.manifest.Keyed)
include h hk

/-- A snapshot of another volume is not in the way of a new one. -/
theorem snapshot_apart {id : VolumeId} {vol : VolumeMeta} (hvol : s.manifest.volumes.lookup id = some vol) {k : SnapshotId}
    {sn : SnapshotMeta} (hsn : s.manifest.snapshots.lookup k = some sn) (hne : sn.volume ≠ id) (n : UInt64) :
    k ≠ id.snapshot n ∧ k.file ≠ (id.snapshot n).file := by
  obtain ⟨⟨n', rfl⟩, hsome⟩ := hk.snapshots k sn hsn
  obtain ⟨m, hm⟩ := Option.isSome_iff_exists.1 hsome
  constructor
  · intro heq
    exact hne (VolumeId.snapshot_inj heq).1
  · intro hfile
    exact hne (h _ _ m vol hm hvol (snapshot_file_inj hfile).1)

omit hk in
theorem volume_not_dropped {id id' : VolumeId} {v : VolumeMeta} (hv : s.manifest.volumes.lookup id' = some v)
    (hne : id' ≠ id) : id'.file ∉ s.dropped id := by
  intro hmem
  rcases mem_dropped.1 hmem with ⟨hfile, hsome⟩ | ⟨k, -, hfile⟩
  · obtain ⟨v', hv'⟩ := Option.isSome_iff_exists.1 hsome
    exact hne (h _ _ v v' hv hv' hfile)
  · exact volume_file_ne_snapshot id' k hfile.symm

theorem snapshot_not_dropped {id : VolumeId} {k : SnapshotId} {sn : SnapshotMeta}
    (hsn : s.manifest.snapshots.lookup k = some sn) (hne : sn.volume ≠ id) :
    k ∉ s.snapshotsOf id ∧ k.file ∉ s.dropped id := by
  have hkeep : k ∉ s.snapshotsOf id := by
    rw [s.mem_snapshotsOf]
    rintro ⟨sn', hsn', hvol⟩
    exact hne (Option.some.inj (hsn.symm.trans hsn') ▸ hvol)
  refine ⟨hkeep, fun hmem => ?_⟩
  rcases mem_dropped.1 hmem with ⟨hfile, -⟩ | ⟨k', hk', hfile⟩
  · exact volume_file_ne_snapshot id k hfile.symm
  · obtain ⟨sn', hsn', -⟩ := s.mem_snapshotsOf.1 hk'
    obtain rfl := (h.isolated hk).snapshots k' k sn' sn hsn' hsn hfile
    exact hkeep hk'

theorem delete_isolates (id : VolumeId) : s.Isolates cd (.delete id) := by
  refine isolates_of cd ?_ ?_
  · intro id' m hm htarget
    have hne : id' ≠ id := fun heq => htarget (congrArg some heq.symm)
    simp only [plan, s.delete_eq]
    refine ⟨?_, file_append_saveManifest cd fun c hc hf => volume_not_dropped h hm hne (file_remove hc hf)⟩
    simp only [withoutVolume, Assoc.lookup_erase_ite, if_neg hne, hm]
  · intro k sn hsn htarget
    have hne : sn.volume ≠ id := fun heq => htarget (congrArg some heq.symm)
    obtain ⟨hkeep, hfile⟩ := snapshot_not_dropped h hk hsn hne
    simp only [plan, s.delete_eq]
    refine ⟨?_, file_append_saveManifest cd fun c hc hf => hfile (file_remove hc hf)⟩
    simp only [withoutVolume, Assoc.lookup_foldl_erase, if_neg hkeep, hsn]

theorem createSnapshot_isolates (id : VolumeId) (name : String) : s.Isolates cd (.createSnapshot id name) := by
  rcases s.createSnapshot_cases cd id name with ⟨⟨e, he⟩, -⟩ | ⟨vol, body, -, hvol, -, -, hplan⟩
  · exact isolates_answer cd he
  · refine isolates_of cd ?_ ?_
    · intro id' m hm _
      simp only [plan, hplan]
      exact ⟨hm, file_append_saveManifest cd (file_ne_of_writeBody (volume_file_ne_snapshot _ _) _)⟩
    · intro k sn hsn htarget
      have hne : sn.volume ≠ id := fun heq => htarget (congrArg some heq.symm)
      obtain ⟨hk', hfile⟩ := snapshot_apart h hk hvol hsn hne (satAdd64 ((s.manifest.nextSnap.lookup id).getD 0) 1)
      simp only [plan, hplan]
      refine ⟨?_, file_append_saveManifest cd (file_ne_of_writeBody hfile _)⟩
      simp only [withSnapshot, Assoc.lookup_insert_ite, nextSnapshotId, if_neg hk', hsn]

theorem deleteSnapshot_isolates (id : SnapshotId) : s.Isolates cd (.deleteSnapshot id) := by
  refine isolates_of cd ?_ ?_
  · intro id' m hm _
    simp only [plan, s.deleteSnapshot_eq]
    refine ⟨hm, file_append_saveManifest cd fun c hc hf => ?_⟩
    exact volume_file_ne_snapshot id' id (mem_droppedSnapshot.1 (file_remove hc hf)).1
  · intro k sn hsn htarget
    have hne : k ≠ id := by
      rintro rfl
      exact htarget (by rw [target, hsn]; rfl)
    simp only [plan, s.deleteSnapshot_eq]
    refine ⟨?_, file_append_saveManifest cd fun c hc hf => ?_⟩
    · simp only [withoutSnapshot, Assoc.lookup_erase_ite, if_neg hne, hsn]
    · obtain ⟨hfile, hsome⟩ := mem_droppedSnapshot.1 (file_remove hc hf)
      obtain ⟨sn', hsn'⟩ := Option.isSome_iff_exists.1 hsome
      exact hne ((h.isolated hk).snapshots k id sn sn' hsn hsn' hfile)

omit hk in
theorem write_isolates (id : VolumeId) (offset : UInt64) (data : List UInt8) :
    s.Isolates cd (.write id offset data) := by
  rcases s.write_cases id offset data with ⟨e, he⟩ | ⟨vol, body, hvol, -, -, hplan⟩
  · exact isolates_answer cd he
  · have hfiles : ∀ f ≠ id.file,
        ∀ c ∈ [FsCall.write id.file offset.toNat data, FsCall.sync (β := β) id.file], c.file ≠ some f := by
      intro f hf
      simp [FsCall.file, hf.symm]
    refine isolates_of cd ?_ ?_
    · intro id' m hm htarget
      have hne : id' ≠ id := fun heq => htarget (congrArg some heq.symm)
      simp only [plan, hplan]
      exact ⟨hm, hfiles _ fun hfile => hne (h _ _ m vol hm hvol hfile)⟩
    · intro k sn hsn _
      simp only [plan, hplan]
      exact ⟨hsn, hfiles _ (volume_file_ne_snapshot id k).symm⟩

omit hk in
theorem restoreSnapshot_isolates (id : SnapshotId) : s.Isolates cd (.restoreSnapshot id) := by
  rcases s.restoreSnapshot_cases id with ⟨e, he⟩ | ⟨snap, vol, bytes, hsnap, hvol, -, hplan⟩
  · exact isolates_answer cd he
  · refine isolates_of cd ?_ ?_
    · intro id' m hm htarget
      have hne : id' ≠ snap.volume := by
        rintro rfl
        exact htarget (by rw [target, hsnap]; rfl)
      simp only [plan, hplan]
      exact ⟨hm, file_ne_of_writeBody (fun hfile => hne (h _ _ m vol hm hvol hfile)) _⟩
    · intro k sn hsn _
      simp only [plan, hplan]
      exact ⟨hsn, file_ne_of_writeBody (volume_file_ne_snapshot _ k).symm _⟩

omit h in
theorem create_isolates {owner name : String} {size : UInt64} (hclash : s.NoClash (.create owner name size)) :
    s.Isolates cd (.create owner name size) := by
  by_cases hok : CreateOk name size
  · refine isolates_of cd ?_ ?_
    · intro id m hm htarget
      have hne : id ≠ s.nextId owner := fun heq => htarget (congrArg some heq.symm)
      simp only [plan, s.create_valid cd owner hok]
      refine ⟨?_, file_append_saveManifest cd (file_ne_of_writeBody (fun hfile => ?_) _)⟩
      · simp only [withVolume, Assoc.lookup_insert_ite, if_neg hne, hm]
      · exact hne (hclash.file_free hk hok hm hfile)
    · intro k sn hsn _
      simp only [plan, s.create_valid cd owner hok]
      exact ⟨hsn, file_append_saveManifest cd (file_ne_of_writeBody (volume_file_ne_snapshot _ k).symm _)⟩
  · obtain ⟨e, he⟩ := s.create_invalid cd owner hok
    exact isolates_answer cd he

/-- **Where every volume has a file of its own, a call keeps to its own.** -/
theorem apply_isolates {op : VolumeOp} (hclash : s.NoClash op) : s.Isolates cd op := by
  cases op with
  | create owner name size => exact create_isolates cd hk hclash
  | delete id => exact delete_isolates cd h hk id
  | list | get id | read id offset len | listSnapshots volume => exact isolates_answer cd rfl
  | write id offset data => exact write_isolates cd h id offset data
  | createSnapshot id name => exact createSnapshot_isolates cd h hk id name
  | deleteSnapshot id => exact deleteSnapshot_isolates cd h hk id
  | restoreSnapshot id => exact restoreSnapshot_isolates cd h id

end Step

/-! ## Whole runs -/

/-- Fewer volumes still have files of their own. -/
theorem distinct_of_sub (h : s.manifest.Distinct) {m : Manifest}
    (hsub : ∀ id v, m.volumes.lookup id = some v → s.manifest.volumes.lookup id = some v) : m.Distinct :=
  fun id id' v v' hv hv' => h id id' v v' (hsub id v hv) (hsub id' v' hv')

theorem withVolume_distinct (h : s.manifest.Distinct) (hk : s.manifest.Keyed) {owner name : String} {size : UInt64}
    (hok : CreateOk name size) :
    (s.withVolume owner name size).Distinct ↔ s.NoClash (.create owner name size) := by
  have hlookup : ∀ id, (s.withVolume owner name size).volumes.lookup id =
      if id = s.nextId owner then some ⟨s.nextId owner, owner, name, size⟩ else s.manifest.volumes.lookup id := by
    intro id
    rw [withVolume, Assoc.lookup_insert_ite]
  constructor
  · rintro h' _ id v hv howner halike rfl
    have hne : ∀ n, MemVolumeStore.volumeId v.owner n ≠ s.nextId owner := fun n heq =>
      howner (MemVolumeStore.volumeId_inj heq).1
    exact hne _ (h' _ _ _ _ (by rw [hlookup, if_neg (hne _), hv]) (by rw [hlookup, if_pos rfl])
      (volumeId_file_inj.2 ⟨halike, rfl⟩))
  · intro hclash id id' m m' hm hm' hfile
    rw [hlookup] at hm hm'
    split at hm
    · rename_i heq
      split at hm'
      · rename_i heq'
        rw [heq, heq']
      · rw [heq, hclash.file_free hk hok hm' (by rw [← hfile, heq])]
    · split at hm'
      · rename_i heq'
        rw [heq', hclash.file_free hk hok hm (by rw [hfile, heq'])]
      · exact h id id' m m' hm hm' hfile

/-- **A create is the one call that can make two volumes share a file**, and it does for a lookalike owner. -/
theorem plan_distinct (h : s.manifest.Distinct) (hk : s.manifest.Keyed) (op : VolumeOp) :
    (s.plan cd op).manifest.Distinct ↔ s.NoClash op := by
  rcases s.plan_manifest cd op with ⟨hsame, hnone⟩ | ⟨owner, name, size, rfl, hok, hnew⟩ | ⟨id, rfl, hnew⟩ |
    ⟨id, name, vol, rfl, -, hnew⟩ | ⟨id, rfl, hnew⟩
  · rw [hsame]
    refine iff_of_true h ?_
    cases op with
    | create owner name size => exact fun hok => absurd hok (hnone owner name size rfl)
    | delete id | list | get id | read id offset len | write id offset data | createSnapshot id name
    | listSnapshots volume | deleteSnapshot id | restoreSnapshot id => trivial
  · rw [hnew]
    exact withVolume_distinct h hk hok
  · rw [hnew]
    refine iff_of_true (distinct_of_sub h fun id' m hm => ?_) trivial
    rw [withoutVolume, Assoc.lookup_erase_ite] at hm
    split at hm
    · cases hm
    · exact hm
  · rw [hnew]
    exact iff_of_true h trivial
  · rw [hnew]
    exact iff_of_true h trivial

theorem plan_keyed (hk : s.manifest.Keyed) (op : VolumeOp) : (s.plan cd op).manifest.Keyed := by
  rcases s.plan_manifest cd op with ⟨hsame, -⟩ | ⟨owner, name, size, rfl, -, hnew⟩ | ⟨id, rfl, hnew⟩ |
    ⟨id, name, vol, rfl, hvol, hnew⟩ | ⟨id, rfl, hnew⟩
  · rw [hsame]
    exact hk
  · rw [hnew]
    constructor
    · intro id v hv
      rw [withVolume, Assoc.lookup_insert_ite] at hv
      split at hv
      · rename_i heq
        obtain rfl := Option.some.inj hv
        exact ⟨_, heq⟩
      · exact hk.volumes id v hv
    · intro k sn hsn
      obtain ⟨hid, hsome⟩ := hk.snapshots k sn hsn
      refine ⟨hid, ?_⟩
      rw [withVolume, Assoc.lookup_insert_ite]
      split
      · rfl
      · exact hsome
  · rw [hnew]
    constructor
    · intro id' v hv
      rw [withoutVolume, Assoc.lookup_erase_ite] at hv
      split at hv
      · cases hv
      · exact hk.volumes id' v hv
    · intro k sn hsn
      rw [withoutVolume, Assoc.lookup_foldl_erase] at hsn
      split at hsn
      · cases hsn
      · rename_i hkeep
        obtain ⟨hid, hsome⟩ := hk.snapshots k sn hsn
        have hne : sn.volume ≠ id := fun hvol => hkeep (s.mem_snapshotsOf.2 ⟨sn, hsn, hvol⟩)
        refine ⟨hid, ?_⟩
        rw [withoutVolume, Assoc.lookup_erase_ite, if_neg hne]
        exact hsome
  · rw [hnew]
    refine ⟨hk.volumes, fun k sn hsn => ?_⟩
    rw [withSnapshot, Assoc.lookup_insert_ite] at hsn
    split at hsn
    · rename_i heq
      obtain rfl := Option.some.inj hsn
      exact ⟨⟨_, heq⟩, by rw [withSnapshot, hvol]; rfl⟩
    · exact hk.snapshots k sn hsn
  · rw [hnew]
    refine ⟨hk.volumes, fun k sn hsn => ?_⟩
    rw [withoutSnapshot, Assoc.lookup_erase_ite] at hsn
    split at hsn
    · cases hsn
    · exact hk.snapshots k sn hsn

/-- A vault in an empty directory. -/
def fresh : FileVolumeStore β := ⟨default, .empty⟩

theorem fresh_keyed : (fresh : FileVolumeStore β).manifest.Keyed := ⟨fun _ _ h => (by cases h), fun _ _ h => (by cases h)⟩

theorem fresh_distinct : (fresh : FileVolumeStore β).manifest.Distinct := fun _ _ _ _ h => by cases h

end FileVolumeStore

open FileVolumeStore in
/-- **Volumes and snapshots have files of their own in every state of a run, and no call reaches what another volume
reads or has for a restore, exactly if no create meets a volume of a lookalike owner with the same counter.** -/
theorem vault_isolation_iff {β : Type} (cd : ManifestCodec β) (ops : List VolumeOp) :
    ((∀ s ∈ states (fun s op => s.apply cd op) fresh ops, s.manifest.Isolated) ∧
      Along (fun s op => s.apply cd op) (fun s op => s.Isolates cd op) fresh ops) ↔
    Along (fun s op => s.apply cd op) (fun s op => s.NoClash op) fresh ops := by
  let K : FileVolumeStore β → Prop := fun s => s.manifest.Keyed
  let P : FileVolumeStore β → Prop := fun s => s.manifest.Distinct
  have hkeyed : ∀ s ∈ states (fun s op => s.apply cd op) fresh ops, K s :=
    inv_states (I := K) (fun s op hk => plan_keyed cd hk op) fresh_keyed ops
  have hiff : (∀ s ∈ states (fun s op => s.apply cd op) fresh ops, P s) ↔
      Along (fun s op => s.apply cd op) (fun s op => s.NoClash op) fresh ops :=
    states_iff_along (I := K) (P := P) (fun s op hk => plan_keyed cd hk op) (fun s op hk h => plan_distinct cd h hk op)
      fresh_keyed fresh_distinct ops
  rw [← hiff]
  constructor
  · rintro ⟨hiso, -⟩ s hs
    exact (hiso s hs).volumes
  · intro h
    refine ⟨fun s hs => (h s hs).isolated (hkeyed s hs), ?_⟩
    exact along_of_states (I := fun s => P s ∧ K s) (fun s op hs hclash => apply_isolates cd hs.1 hs.2 hclash)
      (fun s hs => ⟨h s hs, hkeyed s hs⟩) (hiff.1 h)

/-- The first volumes of `a/b` and of `a:b` have one file, and what is written to the one is read from the other. -/
theorem lookalike_owners_collide :
    ∃ ops : List VolumeOp, ∃ s ∈ states (fun s op => s.apply ManifestCodec.plain op) FileVolumeStore.fresh ops,
      ¬ s.manifest.Isolated ∧
      s.read ⟨"a:b/v1"⟩ 0 2 = .ok [0, 0] ∧
      (s.apply ManifestCodec.plain (.write ⟨"a/b/v1"⟩ 0 [7, 7])).2.read ⟨"a:b/v1"⟩ 0 2 = .ok [7, 7] := by
  refine ⟨[.create "a/b" "disk" 2, .create "a:b" "disk" 2], _, run_mem_states _ _, ?_, ?_, ?_⟩
  · intro h
    exact absurd (h.volumes ⟨"a/b/v1"⟩ ⟨"a:b/v1"⟩ ⟨⟨"a/b/v1"⟩, "a/b", "disk", 2⟩ ⟨⟨"a:b/v1"⟩, "a:b", "disk", 2⟩
      (by decide +kernel) (by decide +kernel) (by decide +kernel)) (by decide)
  · decide +kernel
  · decide +kernel

end Celium
