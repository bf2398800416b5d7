import Celium.VaultIsolation
/-!
# VaultCrash — a vault that stops between two file-system calls

A process may stop after any file-system call of any volume call, and the vault is opened again from what is on disk.
The manifest is the one before the call up to the rename and the one after it from there on.  A create and a snapshot
write their body first, to a file that nobody lists; a delete removes the files first, while the manifest still lists
them, and a stop in between leaves a volume without its body.
-/
namespace Celium

open Fixed Runs

/-! ## Stops -/

/-- A call other than a restore, and after how many of its file-system calls the process stops, if it does. -/
structure VaultEvent where
  op : VolumeOp
  stop : Option Nat
  no_restore : ∀ id, op ≠ .restoreSnapshot id

namespace FileVolumeStore

variable {β : Type} (cd : ManifestCodec β) (s : FileVolumeStore β)

/-- A call that is carried out, or the vault as it is opened after a stop. -/
def event (e : VaultEvent) : CelResult Unit × FileVolumeStore β :=
  match e.stop with
  | none => (.ok (), (s.apply cd e.op).2)
  | some n =>
    match openOrCreate cd (s.disk.calls ((s.plan cd e.op).calls.take n)) with
    | .ok s' => (.ok (), s')
    | .error err => (.error err, s)

/-- Every volume and every snapshot that is listed has all of its bytes. -/
structure Consistent : Prop where
  volumes : ∀ v ∈ s.list, ∃ body, s.disk.bodies v.id.file = some body ∧ body.length = v.sizeBytes.toNat
  snapshots : ∀ sn ∈ s.listSnapshots none, ∃ body, s.disk.bodies sn.id.file = some body ∧
    body.length = sn.sizeBytes.toNat
  clean : s.integrityCheck.isClean = true
  readable : ∀ v ∈ s.list, ∃ bytes, s.read v.id 0 v.sizeBytes.toNat = .ok bytes ∧ bytes.length = v.sizeBytes.toNat

/-- A new volume has a file that no volume has. -/
def FreshFile : VolumeOp → Prop
  | .create owner name size =>
    CreateOk name size → ∀ e ∈ s.manifest.volumes.entries, e.1.file ≠ (s.nextId owner).file
  | _ => True

/-- The process does not stop while a file is gone, or empty, that the manifest lists: in a delete, from the first
removal to the rename; in a snapshot whose counter is used up, right after its file is made anew. -/
def NotCut (e : VaultEvent) : Prop :=
  match e.op, e.stop with
  | .delete id, some n =>
    (s.manifest.volumes.lookup id).isSome → ¬ (0 < n ∧ n < (s.snapshotsOf id).length + 5)
  | .deleteSnapshot k, some n => (s.manifest.snapshots.lookup k).isSome → ¬ (0 < n ∧ n < 5)
  | .createSnapshot id name, some n =>
    MemVolumeStore.validateName name = .ok () → (s.manifest.volumes.lookup id).isSome →
      (s.manifest.snapshots.lookup (s.nextSnapshotId id)).isSome → n ≠ 1
  | _, _ => True

end FileVolumeStore

/-! ## What is kept -/

/-- The body files of what a manifest lists, on a disk. -/
structure Manifest.Sized {β : Type} (m : Manifest) (d : VaultDisk β) : Prop where
  volumes : ∀ id v, m.volumes.lookup id = some v → ∃ body, d.bodies id.file = some body ∧ body.length = v.sizeBytes.toNat
  snapshots : ∀ k sn, m.snapshots.lookup k = some sn → ∃ body, d.bodies k.file = some body ∧
    body.length = sn.sizeBytes.toNat

/-- The records say their own ids, and a snapshot is as large as its volume, which is not empty. -/
structure Manifest.Recorded (m : Manifest) : Prop where
  volumes : ∀ id v, m.volumes.lookup id = some v → v.id = id ∧ v.sizeBytes ≠ 0
  snapshots : ∀ k sn, m.snapshots.lookup k = some sn → sn.id = k ∧
    ∃ v, m.volumes.lookup sn.volume = some v ∧ sn.sizeBytes = v.sizeBytes

/-- What every manifest of a run has, whatever the disk. -/
structure Manifest.Sound (m : Manifest) : Prop where
  keyed : m.Keyed
  distinct : m.Distinct
  recorded : m.Recorded

namespace FileVolumeStore

variable {β : Type} {s : FileVolumeStore β}

theorem checkBody_nil {what id : String} {f : BodyFile} {size : UInt64} :
    s.checkBody what id f size = [] ↔ ∃ body, s.disk.bodies f = some body ∧ body.length = size.toNat := by
  unfold checkBody
  split
  · rename_i hnone
    simp [hnone]
  · rename_i body hbody
    split
    · rename_i hlen
      simp [hbody, hlen]
    · rename_i hlen
      simp [hbody, hlen]

/-- A volume whose file is as long as it should be is read to its end. -/
theorem read_full {id : VolumeId} {v : VolumeMeta} (hv : s.manifest.volumes.lookup id = some v) {body : List UInt8}
    (hbody : s.disk.bodies id.file = some body) (hlen : body.length = v.sizeBytes.toNat) :
    s.read id 0 v.sizeBytes.toNat = .ok body := by
  have hadd : checkedAdd64 (0 : UInt64).toNat v.sizeBytes.toNat = some v.sizeBytes.toNat := by
    have hle := le_u64Max v.sizeBytes
    simp [checkedAdd64, hle]
  have hrange : s.range id 0 v.sizeBytes.toNat "read" = .ok () := by
    simp only [range, hv, hadd, gt_iff_lt, Nat.lt_irrefl, if_false]
  simp only [read, hrange, hbody]
  rw [if_neg (by simp [hlen])]
  simp [← hlen]

/-- **The bodies decide it all.** -/
theorem consistent_iff (h : s.manifest.Recorded) : s.Consistent ↔ s.manifest.Sized s.disk := by
  have hlist : ∀ v, v ∈ s.list ↔ ∃ id, s.manifest.volumes.lookup id = some v := by
    intro v
    rw [list, Assoc.mem_sorted_iff]
  have hsnaps : ∀ sn, sn ∈ s.listSnapshots none ↔ ∃ k, s.manifest.snapshots.lookup k = some sn := by
    intro sn
    simp only [listSnapshots, Option.all_none, List.filter_true]
    rw [Assoc.mem_sorted_iff]
  constructor
  · intro hc
    constructor
    · intro id v hv
      obtain ⟨body, hbody, hlen⟩ := hc.volumes v ((hlist v).2 ⟨id, hv⟩)
      rw [(h.volumes id v hv).1] at hbody
      exact ⟨body, hbody, hlen⟩
    · intro k sn hsn
      obtain ⟨body, hbody, hlen⟩ := hc.snapshots sn ((hsnaps sn).2 ⟨k, hsn⟩)
      rw [(h.snapshots k sn hsn).1] at hbody
      exact ⟨body, hbody, hlen⟩
  · intro hs
    refine ⟨?_, ?_, ?_, ?_⟩
    · intro v hv
      obtain ⟨id, hid⟩ := (hlist v).1 hv
      rw [(h.volumes id v hid).1]
      exact hs.volumes id v hid
    · intro sn hsn
      obtain ⟨k, hk⟩ := (hsnaps sn).1 hsn
      rw [(h.snapshots k sn hk).1]
      exact hs.snapshots k sn hk
    · simp only [IntegrityReport.isClean, integrityCheck, List.isEmpty_iff, List.append_eq_nil_iff,
        List.flatMap_eq_nil_iff, (List.perm_insertionSort _ _).mem_iff, checkBody_nil]
      exact ⟨fun e he => hs.volumes e.1 e.2 (AList.mem_lookup_iff.2 he),
        fun e he => hs.snapshots e.1 e.2 (AList.mem_lookup_iff.2 he)⟩
    · intro v hv
      obtain ⟨id, hid⟩ := (hlist v).1 hv
      obtain ⟨body, hbody, hlen⟩ := hs.volumes id v hid
      rw [(h.volumes id v hid).1]
      exact ⟨body, read_full hid hbody hlen, hlen⟩

/-! ## The manifest after a stop -/

theorem openOrCreate_of_manifest {cd : ManifestCodec β} (h : s.Saved cd) {d : VaultDisk β}
    (hd : d.manifest = s.disk.manifest) : openOrCreate cd d = .ok ⟨s.manifest, d⟩ := by
  rcases h with hsaved | ⟨hnone, hdefault⟩
  · rw [openOrCreate, hd, hsaved]
    simp only [cd.round_trip]
  · rw [openOrCreate, hd, hnone]
    simp only [← hdefault]

/-- **Up to the rename a stop leaves the manifest as it was.** -/
theorem cut_manifest {cd : ManifestCodec β} {op : VolumeOp} {n : Nat}
    (hn : n < (s.plan cd op).calls.length) :
    (s.disk.calls ((s.plan cd op).calls.take n)).manifest = s.disk.manifest := by
  apply VaultDisk.calls_manifest
  rcases s.plan_shape cd op with ⟨cs, hcs, hcalls⟩ | ⟨hbody, -⟩
  · intro c hc
    have hsplit : (s.plan cd op).calls =
        (cs ++ [.createTmp, .writeTmp (cd.encode (s.plan cd op).manifest), .syncTmp]) ++ [.renameTmp] := by
      rw [hcalls, saveManifest]
      simp
    rw [hsplit] at hn hc
    rw [List.take_append_of_le_length (by simp at hn ⊢; omega)] at hc
    rcases List.mem_append.1 (List.mem_of_mem_take hc) with hc | hc
    · exact (hcs c hc).ne_rename
    · simp only [List.mem_cons, List.not_mem_nil, or_false] at hc
      rcases hc with rfl | rfl | rfl
      all_goals
        intro h
        cases h
  · exact fun c hc => (hbody c (List.mem_of_mem_take hc)).ne_rename

/-- **A vault is always opened again**: as it was, with the files the calls have come to, or as the call left it. -/
theorem event_cases {cd : ManifestCodec β} (h : s.Saved cd) (e : VaultEvent) :
    (∃ n, e.stop = some n ∧ n < (s.plan cd e.op).calls.length ∧
      s.event cd e = (.ok (), ⟨s.manifest, s.disk.calls ((s.plan cd e.op).calls.take n)⟩)) ∨
    ((∀ n, e.stop = some n → (s.plan cd e.op).calls.length ≤ n) ∧ s.event cd e = (.ok (), (s.apply cd e.op).2)) := by
  unfold event
  cases hstop : e.stop with
  | none => exact .inr ⟨nofun, rfl⟩
  | some n =>
    rcases Nat.lt_or_ge n (s.plan cd e.op).calls.length with hn | hn
    · refine .inl ⟨n, rfl, hn, ?_⟩
      simp only [openOrCreate_of_manifest h (cut_manifest hn)]
    · refine .inr ⟨fun m hm => Option.some.inj hm ▸ hn, ?_⟩
      have hopen := openOrCreate_saved (apply_saved h e.op)
      rw [apply] at hopen
      simp only [List.take_of_length_le hn, hopen]
      rfl

theorem event_saved {cd : ManifestCodec β} (h : s.Saved cd) (e : VaultEvent) : (s.event cd e).2.Saved cd := by
  rcases event_cases h e with ⟨n, -, hn, hevent⟩ | ⟨-, hevent⟩
  · rw [hevent]
    simp only [Saved, cut_manifest hn]
    exact h
  · rw [hevent]
    exact apply_saved h e.op

/-! ## What a call keeps -/

theorem FreshFile.file_ne {owner name : String} {size : UInt64} (h : s.FreshFile (.create owner name size))
    (hok : CreateOk name size) {id : VolumeId} {v : VolumeMeta} (hv : s.manifest.volumes.lookup id = some v) :
    id.file ≠ (s.nextId owner).file :=
  h hok ⟨id, v⟩ (AList.mem_lookup_iff.1 hv)

theorem FreshFile.noClash {op : VolumeOp} (h : s.FreshFile op) : s.NoClash op := by
  cases op with
  | create owner name size =>
    rintro hok id v hv - halike rfl
    exact h.file_ne hok hv (volumeId_file_inj.2 ⟨halike, rfl⟩)
  | delete id | list | get id | read id offset len | write id offset data | createSnapshot id name
  | listSnapshots volume | deleteSnapshot id | restoreSnapshot id => trivial

theorem plan_recorded {cd : ManifestCodec β} (h : s.manifest.Recorded) {op : VolumeOp} (hfresh : s.FreshFile op) :
    (s.plan cd op).manifest.Recorded := by
  rcases s.plan_manifest cd op with ⟨hsame, -⟩ | ⟨owner, name, size, rfl, hok, hnew⟩ | ⟨id, rfl, hnew⟩ |
    ⟨id, name, vol, rfl, hvol, hnew⟩ | ⟨id, rfl, hnew⟩
  · rw [hsame]
    exact h
  · rw [hnew]
    constructor
    · intro id v hv
      rw [withVolume, Assoc.lookup_insert_ite] at hv
      split at hv
      · rename_i heq
        obtain rfl := Option.some.inj hv
        exact ⟨heq.symm, hok.2.1⟩
      · exact h.volumes id v hv
    · intro k sn hsn
      obtain ⟨hid, v, hv, hsize⟩ := h.snapshots k sn hsn
      have hne : sn.volume ≠ s.nextId owner := fun heq => hfresh.file_ne hok hv (by rw [heq])
      refine ⟨hid, v, ?_, hsize⟩
      rw [withVolume, Assoc.lookup_insert_ite, if_neg hne]
      exact hv
  · rw [hnew]
    constructor
    · intro id' v hv
      rw [withoutVolume, Assoc.lookup_erase_ite] at hv
      split at hv
      · cases hv
      · exact h.volumes id' v hv
    · intro k sn hsn
      rw [withoutVolume, Assoc.lookup_foldl_erase] at hsn
      split at hsn
      · cases hsn
      · rename_i hkeep
        obtain ⟨hid, v, hv, hsize⟩ := h.snapshots k sn hsn
        have hne : sn.volume ≠ id := fun hvol => hkeep (s.mem_snapshotsOf.2 ⟨sn, hsn, hvol⟩)
        refine ⟨hid, v, ?_, hsize⟩
        rw [withoutVolume, Assoc.lookup_erase_ite, if_neg hne]
        exact hv
  · rw [hnew]
    refine ⟨h.volumes, fun k sn hsn => ?_⟩
    rw [withSnapshot, Assoc.lookup_insert_ite] at hsn
    split at hsn
    · rename_i heq
      obtain rfl := Option.some.inj hsn
      exact ⟨heq.symm, vol, hvol, rfl⟩
    · exact h.snapshots k sn hsn
  · rw [hnew]
    refine ⟨h.volumes, fun k sn hsn => ?_⟩
    rw [withoutSnapshot, Assoc.lookup_erase_ite] at hsn
    split at hsn
    · cases hsn
    · exact h.snapshots k sn hsn

theorem plan_sound {cd : ManifestCodec β} (h : s.manifest.Sound) {op : VolumeOp} (hfresh : s.FreshFile op) :
    (s.plan cd op).manifest.Sound where
  keyed := plan_keyed cd h.keyed op
  distinct := (plan_distinct cd h.distinct h.keyed op).2 hfresh.noClash
  recorded := plan_recorded h.recorded hfresh

/-! ## The body files -/

section Bodies

variable {m : Manifest} {d d' : VaultDisk β}

theorem sized_of_same (h : m.Sized d)
    (hvolume : ∀ id v, m.volumes.lookup id = some v → d'.bodies id.file = d.bodies id.file)
    (hsnapshot : ∀ k sn, m.snapshots.lookup k = some sn → d'.bodies k.file = d.bodies k.file) : m.Sized d' where
  volumes := fun id v hv => by
    rw [hvolume id v hv]
    exact h.volumes id v hv
  snapshots := fun k sn hsn => by
    rw [hsnapshot k sn hsn]
    exact h.snapshots k sn hsn

/-- Calls on one file, which is none of those the manifest lists. -/
theorem sized_of_unlisted (h : m.Sized d) {cs : List (FsCall β)} {f : BodyFile}
    (hcs : ∀ c ∈ cs, ∀ g, c.file = some g → g = f) (hvolume : ∀ id v, m.volumes.lookup id = some v → id.file ≠ f)
    (hsnapshot : ∀ k sn, m.snapshots.lookup k = some sn → k.file ≠ f) : m.Sized (d.calls cs) := by
  refine sized_of_same h ?_ ?_
  · intro id v hv
    exact VaultDisk.calls_bodies (fun c hc hf => hvolume id v hv (hcs c hc _ hf)) d
  · intro k sn hsn
    exact VaultDisk.calls_bodies (fun c hc hf => hsnapshot k sn hsn (hcs c hc _ hf)) d

theorem file_plan_writeBody {cd : ManifestCodec β} {f : BodyFile} {bytes : List UInt8} {m : Manifest} {n : Nat} :
    ∀ c ∈ (writeBody f bytes ++ saveManifest cd m).take n, ∀ g, c.file = some g → g = f := by
  intro c hc g hg
  rcases List.mem_append.1 (List.mem_of_mem_take hc) with hc | hc
  · exact file_writeBody hc hg
  · rw [file_saveManifest cd m c hc] at hg
    cases hg

theorem saveManifest_sized {cd : ManifestCodec β} {m' : Manifest} {n : Nat} (h : m.Sized d) :
    m.Sized (d.calls ((saveManifest cd m').take n)) := by
  have hsame : ∀ f, (d.calls ((saveManifest cd m').take n)).bodies f = d.bodies f := by
    refine fun f => VaultDisk.calls_bodies (fun c hc => ?_) d
    rw [file_saveManifest cd m' c (List.mem_of_mem_take hc)]
    nofun
  exact sized_of_same h (fun id v _ => hsame _) (fun k sn _ => hsame _)

/-- A file that is gone stays away while files are removed. -/
theorem calls_gone {cs : List (FsCall β)} {f : BodyFile} (hcs : ∀ c ∈ cs, ∀ g, c.file = some g → c = .remove g)
    (h : d.bodies f = none) : (d.calls cs).bodies f = none := by
  induction cs generalizing d with
  | nil => exact h
  | cons c cs ih =>
    refine ih (fun c' hc' => hcs c' (List.mem_cons_of_mem _ hc')) ?_
    have hc := hcs c List.mem_cons_self
    cases c with
    | create g | write g offset data => cases hc g rfl
    | remove g =>
      by_cases hfg : f = g
      · rw [hfg]
        exact d.setBody_self g none
      · exact (d.setBody_of_ne hfg none).trans h
    | sync g => exact h
    | createTmp | writeTmp b | syncTmp | renameTmp => exact h

/-- After the first call of a removal its file is gone. -/
theorem first_gone {cd : ManifestCodec β} {f : BodyFile} {fs : List BodyFile} {n : Nat} (hn : 0 < n) :
    (d.calls (((f :: fs).map FsCall.remove ++ saveManifest cd m).take n)).bodies f = none := by
  obtain ⟨n, rfl⟩ := Nat.exists_eq_add_of_lt hn
  rw [Nat.zero_add, List.map_cons, List.cons_append, List.take_succ_cons]
  change ((d.call (.remove f)).calls _).bodies f = none
  refine calls_gone (fun c hc g hg => ?_) (d.setBody_self f none)
  rcases List.mem_append.1 (List.mem_of_mem_take hc) with hc | hc
  · obtain ⟨g', -, rfl⟩ := List.mem_map.1 hc
    rw [Option.some.inj hg]
  · rw [file_saveManifest cd m c hc] at hg
    cases hg

theorem apply_removed {cd : ManifestCodec β} {fs : List BodyFile} :
    (d.calls (fs.map FsCall.remove ++ saveManifest cd m)).bodies = fun f => if f ∈ fs then none else d.bodies f := by
  rw [VaultDisk.calls_append, VaultDisk.calls_remove, VaultDisk.calls_saveManifest]

theorem apply_written {cd : ManifestCodec β} {f : BodyFile} {bytes : List UInt8} :
    (d.calls (writeBody f bytes ++ saveManifest cd m)).bodies = (d.setBody f (some bytes)).bodies := by
  rw [VaultDisk.calls_append, VaultDisk.calls_writeBody, VaultDisk.calls_saveManifest]

end Bodies

/-! ## One call -/

section Call

variable (cd : ManifestCodec β) (hsound : s.manifest.Sound) (hs : s.manifest.Sized s.disk)
include hsound hs

omit hsound in
theorem create_sized {owner name : String} {size : UInt64} (hfresh : s.FreshFile (.create owner name size)) :
    (s.create cd owner name size).manifest.Sized (s.disk.calls (s.create cd owner name size).calls) ∧
      ∀ n, s.manifest.Sized (s.disk.calls ((s.create cd owner name size).calls.take n)) := by
  by_cases hok : CreateOk name size
  · rw [s.create_valid cd owner hok]
    constructor
    · constructor
      · intro id v hv
        simp only [apply_written]
        rw [withVolume, Assoc.lookup_insert_ite] at hv
        split at hv
        · rename_i heq
          obtain rfl := Option.some.inj hv
          rw [heq, s.disk.setBody_self]
          exact ⟨_, rfl, List.length_replicate⟩
        · rw [s.disk.setBody_of_ne (hfresh.file_ne hok hv)]
          exact hs.volumes id v hv
      · intro k sn hsn
        simp only [apply_written]
        rw [s.disk.setBody_of_ne (volume_file_ne_snapshot _ k).symm]
        exact hs.snapshots k sn hsn
    · intro n
      exact sized_of_unlisted hs file_plan_writeBody (fun id v hv => hfresh.file_ne hok hv)
        (fun k sn _ => (volume_file_ne_snapshot _ k).symm)
  · obtain ⟨e, he⟩ := s.create_invalid cd owner hok
    rw [he]
    exact ⟨hs, fun n => by rw [answer, List.take_nil]; exact hs⟩

theorem delete_sized (id : VolumeId) :
    (s.delete cd id).manifest.Sized (s.disk.calls (s.delete cd id).calls) := by
  rw [s.delete_eq]
  constructor
  · intro id' v hv
    simp only [apply_removed]
    rw [withoutVolume, Assoc.lookup_erase_ite] at hv
    split at hv
    · cases hv
    · rename_i hne
      rw [if_neg (volume_not_dropped hsound.distinct hv hne)]
      exact hs.volumes id' v hv
  · intro k sn hsn
    simp only [apply_removed]
    rw [withoutVolume, Assoc.lookup_foldl_erase] at hsn
    split at hsn
    · cases hsn
    · rename_i hkeep
      have hne : sn.volume ≠ id := fun hvol => hkeep (s.mem_snapshotsOf.2 ⟨sn, hsn, hvol⟩)
      rw [if_neg (snapshot_not_dropped hsound.distinct hsound.keyed hsn hne).2]
      exact hs.snapshots k sn hsn

theorem delete_cut (id : VolumeId) {n : Nat} (hn : n < (s.delete cd id).calls.length) :
    s.manifest.Sized (s.disk.calls ((s.delete cd id).calls.take n)) ↔
      ((s.manifest.volumes.lookup id).isSome → ¬ (0 < n ∧ n < (s.snapshotsOf id).length + 5)) := by
  rw [s.delete_eq] at hn ⊢
  simp only at hn ⊢
  cases hv : s.manifest.volumes.lookup id with
  | none =>
    have hnone : s.snapshotsOf id = [] := by
      rw [List.eq_nil_iff_forall_not_mem]
      intro k hk
      obtain ⟨sn, hsn, rfl⟩ := s.mem_snapshotsOf.1 hk
      have hsome := (hsound.keyed.snapshots k sn hsn).2
      rw [hv] at hsome
      cases hsome
    have hdropped : s.dropped id = [] := by simp [dropped, hv, hnone]
    rw [hdropped]
    exact iff_of_true (saveManifest_sized hs) (fun h => by cases h)
  | some v =>
    have hdropped : s.dropped id = id.file :: (s.snapshotsOf id).map SnapshotId.file := by simp [dropped, hv]
    rw [hdropped] at hn ⊢
    simp only [saveManifest, List.map_cons, List.map_map, List.length_append, List.length_cons, List.length_map,
      List.length_nil] at hn
    constructor
    · rintro h - ⟨hpos, -⟩
      obtain ⟨body, hbody, -⟩ := h.volumes id v hv
      rw [first_gone hpos] at hbody
      cases hbody
    · intro h
      obtain rfl : n = 0 := by
        have := h rfl
        omega
      exact hs

theorem deleteSnapshot_sized (k : SnapshotId) :
    (s.deleteSnapshot cd k).manifest.Sized (s.disk.calls (s.deleteSnapshot cd k).calls) := by
  rw [s.deleteSnapshot_eq]
  constructor
  · intro id v hv
    simp only [apply_removed]
    rw [if_neg (fun hmem => volume_file_ne_snapshot id k (mem_droppedSnapshot.1 hmem).1)]
    exact hs.volumes id v hv
  · intro k' sn hsn
    simp only [apply_removed]
    rw [withoutSnapshot, Assoc.lookup_erase_ite] at hsn
    split at hsn
    · cases hsn
    · rename_i hne
      rw [if_neg]
      · exact hs.snapshots k' sn hsn
      · intro hmem
        obtain ⟨hfile, hsome⟩ := mem_droppedSnapshot.1 hmem
        obtain ⟨sn', hsn'⟩ := Option.isSome_iff_exists.1 hsome
        exact hne ((hsound.distinct.isolated hsound.keyed).snapshots k' k sn sn' hsn hsn' hfile)

omit hsound in
theorem deleteSnapshot_cut (k : SnapshotId) {n : Nat} (hn : n < (s.deleteSnapshot cd k).calls.length) :
    s.manifest.Sized (s.disk.calls ((s.deleteSnapshot cd k).calls.take n)) ↔
      ((s.manifest.snapshots.lookup k).isSome → ¬ (0 < n ∧ n < 5)) := by
  rw [s.deleteSnapshot_eq] at hn ⊢
  simp only at hn ⊢
  cases hsn : s.manifest.snapshots.lookup k with
  | none =>
    have hdropped : s.droppedSnapshot k = [] := by simp [droppedSnapshot, hsn]
    rw [hdropped]
    exact iff_of_true (saveManifest_sized hs) (fun h => by cases h)
  | some sn =>
    have hdropped : s.droppedSnapshot k = [k.file] := by simp [droppedSnapshot, hsn]
    rw [hdropped] at hn ⊢
    simp only [saveManifest, List.map_cons, List.map_nil, List.length_append, List.length_cons, List.length_nil] at hn
    constructor
    · rintro h - ⟨hpos, -⟩
      obtain ⟨body, hbody, -⟩ := h.snapshots k sn hsn
      rw [first_gone hpos] at hbody
      cases hbody
    · intro h
      obtain rfl : n = 0 := by
        have := h rfl
        omega
      exact hs

/-- A volume's file with another body of the right length. -/
theorem setVolume_sized {id : VolumeId} {v : VolumeMeta} (hv : s.manifest.volumes.lookup id = some v) {d : VaultDisk β}
    {body : List UInt8} (hbody : d.bodies id.file = some body) (hlen : body.length = v.sizeBytes.toNat)
    (hother : ∀ f ≠ id.file, d.bodies f = s.disk.bodies f) : s.manifest.Sized d where
  volumes := fun id' v' hv' => by
    by_cases hfile : id'.file = id.file
    · obtain rfl := hsound.distinct id' id v' v hv' hv hfile
      obtain rfl := Option.some.inj (hv.symm.trans hv')
      exact ⟨body, hbody, hlen⟩
    · rw [hother _ hfile]
      exact hs.volumes id' v' hv'
  snapshots := fun k sn hsn => by
    rw [hother _ (volume_file_ne_snapshot id k).symm]
    exact hs.snapshots k sn hsn

theorem write_sized (id : VolumeId) (offset : UInt64) (data : List UInt8) (n : Nat) :
    s.manifest.Sized (s.disk.calls ((s.write id offset data).calls.take n)) := by
  rcases s.write_cases id offset data with ⟨e, he⟩ | ⟨v, body, hv, hbody, hrange, hplan⟩
  · rw [he, answer, List.take_nil]
    exact hs
  · rw [hplan]
    obtain ⟨body', hbody', hlen⟩ := hs.volumes id v hv
    obtain rfl := Option.some.inj (hbody'.symm.trans hbody)
    have hlen' : (overwrite offset.toNat data body').length = v.sizeBytes.toNat := by
      rw [overwrite_length (by omega), hlen]
    have hwritten : s.manifest.Sized (s.disk.call (.write id.file offset.toNat data)) := by
      refine setVolume_sized hsound hs hv ?_ hlen' (fun f hf => s.disk.setBody_of_ne hf _)
      rw [VaultDisk.call, hbody]
      exact s.disk.setBody_self _ _
    rcases n with _ | _ | n
    · exact hs
    · exact hwritten
    · simp only [List.take_succ_cons, List.take_nil]
      exact hwritten

omit hsound in
/-- A snapshot's file with another body of the right length, the record being there already or new. -/
theorem setSnapshot_sized {k : SnapshotId} {size : UInt64} {m : Manifest} (hvolumes : m.volumes = s.manifest.volumes)
    (hk : ∀ sn, m.snapshots.lookup k = some sn → sn.sizeBytes = size)
    (hold : ∀ k' ≠ k, m.snapshots.lookup k' = s.manifest.snapshots.lookup k')
    (hfile : ∀ k' sn, s.manifest.snapshots.lookup k' = some sn → k' ≠ k → k'.file ≠ k.file) {d : VaultDisk β}
    {body : List UInt8} (hbody : d.bodies k.file = some body) (hlen : body.length = size.toNat)
    (hother : ∀ f ≠ k.file, d.bodies f = s.disk.bodies f) : m.Sized d where
  volumes := fun id v hv => by
    rw [hvolumes] at hv
    rw [hother _ (volume_file_ne_snapshot id k)]
    exact hs.volumes id v hv
  snapshots := fun k' sn hsn => by
    by_cases hkk : k' = k
    · subst hkk
      exact ⟨body, hbody, by rw [hlen, hk sn hsn]⟩
    · rw [hold k' hkk] at hsn
      rw [hother _ (hfile k' sn hsn hkk)]
      exact hs.snapshots k' sn hsn

omit hs in
/-- Another snapshot than the next one of a volume has another file. -/
theorem nextSnapshot_apart {id : VolumeId} {v : VolumeMeta} (hv : s.manifest.volumes.lookup id = some v)
    {k : SnapshotId} {sn : SnapshotMeta} (hsn : s.manifest.snapshots.lookup k = some sn) (hne : k ≠ s.nextSnapshotId id) :
    k.file ≠ (s.nextSnapshotId id).file := by
  obtain ⟨⟨n, rfl⟩, hsome⟩ := hsound.keyed.snapshots k sn hsn
  obtain ⟨v', hv'⟩ := Option.isSome_iff_exists.1 hsome
  intro hfile
  obtain ⟨hvolumes, hn⟩ := snapshot_file_inj hfile
  have hvolume := hsound.distinct _ _ v' v hv' hv hvolumes
  exact hne (by rw [hvolume, hn]; rfl)

theorem createSnapshot_sized (id : VolumeId) (name : String) :
    (s.createSnapshot cd id name).manifest.Sized (s.disk.calls (s.createSnapshot cd id name).calls) := by
  rcases s.createSnapshot_cases cd id name with ⟨⟨e, he⟩, -⟩ | ⟨v, body, -, hv, -, hlen, hplan⟩
  · rw [he]
    exact hs
  · rw [hplan]
    refine setSnapshot_sized (m := s.withSnapshot id name v.sizeBytes) hs rfl ?_ ?_
      (fun k sn => nextSnapshot_apart hsound hv) ?_ hlen ?_
    · intro sn hsn
      rw [withSnapshot, AList.lookup_insert] at hsn
      exact (Option.some.inj hsn) ▸ rfl
    · intro k hne
      rw [withSnapshot, Assoc.lookup_insert_ite, if_neg hne]
    · simp only [apply_written]
      exact s.disk.setBody_self _ _
    · intro f hf
      simp only [apply_written]
      exact s.disk.setBody_of_ne hf _

/-- The file of a snapshot that is listed is made anew: it is empty for one call, and then whole. -/
theorem rewrite_cut {k : SnapshotId} {sn : SnapshotMeta} (hsn : s.manifest.snapshots.lookup k = some sn)
    (hfile : ∀ k' sn, s.manifest.snapshots.lookup k' = some sn → k' ≠ k → k'.file ≠ k.file) {body : List UInt8}
    (hlen : body.length = sn.sizeBytes.toNat) {m : Manifest} {n : Nat} :
    s.manifest.Sized (s.disk.calls ((writeBody k.file body ++ saveManifest cd m).take n)) ↔ n ≠ 1 := by
  match n with
  | 0 => exact iff_of_true hs (by decide)
  | 1 =>
    refine iff_of_false (fun h => ?_) (by decide)
    obtain ⟨body', hbody', hlen'⟩ := h.snapshots k sn hsn
    obtain ⟨-, v, hv, hsize⟩ := hsound.recorded.snapshots k sn hsn
    have hempty : s.disk.calls ((writeBody k.file body ++ saveManifest cd m).take 1) = s.disk.setBody k.file (some []) := rfl
    rw [hempty, s.disk.setBody_self] at hbody'
    obtain rfl := Option.some.inj hbody'
    refine (hsound.recorded.volumes _ v hv).2 (UInt64.toNat_inj.1 ?_)
    rw [← hsize, ← hlen']
    rfl
  | n + 2 =>
    refine iff_of_true ?_ (by omega)
    have hrest : ∀ f, (s.disk.calls ((writeBody k.file body ++ saveManifest cd m).take (n + 2))).bodies f =
        (s.disk.calls [.create k.file, .write k.file 0 body]).bodies f := by
      intro f
      have hcs : ∀ c ∈ (.sync k.file :: saveManifest cd m).take n, c.file ≠ some f := by
        intro c hc
        rcases List.mem_cons.1 (List.mem_of_mem_take hc) with rfl | hc
        · nofun
        · rw [file_saveManifest cd m c hc]
          nofun
      exact VaultDisk.calls_bodies hcs _
    have hbodies : ∀ f, (s.disk.calls [.create k.file, .write k.file 0 body]).bodies f =
        (s.disk.setBody k.file (some body)).bodies f := fun f =>
      congrArg (fun d => VaultDisk.bodies d f) (s.disk.calls_writeBody k.file body)
    refine setSnapshot_sized hs rfl ?_ (fun _ _ => rfl) hfile ?_ hlen (fun f hf => ?_)
    · intro sn' hsn'
      rw [Option.some.inj (hsn'.symm.trans hsn)]
    · rw [hrest, hbodies]
      exact s.disk.setBody_self _ _
    · rw [hrest, hbodies]
      exact s.disk.setBody_of_ne hf _

theorem createSnapshot_cut (id : VolumeId) (name : String) {n : Nat}
    (hn : n < (s.createSnapshot cd id name).calls.length) :
    s.manifest.Sized (s.disk.calls ((s.createSnapshot cd id name).calls.take n)) ↔
      (MemVolumeStore.validateName name = .ok () → (s.manifest.volumes.lookup id).isSome →
        (s.manifest.snapshots.lookup (s.nextSnapshotId id)).isSome → n ≠ 1) := by
  rcases s.createSnapshot_cases cd id name with ⟨⟨e, he⟩, -⟩ | ⟨v, body, hname, hv, -, hlen, hplan⟩
  · rw [he] at hn
    cases hn
  · rw [hplan]
    simp only [hname, hv, Option.isSome_some, forall_const]
    cases hsn : s.manifest.snapshots.lookup (s.nextSnapshotId id) with
    | none =>
      refine iff_of_true (sized_of_unlisted hs file_plan_writeBody ?_ ?_) nofun
      · exact fun id' v' _ => volume_file_ne_snapshot id' _
      · intro k sn hk
        refine nextSnapshot_apart hsound hv hk ?_
        rintro rfl
        rw [hsn] at hk
        cases hk
    | some sn =>
      obtain ⟨⟨m, hm⟩, -⟩ := hsound.keyed.snapshots _ sn hsn
      obtain ⟨-, v', hv', hsize⟩ := hsound.recorded.snapshots _ sn hsn
      rw [← (VolumeId.snapshot_inj hm).1, hv] at hv'
      obtain rfl := Option.some.inj hv'
      rw [rewrite_cut cd hsound hs hsn (fun k sn => nextSnapshot_apart hsound hv) (by rw [hlen, hsize])]
      simp

/-- A call that is carried out leaves what is listed whole. -/
theorem apply_sized {op : VolumeOp} (hrestore : ∀ id, op ≠ .restoreSnapshot id) (hfresh : s.FreshFile op) :
    (s.apply cd op).2.manifest.Sized (s.apply cd op).2.disk := by
  cases op with
  | create owner name size => exact (create_sized cd hs hfresh).1
  | delete id => exact delete_sized cd hsound hs id
  | list | get id | read id offset len | listSnapshots volume => exact hs
  | write id offset data =>
    have hmanifest : (s.apply cd (.write id offset data)).2.manifest = s.manifest := by
      rcases s.write_cases id offset data with ⟨e, he⟩ | ⟨v, body, -, -, -, hplan⟩
      · rw [apply, plan, he]
        rfl
      · rw [apply, plan, hplan]
    have hall := write_sized hsound hs id offset data (s.write id offset data).calls.length
    rw [List.take_length] at hall
    rw [hmanifest]
    exact hall
  | createSnapshot id name => exact createSnapshot_sized cd hsound hs id name
  | deleteSnapshot id => exact deleteSnapshot_sized cd hsound hs id
  | restoreSnapshot id => exact absurd rfl (hrestore id)

/-- A stop within a call leaves what was listed whole exactly if it is not in the wrong place. -/
theorem cut_sized {e : VaultEvent} (hfresh : s.FreshFile e.op) {n : Nat} (hstop : e.stop = some n)
    (hn : n < (s.plan cd e.op).calls.length) :
    s.manifest.Sized (s.disk.calls ((s.plan cd e.op).calls.take n)) ↔ s.NotCut e := by
  obtain ⟨op, stop, hrestore⟩ := e
  obtain rfl : stop = some n := hstop
  cases op with
  | create owner name size => exact iff_of_true ((create_sized cd hs hfresh).2 n) trivial
  | delete id => exact delete_cut cd hsound hs id hn
  | list | get id | read id offset len | listSnapshots volume => cases hn
  | write id offset data => exact iff_of_true (write_sized hsound hs id offset data n) trivial
  | createSnapshot id name => exact createSnapshot_cut cd hsound hs id name hn
  | deleteSnapshot id => exact deleteSnapshot_cut cd hs id hn
  | restoreSnapshot id => exact absurd rfl (hrestore id)

omit hsound in
/-- A stop after the last call is not within the call. -/
theorem notCut_of_full {e : VaultEvent} (hfull : ∀ n, e.stop = some n → (s.plan cd e.op).calls.length ≤ n) :
    s.NotCut e := by
  obtain ⟨op, stop, hrestore⟩ := e
  cases stop with
  | none => cases op <;> trivial
  | some n =>
    have hlen : (s.plan cd op).calls.length ≤ n := hfull n rfl
    cases op with
    | create owner name size => trivial
    | delete id =>
      intro hsome
      have hcalls : (s.plan cd (.delete id)).calls.length = (s.snapshotsOf id).length + 5 := by
        rw [plan, s.delete_eq]
        simp [dropped, hsome, saveManifest]
      omega
    | list | get id | read id offset len | listSnapshots volume => trivial
    | write id offset data => trivial
    | createSnapshot id name =>
      intro hname hsome _
      obtain ⟨v, hv⟩ := Option.isSome_iff_exists.1 hsome
      obtain ⟨body, hbody, hbodyLen⟩ := hs.volumes id v hv
      rcases s.createSnapshot_cases cd id name with ⟨-, hbad⟩ | ⟨v, body, -, -, -, -, hplan⟩
      · exact absurd hbodyLen (hbad hname v body hv hbody)
      · have hcalls : (s.plan cd (.createSnapshot id name)).calls.length = 7 := by
          rw [plan, hplan]
          rfl
        omega
    | deleteSnapshot id =>
      intro hsome
      have hcalls : (s.plan cd (.deleteSnapshot id)).calls.length = 5 := by
        rw [plan, s.deleteSnapshot_eq]
        simp [droppedSnapshot, hsome, saveManifest]
      omega
    | restoreSnapshot id => exact absurd rfl (hrestore id)

/-- **One call, stopped or not, leaves what is listed whole exactly if it is not cut in the wrong place.** -/
theorem event_sized {cd : ManifestCodec β} (hsaved : s.Saved cd) {e : VaultEvent} (hfresh : s.FreshFile e.op) :
    (s.event cd e).2.manifest.Sized (s.event cd e).2.disk ↔ s.NotCut e := by
  rcases event_cases hsaved e with ⟨n, hstop, hn, hevent⟩ | ⟨hfull, hevent⟩
  · rw [hevent]
    exact cut_sized cd hsound hs hfresh hstop hn
  · rw [hevent]
    exact iff_of_true (apply_sized cd hsound hs e.no_restore hfresh) (notCut_of_full cd hs hfull)

omit hs in
theorem event_sound {cd : ManifestCodec β} (hsaved : s.Saved cd) {e : VaultEvent} (hfresh : s.FreshFile e.op) :
    (s.event cd e).2.manifest.Sound := by
  rcases event_cases hsaved e with ⟨n, -, -, hevent⟩ | ⟨-, hevent⟩
  · rw [hevent]
    exact hsound
  · rw [hevent]
    exact plan_sound hsound hfresh

end Call

end FileVolumeStore

/-! ## Whole runs -/

section Runs

open FileVolumeStore

variable {β : Type} (cd : ManifestCodec β)

theorem fresh_sound : (fresh : FileVolumeStore β).manifest.Sound where
  keyed := fresh_keyed
  distinct := fresh_distinct
  recorded := ⟨fun _ _ h => (by cases h), fun _ _ h => (by cases h)⟩

theorem fresh_sized : (fresh : FileVolumeStore β).manifest.Sized (fresh : FileVolumeStore β).disk :=
  ⟨fun _ _ h => (by cases h), fun _ _ h => (by cases h)⟩

/-- **After any stops a vault is opened again, and every volume and every snapshot it lists is whole exactly if no stop
falls between the removal of a listed file and the rename of the manifest** (or right after the file of a listed snapshot
is made anew), where new volumes get files of their own. -/
theorem vault_crash_iff (events : List VaultEvent)
    (hfresh : Along (fun s e => s.event cd e) (fun s e => s.FreshFile e.op) fresh events) :
    (∀ r ∈ answers (fun s e => s.event cd e) fresh events, r = .ok ()) ∧
    ((∀ s ∈ states (fun s e => s.event cd e) fresh events, s.Consistent) ↔
      Along (fun s e => s.event cd e) (fun s e => s.NotCut e) fresh events) := by
  let step : FileVolumeStore β → VaultEvent → CelResult Unit × FileVolumeStore β := fun s e => s.event cd e
  have hempty : (fresh : FileVolumeStore β).Saved cd := .inr ⟨rfl, rfl⟩
  have hsaved : ∀ pre, (run step fresh pre).Saved cd := fun pre =>
    inv_run (I := fun s : FileVolumeStore β => s.Saved cd) (fun s e h => event_saved h e) hempty pre
  constructor
  · intro r hr
    obtain ⟨pre, e, post, -, rfl⟩ := (mem_answers_iff _ _ _).1 hr
    rcases event_cases (hsaved pre) e with ⟨n, -, -, hevent⟩ | ⟨-, hevent⟩
    · exact congrArg Prod.fst hevent
    · exact congrArg Prod.fst hevent
  · refine states_iff_along_of (I := fun s => s.Saved cd ∧ s.manifest.Sound) ?_ ?_ ⟨hempty, fresh_sound⟩
      ((consistent_iff fresh_sound.recorded).2 fresh_sized) hfresh
    · rintro s e ⟨hs, hsound⟩ he
      exact ⟨event_saved hs e, event_sound hsound hs he⟩
    · rintro s e ⟨hs, hsound⟩ hc he
      rw [consistent_iff (event_sound hsound hs he).recorded]
      exact event_sized hsound ((consistent_iff hsound.recorded).1 hc) hs he

end Runs

instance {β : Type} (s : FileVolumeStore β) (op : VolumeOp) : Decidable (s.FreshFile op) :=
  match op with
  | .create owner name size =>
    inferInstanceAs (Decidable (CreateOk name size → ∀ e ∈ s.manifest.volumes.entries, e.1.file ≠ (s.nextId owner).file))
  | .delete _ | .list | .get _ | .read .. | .write .. | .createSnapshot .. | .listSnapshots _ | .deleteSnapshot _
  | .restoreSnapshot _ => .isTrue trivial

/-- A create is stopped before its manifest is written and made again, and the volume is deleted. -/
def stoppedCreate : List VaultEvent :=
  [⟨.create "n1" "disk" 2, some 5, nofun⟩, ⟨.create "n1" "disk" 2, none, nofun⟩, ⟨.delete ⟨"n1/v1"⟩, none, nofun⟩]

/-- No stop falls within the delete, and the vault is whole throughout. -/
theorem stopped_create_whole :
    Along (fun s e => s.event ManifestCodec.plain e) (fun s e => s.FreshFile e.op) FileVolumeStore.fresh stoppedCreate ∧
    ∀ s ∈ states (fun s e => s.event ManifestCodec.plain e) FileVolumeStore.fresh stoppedCreate, s.Consistent :=
  ⟨by decide +kernel,
    (vault_crash_iff ManifestCodec.plain stoppedCreate (by decide +kernel)).2.2 ⟨trivial, trivial, trivial, trivial⟩⟩

/-- A delete is stopped after its first file-system call. -/
def stoppedDelete : List VaultEvent :=
  [⟨.create "n1" "disk" 2, none, nofun⟩, ⟨.delete ⟨"n1/v1"⟩, some 1, nofun⟩]

/-- **The volume is still listed and its file is gone.** -/
theorem stopped_delete_broken :
    Along (fun s e => s.event ManifestCodec.plain e) (fun s e => s.FreshFile e.op) FileVolumeStore.fresh stoppedDelete ∧
    ∃ s ∈ states (fun s e => s.event ManifestCodec.plain e) FileVolumeStore.fresh stoppedDelete,
      s.list = [⟨⟨"n1/v1"⟩, "n1", "disk", 2⟩] ∧ s.disk.bodies (VolumeId.file ⟨"n1/v1"⟩) = none ∧
      s.integrityCheck.errors = ["volume n1/v1: stat: No such file or directory (os error 2)"] ∧ ¬ s.Consistent := by
  refine ⟨by decide +kernel, _, run_mem_states _ _, by decide +kernel, by decide +kernel, by decide +kernel, ?_⟩
  intro h
  exact absurd h.clean (by decide +kernel)

end Celium
