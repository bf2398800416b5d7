import Celium.VolumeCalls
/-!
# FileVolume — the volume store on disk

`celvault::file_store`.  A call plans its file-system calls from the manifest in memory and the files it reads, and the
plan is carried out one call after the other: body files first, then the manifest, which is written beside itself and
renamed.  What a manifest file says is the business of `serde_json`; a `ManifestCodec` stands for it, with the round trip
the store relies on.
-/
namespace Celium

open Fixed

/-! ## The disk -/

/-- A file in `volumes/` or `snapshots/`, by its name without `.bin`. -/
inductive BodyFile where
  | volume (name : String)
  | snapshot (name : String)
deriving DecidableEq, Repr

/-- What is in `manifest.json` or in `manifest.json.tmp`. -/
inductive ManifestText (β : Type) where
  | empty
  | json (b : β)
deriving DecidableEq

structure VaultDisk (β : Type) where
  manifest : Option (ManifestText β)
  tmp : Option (ManifestText β)
  bodies : BodyFile → Option (List UInt8)

def VaultDisk.empty {β : Type} : VaultDisk β := ⟨none, none, fun _ => none⟩

/-- A call of the file system. -/
inductive FsCall (β : Type) where
  | create (f : BodyFile)
  | write (f : BodyFile) (offset : Nat) (data : List UInt8)
  | sync (f : BodyFile)
  | remove (f : BodyFile)
  | createTmp
  | writeTmp (b : β)
  | syncTmp
  | renameTmp
deriving DecidableEq

/-- Bytes with `data` at `offset`; a gap is filled with zeros. -/
def overwrite (offset : Nat) (data body : List UInt8) : List UInt8 :=
  body.take offset ++ List.replicate (offset - body.length) 0 ++ data ++ body.drop (offset + data.length)

namespace VaultDisk

variable {β : Type} (d : VaultDisk β)

def setBody (f : BodyFile) (b : Option (List UInt8)) : VaultDisk β := { d with bodies := Function.update d.bodies f b }

/-- One call, which succeeds. -/
def call : FsCall β → VaultDisk β
  | .create f => d.setBody f (some [])
  | .write f offset data => d.setBody f ((d.bodies f).map (overwrite offset data))
  | .sync _ => d
  | .remove f => d.setBody f none
  | .createTmp => { d with tmp := some .empty }
  | .writeTmp b => { d with tmp := d.tmp.map (fun _ => .json b) }
  | .syncTmp => d
  | .renameTmp => { d with manifest := d.tmp.or d.manifest, tmp := none }

def calls (cs : List (FsCall β)) : VaultDisk β := cs.foldl call d

end VaultDisk

/-! ## The manifest -/

structure Manifest where
  nextPerOwner : AList (fun _ : String => UInt64)
  nextSnap : AList (fun _ : VolumeId => UInt64)
  volumes : AList (fun _ : VolumeId => VolumeMeta)
  snapshots : AList (fun _ : SnapshotId => SnapshotMeta)
deriving DecidableEq

instance : Inhabited Manifest := ⟨⟨∅, ∅, ∅, ∅⟩⟩

/-- `serde_json` on a `Manifest`: it decodes what it encoded, and an empty file is no JSON. -/
structure ManifestCodec (β : Type) where
  encode : Manifest → β
  decode : ManifestText β → Except String Manifest
  round_trip : ∀ m, decode (.json (encode m)) = .ok m
  empty : ∃ e, decode .empty = .error e

/-- A codec that writes a manifest as it is. -/
def ManifestCodec.plain : ManifestCodec Manifest where
  encode := id
  decode
    | .empty => .error "EOF while parsing a value at line 1 column 0"
    | .json m => .ok m
  round_trip := fun _ => rfl
  empty := ⟨_, rfl⟩

def safeChar (c : Char) : Char := if c = '/' ∨ c = '@' ∨ c = ':' ∨ c = '\\' then '_' else c

def safeId (s : String) : String := String.ofList (s.toList.map safeChar)

def VolumeId.file (id : VolumeId) : BodyFile := .volume (safeId id.raw)

def SnapshotId.file (id : SnapshotId) : BodyFile := .snapshot (safeId id.raw)

structure FileVolumeStore (β : Type) where
  manifest : Manifest
  disk : VaultDisk β

/-- What a call answers, the manifest it leaves in memory and the file-system calls it makes. -/
structure VaultPlan (β : Type) where
  reply : CelResult VolumeReply
  manifest : Manifest
  calls : List (FsCall β)

/-- `map_io`, for an error of the file system. -/
def vaultIo (ctx e : String) : CelError := .io ("file vault: " ++ ctx ++ ": " ++ e)

/-- What opening a file says that is not there. -/
def noSuchFile : String := "No such file or directory (os error 2)"

/-- `write_body`. -/
def writeBody {β : Type} (f : BodyFile) (bytes : List UInt8) : List (FsCall β) := [.create f, .write f 0 bytes, .sync f]

namespace FileVolumeStore

variable {β : Type} (cd : ManifestCodec β)

/-- `open_or_create`, with `load_manifest`. -/
def openOrCreate (disk : VaultDisk β) : CelResult (FileVolumeStore β) :=
  match disk.manifest with
  | none => .ok ⟨default, disk⟩
  | some text =>
    match cd.decode text with
    | .error e => .error (vaultIo "parse manifest" e)
    | .ok manifest => .ok ⟨manifest, disk⟩

/-- `save_manifest`. -/
def saveManifest (m : Manifest) : List (FsCall β) := [.createTmp, .writeTmp (cd.encode m), .syncTmp, .renameTmp]

variable (s : FileVolumeStore β)

/-- A call that changes nothing. -/
def answer (reply : CelResult VolumeReply) : VaultPlan β := ⟨reply, s.manifest, []⟩

def create (owner name : String) (sizeBytes : UInt64) : VaultPlan β :=
  match MemVolumeStore.validateName name with
  | .error e => s.answer (.error e)
  | .ok () =>
    if sizeBytes = 0 then s.answer (.error (.invalid "volume size: must be > 0"))
    else if sizeBytes > maxVolumeBytes then s.answer (.error (.invalid "volume size: exceeds MAX_VOLUME_BYTES"))
    else
      let counter := satAdd64 ((s.manifest.nextPerOwner.lookup owner).getD 0) 1
      let meta_ : VolumeMeta := { id := MemVolumeStore.volumeId owner counter, owner, name, sizeBytes }
      let manifest := { s.manifest with
        nextPerOwner := s.manifest.nextPerOwner.insert owner counter
        volumes := s.manifest.volumes.insert meta_.id meta_ }
      ⟨.ok (.volume meta_), manifest,
        writeBody meta_.id.file (List.replicate sizeBytes.toNat 0) ++ saveManifest cd manifest⟩

/-- The snapshots of a volume, in key order. -/
def snapshotsOf (id : VolumeId) : List SnapshotId :=
  ((s.manifest.snapshots.entries.insertionSort (fun a b => a.1.raw ≤ b.1.raw)).filter (fun e => e.2.volume == id)).map
    (·.1)

/-- The body files go before the manifest is written. -/
def delete (id : VolumeId) : VaultPlan β :=
  let drop := s.snapshotsOf id
  let manifest := { s.manifest with
    volumes := s.manifest.volumes.erase id
    nextSnap := s.manifest.nextSnap.erase id
    snapshots := drop.foldl (fun m k => m.erase k) s.manifest.snapshots }
  ⟨.ok .done, manifest,
    (if (s.manifest.volumes.lookup id).isSome then [.remove id.file] else []) ++
      drop.map (fun k => .remove k.file) ++ saveManifest cd manifest⟩

def list : List VolumeMeta := Assoc.sorted (·.raw ≤ ·.raw) s.manifest.volumes

def get (id : VolumeId) : Option VolumeMeta := s.manifest.volumes.lookup id

/-- The checks of `read` and `write`; `what` is the word the messages use. -/
def range (id : VolumeId) (offset : UInt64) (len : Nat) (what : String) : CelResult Unit :=
  match s.manifest.volumes.lookup id with
  | none => .error (.invalid "volume: unknown id")
  | some meta_ =>
    match checkedAdd64 offset.toNat len with
    | none => .error (.invalid ("volume: " ++ what ++ " range overflow"))
    | some stop =>
      if stop > meta_.sizeBytes.toNat then .error (.invalid ("volume: " ++ what ++ " past end")) else .ok ()

def read (id : VolumeId) (offset : UInt64) (len : Nat) : CelResult (List UInt8) :=
  match s.range id offset len "read" with
  | .error e => .error e
  | .ok () =>
    match s.disk.bodies id.file with
    | none => .error (vaultIo "open volume" noSuchFile)
    | some body =>
      if body.length < offset.toNat + len then .error (vaultIo "read volume" "failed to fill whole buffer")
      else .ok ((body.drop offset.toNat).take len)

def write (id : VolumeId) (offset : UInt64) (data : List UInt8) : VaultPlan β :=
  match s.range id offset data.length "write" with
  | .error e => s.answer (.error e)
  | .ok () =>
    match s.disk.bodies id.file with
    | none => s.answer (.error (vaultIo "open volume rw" noSuchFile))
    | some _ => ⟨.ok .done, s.manifest, [.write id.file offset.toNat data, .sync id.file]⟩

def createSnapshot (id : VolumeId) (name : String) : VaultPlan β :=
  match MemVolumeStore.validateName name with
  | .error e => s.answer (.error e)
  | .ok () =>
    match s.manifest.volumes.lookup id with
    | none => s.answer (.error (.invalid "snapshot: unknown volume"))
    | some vol =>
      match s.disk.bodies id.file with
      | none => s.answer (.error (vaultIo "open body" noSuchFile))
      | some body =>
        if body.length ≠ vol.sizeBytes.toNat then
          s.answer (.error (.io "file vault: volume body size diverges from manifest"))
        else
          let counter := satAdd64 ((s.manifest.nextSnap.lookup id).getD 0) 1
          let meta_ : SnapshotMeta := { id := id.snapshot counter, volume := id, name, sizeBytes := vol.sizeBytes }
          let manifest := { s.manifest with
            nextSnap := s.manifest.nextSnap.insert id counter
            snapshots := s.manifest.snapshots.insert meta_.id meta_ }
          ⟨.ok (.snapshot meta_), manifest, writeBody meta_.id.file body ++ saveManifest cd manifest⟩

def listSnapshots (volume : Option VolumeId) : List SnapshotMeta :=
  (Assoc.sorted (·.raw ≤ ·.raw) s.manifest.snapshots).filter (fun sn => volume.all (fun v => sn.volume == v))

def deleteSnapshot (id : SnapshotId) : VaultPlan β :=
  let manifest := { s.manifest with snapshots := s.manifest.snapshots.erase id }
  ⟨.ok .done, manifest,
    (if (s.manifest.snapshots.lookup id).isSome then [.remove id.file] else []) ++ saveManifest cd manifest⟩

/-- The volume is the one in the snapshot's own record. -/
def restoreSnapshot (id : SnapshotId) : VaultPlan β :=
  match s.manifest.snapshots.lookup id with
  | none => s.answer (.error (.invalid "restore: unknown snapshot"))
  | some snap =>
    match s.manifest.volumes.lookup snap.volume with
    | none => s.answer (.error (.invalid "restore: volume gone"))
    | some vol =>
      if vol.sizeBytes ≠ snap.sizeBytes then s.answer (.error (.invalid "restore: volume size changed"))
      else match s.disk.bodies id.file with
        | none => s.answer (.error (vaultIo "open body" noSuchFile))
        | some bytes => ⟨.ok .done, s.manifest, writeBody snap.volume.file bytes⟩

def plan : VolumeOp → VaultPlan β
  | .create owner name size => s.create cd owner name size
  | .delete id => s.delete cd id
  | .list => s.answer (.ok (.volumes s.list))
  | .get id => s.answer (.ok (.found (s.get id)))
  | .read id offset len => s.answer ((s.read id offset len).map .bytes)
  | .write id offset data => s.write id offset data
  | .createSnapshot id name => s.createSnapshot cd id name
  | .listSnapshots volume => s.answer (.ok (.snapshots (s.listSnapshots volume)))
  | .deleteSnapshot id => s.deleteSnapshot cd id
  | .restoreSnapshot id => s.restoreSnapshot id

/-- A call, all of whose file-system calls are made. -/
def apply (op : VolumeOp) : CelResult VolumeReply × FileVolumeStore β :=
  ((s.plan cd op).reply, ⟨(s.plan cd op).manifest, s.disk.calls (s.plan cd op).calls⟩)

/-- The line for a body file that is not as long as it should be. -/
def checkBody (what id : String) (f : BodyFile) (sizeBytes : UInt64) : List String :=
  match s.disk.bodies f with
  | none => [what ++ " " ++ id ++ ": stat: " ++ noSuchFile]
  | some body =>
    if body.length = sizeBytes.toNat then []
    else [what ++ " " ++ id ++ ": on-disk len " ++ toString body.length ++ " != declared " ++ toString sizeBytes]

/-- `integrity_check`, over the files. -/
def integrityCheck : IntegrityReport where
  volumesChecked := s.list.foldl (fun n _ => satAdd32 n 1) 0
  snapshotsChecked := (s.listSnapshots none).foldl (fun n _ => satAdd32 n 1) 0
  errors :=
    (s.manifest.volumes.entries.insertionSort (fun a b => a.1.raw ≤ b.1.raw)).flatMap
      (fun e => s.checkBody "volume" e.1.raw e.1.file e.2.sizeBytes) ++
    (s.manifest.snapshots.entries.insertionSort (fun a b => a.1.raw ≤ b.1.raw)).flatMap
      (fun e => s.checkBody "snapshot" e.1.raw e.1.file e.2.sizeBytes)

end FileVolumeStore

/-! ## File names -/

theorem safeId_toList (s : String) : (safeId s).toList = s.toList.map safeChar := String.toList_ofList

theorem safeChar_digits (n : Nat) : (toString n).toList.map safeChar = (toString n).toList := by
  refine (List.map_congr_left fun c hc => ?_).trans (List.map_id _)
  have hne : ∀ d : Char, d.isDigit = false → c ≠ d := by
    rintro d hd rfl
    exact Text.not_mem_toString hd n hc
  exact if_neg (by simp [hne '/' (by decide), hne '@' (by decide), hne ':' (by decide), hne '\\' (by decide)])

/-- **Two volumes share a file if they share the counter and their owners look alike.** -/
theorem volumeId_file_inj {owner owner' : String} {n m : UInt64} :
    (MemVolumeStore.volumeId owner n).file = (MemVolumeStore.volumeId owner' m).file ↔
      safeId owner = safeId owner' ∧ n = m := by
  simp only [VolumeId.file, BodyFile.volume.injEq, ← String.toList_inj, safeId_toList,
    MemVolumeStore.toList_volumeId, List.map_append, List.map_cons, safeChar_digits]
  constructor
  · intro h
    obtain ⟨howner, hcounter⟩ := Text.counted_inj (by decide) h
    exact ⟨howner, UInt64.toNat_inj.1 hcounter⟩
  · rintro ⟨h, rfl⟩
    rw [h]

/-- Two snapshots share a file only if their volumes do. -/
theorem snapshot_file_inj {id id' : VolumeId} {n m : UInt64} (h : (id.snapshot n).file = (id'.snapshot m).file) :
    id.file = id'.file ∧ n = m := by
  simp only [SnapshotId.file, BodyFile.snapshot.injEq, ← String.toList_inj, safeId_toList,
    VolumeId.toList_snapshot, List.map_append, List.map_cons, safeChar_digits] at h
  obtain ⟨hid, hcounter⟩ := Text.counted_inj (by decide) h
  refine ⟨?_, UInt64.toNat_inj.1 hcounter⟩
  simp only [VolumeId.file, BodyFile.volume.injEq, ← String.toList_inj, safeId_toList]
  exact hid

theorem volume_file_ne_snapshot (id : VolumeId) (sn : SnapshotId) : id.file ≠ sn.file := nofun

/-! ## What the file-system calls come to -/

namespace VaultDisk

variable {β : Type} (d : VaultDisk β)

@[simp] theorem setBody_self (f : BodyFile) (b : Option (List UInt8)) : (d.setBody f b).bodies f = b := by
  simp [setBody]

theorem setBody_of_ne {f g : BodyFile} (h : g ≠ f) (b : Option (List UInt8)) : (d.setBody f b).bodies g = d.bodies g := by
  simp [setBody, h]

theorem calls_append (cs ds : List (FsCall β)) : d.calls (cs ++ ds) = (d.calls cs).calls ds := List.foldl_append

theorem calls_writeBody (f : BodyFile) (bytes : List UInt8) : d.calls (writeBody f bytes) = d.setBody f (some bytes) := by
  simp [writeBody, calls, call, setBody, overwrite]

theorem calls_saveManifest (cd : ManifestCodec β) (m : Manifest) :
    d.calls (FileVolumeStore.saveManifest cd m) = { d with manifest := some (.json (cd.encode m)), tmp := none } := by
  simp [FileVolumeStore.saveManifest, calls, call]

/-- Files are removed, and nothing else is touched. -/
theorem calls_remove (fs : List BodyFile) :
    d.calls (fs.map .remove) = { d with bodies := fun f => if f ∈ fs then none else d.bodies f } := by
  induction fs generalizing d with
  | nil => simp [calls]
  | cons g fs ih =>
    change (d.call (.remove g)).calls (fs.map .remove) = _
    rw [ih]
    simp only [call, setBody, List.mem_cons, VaultDisk.mk.injEq, true_and]
    funext f
    by_cases hf : f = g
    · simp [hf]
    · simp [hf]

end VaultDisk

theorem overwrite_length {offset : Nat} {data body : List UInt8} (h : offset + data.length ≤ body.length) :
    (overwrite offset data body).length = body.length := by
  simp only [overwrite, List.length_append, List.length_take, List.length_replicate, List.length_drop]
  omega

/-! ## What a delete drops -/

theorem FileVolumeStore.mem_snapshotsOf {β : Type} (s : FileVolumeStore β) {id : VolumeId} {k : SnapshotId} :
    k ∈ s.snapshotsOf id ↔ ∃ sn, s.manifest.snapshots.lookup k = some sn ∧ sn.volume = id := by
  simp only [snapshotsOf, List.mem_map, List.mem_filter, beq_iff_eq, (List.perm_insertionSort _ _).mem_iff]
  constructor
  · rintro ⟨⟨k', sn⟩, ⟨hmem, hvol⟩, rfl⟩
    exact ⟨sn, AList.mem_lookup_iff.2 hmem, hvol⟩
  · rintro ⟨sn, hsn, hvol⟩
    exact ⟨⟨k, sn⟩, ⟨AList.mem_lookup_iff.1 hsn, hvol⟩, rfl⟩

/-- The manifest without a volume and its snapshots. -/
def FileVolumeStore.withoutVolume {β : Type} (s : FileVolumeStore β) (id : VolumeId) : Manifest :=
  { s.manifest with
    volumes := s.manifest.volumes.erase id
    nextSnap := s.manifest.nextSnap.erase id
    snapshots := (s.snapshotsOf id).foldl (fun m k => m.erase k) s.manifest.snapshots }

/-- The body files that a delete removes, in order. -/
def FileVolumeStore.dropped {β : Type} (s : FileVolumeStore β) (id : VolumeId) : List BodyFile :=
  (if (s.manifest.volumes.lookup id).isSome then [id.file] else []) ++ (s.snapshotsOf id).map SnapshotId.file

theorem FileVolumeStore.mem_dropped {β : Type} {s : FileVolumeStore β} {id : VolumeId} {f : BodyFile} :
    f ∈ s.dropped id ↔
      f = id.file ∧ (s.manifest.volumes.lookup id).isSome ∨ ∃ k ∈ s.snapshotsOf id, SnapshotId.file k = f := by
  simp only [dropped, List.mem_append, List.mem_map]
  split
  · rename_i hsome
    simp [hsome]
  · rename_i hnone
    simp [hnone]

theorem FileVolumeStore.delete_eq {β : Type} (cd : ManifestCodec β) (s : FileVolumeStore β) (id : VolumeId) :
    s.delete cd id = ⟨.ok .done, s.withoutVolume id,
      (s.dropped id).map .remove ++ saveManifest cd (s.withoutVolume id)⟩ := by
  simp only [delete, dropped, List.map_append, List.map_map, VaultPlan.mk.injEq, true_and]
  refine ⟨rfl, ?_⟩
  split
  · rfl
  · rfl

/-- The manifest without a snapshot. -/
def FileVolumeStore.withoutSnapshot {β : Type} (s : FileVolumeStore β) (id : SnapshotId) : Manifest :=
  { s.manifest with snapshots := s.manifest.snapshots.erase id }

/-- The body file that a `delete_snapshot` removes, if it does. -/
def FileVolumeStore.droppedSnapshot {β : Type} (s : FileVolumeStore β) (id : SnapshotId) : List BodyFile :=
  if (s.manifest.snapshots.lookup id).isSome then [id.file] else []

theorem FileVolumeStore.mem_droppedSnapshot {β : Type} {s : FileVolumeStore β} {id : SnapshotId} {f : BodyFile} :
    f ∈ s.droppedSnapshot id ↔ f = id.file ∧ (s.manifest.snapshots.lookup id).isSome := by
  unfold droppedSnapshot
  split
  · rename_i hsome
    simp [hsome]
  · rename_i hnone
    simp [hnone]

theorem FileVolumeStore.deleteSnapshot_eq {β : Type} (cd : ManifestCodec β) (s : FileVolumeStore β) (id : SnapshotId) :
    s.deleteSnapshot cd id = ⟨.ok .done, s.withoutSnapshot id,
      (s.droppedSnapshot id).map .remove ++ saveManifest cd (s.withoutSnapshot id)⟩ := by
  simp only [deleteSnapshot, droppedSnapshot, VaultPlan.mk.injEq, true_and]
  refine ⟨rfl, ?_⟩
  split
  · rfl
  · rfl

/-! ## What a create plans -/

namespace FileVolumeStore

variable {β : Type} (cd : ManifestCodec β) (s : FileVolumeStore β) (owner : String) {name : String} {sizeBytes : UInt64}

/-- The id that the next create gives out. -/
def nextId : VolumeId :=
  MemVolumeStore.volumeId owner (satAdd64 ((s.manifest.nextPerOwner.lookup owner).getD 0) 1)

/-- The manifest with a new volume. -/
def withVolume (name : String) (sizeBytes : UInt64) : Manifest :=
  { s.manifest with
    nextPerOwner := s.manifest.nextPerOwner.insert owner (satAdd64 ((s.manifest.nextPerOwner.lookup owner).getD 0) 1)
    volumes := s.manifest.volumes.insert (s.nextId owner) ⟨s.nextId owner, owner, name, sizeBytes⟩ }

theorem create_valid (h : CreateOk name sizeBytes) :
    s.create cd owner name sizeBytes =
      ⟨.ok (.volume ⟨s.nextId owner, owner, name, sizeBytes⟩), s.withVolume owner name sizeBytes,
        writeBody (s.nextId owner).file (List.replicate sizeBytes.toNat 0) ++
          saveManifest cd (s.withVolume owner name sizeBytes)⟩ := by
  simp only [create, h.1, if_neg h.2.1, if_neg h.2.2]
  rfl

theorem create_invalid (h : ¬ CreateOk name sizeBytes) :
    ∃ e, s.create cd owner name sizeBytes = s.answer (.error e) := by
  unfold create
  cases hname : MemVolumeStore.validateName name with
  | error e => exact ⟨e, rfl⟩
  | ok u =>
    simp only
    split
    · exact ⟨_, rfl⟩
    · split
      · exact ⟨_, rfl⟩
      · exact absurd ⟨hname, ‹_›, ‹_›⟩ h

/-! ## What the other calls plan -/

/-- The id that the next snapshot of a volume gets. -/
def nextSnapshotId (id : VolumeId) : SnapshotId := id.snapshot (satAdd64 ((s.manifest.nextSnap.lookup id).getD 0) 1)

/-- The manifest with a new snapshot. -/
def withSnapshot (id : VolumeId) (name : String) (sizeBytes : UInt64) : Manifest :=
  { s.manifest with
    nextSnap := s.manifest.nextSnap.insert id (satAdd64 ((s.manifest.nextSnap.lookup id).getD 0) 1)
    snapshots := s.manifest.snapshots.insert (s.nextSnapshotId id) ⟨s.nextSnapshotId id, id, name, sizeBytes⟩ }

/-- **A snapshot is made of a volume whose body is as long as it should be.** -/
theorem createSnapshot_cases (id : VolumeId) (name : String) :
    ((∃ e, s.createSnapshot cd id name = s.answer (.error e)) ∧
      (MemVolumeStore.validateName name = .ok () → ∀ vol body, s.manifest.volumes.lookup id = some vol →
        s.disk.bodies id.file = some body → body.length ≠ vol.sizeBytes.toNat)) ∨
      ∃ vol body, MemVolumeStore.validateName name = .ok () ∧ s.manifest.volumes.lookup id = some vol ∧
        s.disk.bodies id.file = some body ∧ body.length = vol.sizeBytes.toNat ∧
        s.createSnapshot cd id name =
          ⟨.ok (.snapshot ⟨s.nextSnapshotId id, id, name, vol.sizeBytes⟩), s.withSnapshot id name vol.sizeBytes,
            writeBody (s.nextSnapshotId id).file body ++ saveManifest cd (s.withSnapshot id name vol.sizeBytes)⟩ := by
  cases hname : MemVolumeStore.validateName name with
  | error e => exact .inl ⟨⟨e, by simp only [createSnapshot, hname]⟩, nofun⟩
  | ok u =>
    cases hvol : s.manifest.volumes.lookup id with
    | none => exact .inl ⟨⟨_, by simp only [createSnapshot, hname, hvol]; rfl⟩, nofun⟩
    | some vol =>
      cases hbody : s.disk.bodies id.file with
      | none => exact .inl ⟨⟨_, by simp only [createSnapshot, hname, hvol, hbody]; rfl⟩, nofun⟩
      | some body =>
        by_cases hlen : body.length = vol.sizeBytes.toNat
        · refine .inr ⟨vol, body, rfl, rfl, rfl, hlen, ?_⟩
          simp only [createSnapshot, hname, hvol, hbody, ne_eq, hlen, not_true_eq_false, if_false]
          rfl
        · refine .inl ⟨⟨_, by simp only [createSnapshot, hname, hvol, hbody, ne_eq, hlen, not_false_eq_true, if_true]; rfl⟩, ?_⟩
          rintro - _ _ ⟨⟩ ⟨⟩
          exact hlen

/-- **A write reaches the body file of a volume that is there, within its size.** -/
theorem write_cases (id : VolumeId) (offset : UInt64) (data : List UInt8) :
    (∃ e, s.write id offset data = s.answer (.error e)) ∨
      ∃ vol body, s.manifest.volumes.lookup id = some vol ∧ s.disk.bodies id.file = some body ∧
        offset.toNat + data.length ≤ vol.sizeBytes.toNat ∧
        s.write id offset data = ⟨.ok .done, s.manifest, [.write id.file offset.toNat data, .sync id.file]⟩ := by
  unfold write range
  split
  · exact .inl ⟨_, rfl⟩
  · rename_i hrange
    split
    · exact .inl ⟨_, rfl⟩
    · rename_i body hbody
      split at hrange
      · cases hrange
      · rename_i vol hvol
        split at hrange
        · cases hrange
        · rename_i stop hstop
          obtain ⟨rfl, -⟩ := checkedAdd64_eq_some hstop
          split at hrange
          · cases hrange
          · exact .inr ⟨vol, body, hvol, hbody, by omega, rfl⟩

/-- **A restore writes over the body file of the volume in the snapshot's record.** -/
theorem restoreSnapshot_cases (id : SnapshotId) :
    (∃ e, s.restoreSnapshot id = s.answer (.error e)) ∨
      ∃ snap vol bytes, s.manifest.snapshots.lookup id = some snap ∧ s.manifest.volumes.lookup snap.volume = some vol ∧
        s.disk.bodies id.file = some bytes ∧
        s.restoreSnapshot id = ⟨.ok .done, s.manifest, writeBody snap.volume.file bytes⟩ := by
  unfold restoreSnapshot
  split
  · exact .inl ⟨_, rfl⟩
  · rename_i snap hsnap
    split
    · exact .inl ⟨_, rfl⟩
    · rename_i vol hvol
      split
      · exact .inl ⟨_, rfl⟩
      · split
        · exact .inl ⟨_, rfl⟩
        · rename_i bytes hbytes
          exact .inr ⟨snap, vol, bytes, hsnap, hvol, hbytes, rfl⟩

end FileVolumeStore

/-! ## The shape of a plan -/

/-- A call on a body file. -/
def FsCall.OnBody {β : Type} : FsCall β → Prop
  | .create _ | .write .. | .sync _ | .remove _ => True
  | _ => False

/-- The manifest stays what it is until the rename. -/
theorem VaultDisk.calls_manifest {β : Type} {cs : List (FsCall β)} (h : ∀ c ∈ cs, c ≠ .renameTmp) (d : VaultDisk β) :
    (d.calls cs).manifest = d.manifest := by
  induction cs generalizing d with
  | nil => rfl
  | cons c cs ih =>
    change ((d.call c).calls cs).manifest = _
    rw [ih (fun c' hc' => h c' (List.mem_cons_of_mem _ hc'))]
    have hc := h c List.mem_cons_self
    cases c with
    | create f | write f offset data | sync f | remove f => rfl
    | createTmp | writeTmp b | syncTmp => rfl
    | renameTmp => exact absurd rfl hc

theorem FsCall.OnBody.ne_rename {β : Type} {c : FsCall β} (h : c.OnBody) : c ≠ .renameTmp := by
  rintro rfl
  exact h

theorem VaultDisk.calls_onBody {β : Type} {cs : List (FsCall β)} (h : ∀ c ∈ cs, c.OnBody) (d : VaultDisk β) :
    (d.calls cs).manifest = d.manifest :=
  calls_manifest (fun c hc => (h c hc).ne_rename) d

theorem onBody_writeBody {β : Type} (f : BodyFile) (bytes : List UInt8) :
    ∀ c ∈ (writeBody f bytes : List (FsCall β)), c.OnBody := by
  simp [writeBody, FsCall.OnBody]

theorem onBody_remove {β : Type} (fs : List BodyFile) : ∀ c ∈ (fs.map .remove : List (FsCall β)), c.OnBody := by
  simp [FsCall.OnBody]

/-- The body file a call changes. -/
def FsCall.file {β : Type} : FsCall β → Option BodyFile
  | .create f | .write f _ _ | .remove f => some f
  | _ => none

/-- A file that no call names stays as it is. -/
theorem VaultDisk.calls_bodies {β : Type} {cs : List (FsCall β)} {f : BodyFile} (h : ∀ c ∈ cs, c.file ≠ some f)
    (d : VaultDisk β) : (d.calls cs).bodies f = d.bodies f := by
  induction cs generalizing d with
  | nil => rfl
  | cons c cs ih =>
    change ((d.call c).calls cs).bodies f = _
    rw [ih (fun c' hc' => h c' (List.mem_cons_of_mem _ hc'))]
    have hc := h c List.mem_cons_self
    cases c with
    | create g | write g offset data | remove g => exact d.setBody_of_ne (fun hfg => hc (by rw [hfg]; rfl)) _
    | sync g => rfl
    | createTmp | writeTmp b | syncTmp | renameTmp => rfl

theorem file_saveManifest {β : Type} (cd : ManifestCodec β) (m : Manifest) :
    ∀ c ∈ FileVolumeStore.saveManifest cd m, c.file = none := by
  simp [FileVolumeStore.saveManifest, FsCall.file]

theorem file_writeBody {β : Type} {f : BodyFile} {bytes : List UInt8} {c : FsCall β} (hc : c ∈ writeBody f bytes)
    {g : BodyFile} (hg : c.file = some g) : g = f := by
  simp only [writeBody, List.mem_cons, List.not_mem_nil, or_false] at hc
  rcases hc with rfl | rfl | rfl
  · exact (Option.some.inj hg).symm
  · exact (Option.some.inj hg).symm
  · cases hg

namespace FileVolumeStore

variable {β : Type} (cd : ManifestCodec β) (s : FileVolumeStore β)

/-- **A call works on body files and then saves its manifest, or on body files only and leaves the manifest.** -/
theorem plan_shape (op : VolumeOp) :
    (∃ cs, (∀ c ∈ cs, c.OnBody) ∧ (s.plan cd op).calls = cs ++ saveManifest cd (s.plan cd op).manifest) ∨
      (∀ c ∈ (s.plan cd op).calls, c.OnBody) ∧ (s.plan cd op).manifest = s.manifest := by
  have hanswer : ∀ reply, (∀ c ∈ (s.answer reply).calls, c.OnBody) ∧ (s.answer reply).manifest = s.manifest :=
    fun reply => ⟨(fun c hc => by cases hc), rfl⟩
  cases op with
  | create owner name size =>
    by_cases hok : CreateOk name size
    · refine .inl ⟨_, ?_, by rw [plan, s.create_valid cd owner hok]⟩
      exact onBody_writeBody _ _
    · obtain ⟨e, he⟩ := s.create_invalid cd owner hok
      rw [plan, he]
      exact .inr (hanswer _)
  | delete id =>
    rw [plan, s.delete_eq]
    exact .inl ⟨_, onBody_remove _, rfl⟩
  | list | get id | read id offset len | listSnapshots volume => exact .inr (hanswer _)
  | write id offset data =>
    right
    rcases s.write_cases id offset data with ⟨e, he⟩ | ⟨vol, body, -, -, -, hplan⟩
    · rw [plan, he]
      exact hanswer _
    · rw [plan, hplan]
      simp [FsCall.OnBody]
  | createSnapshot id name =>
    rcases s.createSnapshot_cases cd id name with ⟨⟨e, he⟩, -⟩ | ⟨vol, body, -, -, -, -, hplan⟩
    · rw [plan, he]
      exact .inr (hanswer _)
    · rw [plan, hplan]
      exact .inl ⟨_, onBody_writeBody _ _, rfl⟩
  | deleteSnapshot id =>
    rw [plan, s.deleteSnapshot_eq]
    exact .inl ⟨_, onBody_remove _, rfl⟩
  | restoreSnapshot id =>
    right
    rcases s.restoreSnapshot_cases id with ⟨e, he⟩ | ⟨snap, vol, bytes, -, -, -, hplan⟩
    · rw [plan, he]
      exact hanswer _
    · rw [plan, hplan]
      exact ⟨onBody_writeBody _ _, rfl⟩

/-- **What a call can do to the manifest.** -/
theorem plan_manifest (op : VolumeOp) :
    ((s.plan cd op).manifest = s.manifest ∧ ∀ owner name size, op = .create owner name size → ¬ CreateOk name size) ∨
    (∃ owner name size, op = .create owner name size ∧ CreateOk name size ∧
      (s.plan cd op).manifest = s.withVolume owner name size) ∨
    (∃ id, op = .delete id ∧ (s.plan cd op).manifest = s.withoutVolume id) ∨
    (∃ id name vol, op = .createSnapshot id name ∧ s.manifest.volumes.lookup id = some vol ∧
      (s.plan cd op).manifest = s.withSnapshot id name vol.sizeBytes) ∨
    ∃ id, op = .deleteSnapshot id ∧ (s.plan cd op).manifest = s.withoutSnapshot id := by
  cases op with
  | create owner name size =>
    by_cases hok : CreateOk name size
    · exact .inr (.inl ⟨owner, name, size, rfl, hok, by rw [plan, s.create_valid cd owner hok]⟩)
    · obtain ⟨e, he⟩ := s.create_invalid cd owner hok
      refine .inl ⟨by rw [plan, he]; rfl, ?_⟩
      rintro _ _ _ ⟨rfl, rfl, rfl⟩
      exact hok
  | delete id => exact .inr (.inr (.inl ⟨id, rfl, by rw [plan, s.delete_eq]⟩))
  | list | get id | read id offset len | listSnapshots volume => exact .inl ⟨rfl, nofun⟩
  | write id offset data =>
    refine .inl ⟨?_, nofun⟩
    rcases s.write_cases id offset data with ⟨e, he⟩ | ⟨vol, body, -, -, -, hplan⟩
    · rw [plan, he]
      rfl
    · rw [plan, hplan]
  | createSnapshot id name =>
    rcases s.createSnapshot_cases cd id name with ⟨⟨e, he⟩, -⟩ | ⟨vol, body, -, hvol, -, -, hplan⟩
    · exact .inl ⟨by rw [plan, he]; rfl, nofun⟩
    · exact .inr (.inr (.inr (.inl ⟨id, name, vol, rfl, hvol, by rw [plan, hplan]⟩)))
  | deleteSnapshot id => exact .inr (.inr (.inr (.inr ⟨id, rfl, by rw [plan, s.deleteSnapshot_eq]⟩)))
  | restoreSnapshot id =>
    refine .inl ⟨?_, nofun⟩
    rcases s.restoreSnapshot_cases id with ⟨e, he⟩ | ⟨snap, vol, bytes, -, -, -, hplan⟩
    · rw [plan, he]
      rfl
    · rw [plan, hplan]

/-- What is on disk is what is in memory. -/
def Saved : Prop :=
  s.disk.manifest = some (.json (cd.encode s.manifest)) ∨ s.disk.manifest = none ∧ s.manifest = default

variable {cd s}

theorem apply_saved (h : s.Saved cd) (op : VolumeOp) : (s.apply cd op).2.Saved cd := by
  rcases s.plan_shape cd op with ⟨cs, -, hcalls⟩ | ⟨hbody, hmanifest⟩
  · refine .inl ?_
    simp only [apply, hcalls, VaultDisk.calls_append, VaultDisk.calls_saveManifest]
  · simp only [Saved, apply, VaultDisk.calls_onBody hbody, hmanifest]
    exact h

/-- A store that is saved is opened again as it is. -/
theorem openOrCreate_saved (h : s.Saved cd) : openOrCreate cd s.disk = .ok s := by
  rcases h with hsaved | ⟨hnone, hdefault⟩
  · rw [openOrCreate, hsaved]
    simp only [cd.round_trip]
  · rw [openOrCreate, hnone]
    simp only [← hdefault]

end FileVolumeStore

end Celium
