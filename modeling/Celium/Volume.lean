import Celium.Common
import Celium.Lib.Assoc
import Celium.Lib.Fixed
import Celium.Lib.Text
import Mathlib.Data.String.Basic
/-!
# Volume — volumes, snapshots and the in-memory volume store

`celvault`'s records and `MemVolumeStore`.  A `BTreeMap` is an association list without duplicate keys, listed in key
order; a method that changes the store returns its answer beside the store it leaves.  The two numeric conversions of
`read` and `write` are those of a 64-bit `usize`.
-/
namespace Celium

open Fixed

/-- `VolumeId(String)`, in the form `<owner>/v<counter>`. -/
@[ext] structure VolumeId where
  raw : String
deriving DecidableEq, Repr

/-- `SnapshotId(String)`, in the form `<volume>@s<counter>`. -/
@[ext] structure SnapshotId where
  raw : String
deriving DecidableEq, Repr

/-- The volume part is what stands before the first `@`. -/
def SnapshotId.split (id : SnapshotId) : Option (VolumeId × Nat) :=
  match Text.splitOnce '@' id.raw.toList with
  | none => none
  | some (vol, tail) =>
    match tail with
    | 's' :: digits => (Text.parseUnsigned u64Max digits).map (fun n => (⟨String.ofList vol⟩, n))
    | _ => none

structure VolumeMeta where
  id : VolumeId
  owner : String
  name : String
  sizeBytes : UInt64
deriving DecidableEq, Repr

structure SnapshotMeta where
  id : SnapshotId
  volume : VolumeId
  name : String
  sizeBytes : UInt64
deriving DecidableEq, Repr

structure VolumeAttachment where
  volumeId : VolumeId
  mountName : String
deriving DecidableEq, Repr

def maxName : Nat := 64
def maxMount : Nat := 32
def maxVolumeBytes : UInt64 := 64 * 1024 * 1024

structure MemVolume where
  meta_ : VolumeMeta
  body : List UInt8
deriving DecidableEq, Repr

structure MemSnapshot where
  meta_ : SnapshotMeta
  body : List UInt8
deriving DecidableEq, Repr

structure MemVolumeStore where
  next : UInt64
  rows : AList (fun _ : VolumeId => MemVolume)
  nextSnap : AList (fun _ : VolumeId => UInt64)
  snaps : AList (fun _ : SnapshotId => MemSnapshot)
deriving DecidableEq

instance : Inhabited MemVolumeStore := ⟨⟨0, ∅, ∅, ∅⟩⟩

namespace MemVolumeStore

def validateName (name : String) : CelResult Unit :=
  if name.isEmpty then .error (.invalid "volume name: empty")
  else if name.utf8ByteSize > maxName then .error (.invalid "volume name: too long")
  else .ok ()

/-- The id of the `n`-th volume, for the node `owner`. -/
def volumeId (owner : String) (n : UInt64) : VolumeId := ⟨owner ++ "/v" ++ toString n.toNat⟩

def create (s : MemVolumeStore) (owner name : String) (sizeBytes : UInt64) : CelResult VolumeMeta × MemVolumeStore :=
  match validateName name with
  | .error e => (.error e, s)
  | .ok () =>
    if sizeBytes = 0 then (.error (.invalid "volume size: must be > 0"), s)
    else if sizeBytes > maxVolumeBytes then (.error (.invalid "volume size: exceeds MAX_VOLUME_BYTES"), s)
    else
      let next := satAdd64 s.next 1
      let meta_ : VolumeMeta := { id := volumeId owner next, owner, name, sizeBytes }
      let body := List.replicate sizeBytes.toNat 0
      (.ok meta_, { s with next, rows := s.rows.insert meta_.id ⟨meta_, body⟩ })

/-- A missing volume is deleted already.  Snapshots go with their volume. -/
def delete (s : MemVolumeStore) (id : VolumeId) : CelResult Unit × MemVolumeStore :=
  let drop := (s.snaps.entries.filter (fun e => e.2.meta_.volume == id)).map (·.1)
  (.ok (), { s with rows := s.rows.erase id, nextSnap := s.nextSnap.erase id,
                    snaps := drop.foldl (fun m k => m.erase k) s.snaps })

def list (s : MemVolumeStore) : List VolumeMeta := (Assoc.sorted (·.raw ≤ ·.raw) s.rows).map (·.meta_)

def get (s : MemVolumeStore) (id : VolumeId) : Option VolumeMeta := (s.rows.lookup id).map (·.meta_)

/-- The checks of `read` and `write`: the volume, if `len` bytes from `offset` on are inside it.  `what` is the word the
messages use. -/
def range (s : MemVolumeStore) (id : VolumeId) (offset : UInt64) (len : Nat) (what : String) : CelResult MemVolume :=
  match s.rows.lookup id with
  | none => .error (.invalid "volume: unknown id")
  | some v =>
    match checkedAdd64 offset.toNat len with
    | none => .error (.invalid ("volume: " ++ what ++ " range overflow"))
    | some stop => if stop > v.body.length then .error (.invalid ("volume: " ++ what ++ " past end")) else .ok v

def read (s : MemVolumeStore) (id : VolumeId) (offset : UInt64) (len : Nat) : CelResult (List UInt8) :=
  match s.range id offset len "read" with
  | .error e => .error e
  | .ok v => .ok ((v.body.drop offset.toNat).take len)

def write (s : MemVolumeStore) (id : VolumeId) (offset : UInt64) (data : List UInt8) :
    CelResult Unit × MemVolumeStore :=
  match s.range id offset data.length "write" with
  | .error e => (.error e, s)
  | .ok v =>
    let body := v.body.take offset.toNat ++ data ++ v.body.drop (offset.toNat + data.length)
    (.ok (), { s with rows := s.rows.insert id { v with body } })

def createSnapshot (s : MemVolumeStore) (id : VolumeId) (name : String) : CelResult SnapshotMeta × MemVolumeStore :=
  match validateName name with
  | .error e => (.error e, s)
  | .ok () =>
    match s.rows.lookup id with
    | none => (.error (.invalid "snapshot: unknown volume"), s)
    | some v =>
      let counter := satAdd64 ((s.nextSnap.lookup id).getD 0) 1
      let snapId : SnapshotId := ⟨id.raw ++ "@s" ++ toString counter.toNat⟩
      let meta_ : SnapshotMeta := { id := snapId, volume := id, name, sizeBytes := UInt64.ofNat v.body.length }
      (.ok meta_, { s with nextSnap := s.nextSnap.insert id counter, snaps := s.snaps.insert snapId ⟨meta_, v.body⟩ })

def listSnapshots (s : MemVolumeStore) (volume : Option VolumeId) : List SnapshotMeta :=
  ((Assoc.sorted (·.raw ≤ ·.raw) s.snaps).filter (fun sn => volume.all (fun v => sn.meta_.volume == v))).map (·.meta_)

def deleteSnapshot (s : MemVolumeStore) (id : SnapshotId) : CelResult Unit × MemVolumeStore :=
  (.ok (), { s with snaps := s.snaps.erase id })

/-- The volume is found by splitting the id, not by the snapshot's own record. -/
def restoreSnapshot (s : MemVolumeStore) (id : SnapshotId) : CelResult Unit × MemVolumeStore :=
  match s.snaps.lookup id with
  | none => (.error (.invalid "restore: unknown snapshot"), s)
  | some sn =>
    match id.split with
    | none => (.error (.invalid "restore: malformed snapshot id"), s)
    | some (volId, _) =>
      match s.rows.lookup volId with
      | none => (.error (.invalid "restore: volume gone"), s)
      | some v =>
        if v.body.length ≠ sn.body.length then (.error (.invalid "restore: volume size changed"), s)
        else (.ok (), { s with rows := s.rows.insert volId { v with body := sn.body } })

end MemVolumeStore

end Celium
