import Celium.DiskImage
/-!
# Qcow2 — the reader of QEMU's copy-on-write images

`Qcow2Image::open` and `read_at`, and the disk that the two levels of tables of a file describe.
-/
namespace Celium

open Bytes Checked

namespace Qcow2

def magic : List UInt8 := [0x51, 0x46, 0x49, 0xfb]

def l2EntryCompressed : Nat := 2 ^ 62
def l2EntryZeroCluster : Nat := 2 ^ 0
def l2EntryOffsetMask : Nat := 0x00fffffffffffe00

structure Header where
  version : Nat
  clusterBits : Nat
  clusterSize : Nat
  size : Nat
  cryptMethod : Nat
  backingFileOffset : Nat
  l1Size : Nat
  l1TableOffset : Nat
  incompatibleFeatures : Nat
deriving DecidableEq, Repr

/-- `u32::from_be_bytes(buf[off..off + 4])` and its like. -/
def beField (buf : List UInt8) (off w : Nat) : Nat := beNat (slice buf off w)

def parseHeader (f : DiskFile) : Outcome CelError Header := do
  f.seek "seek 0" 0
  let (buf, n) := f.readHeader 104
  if n < 72 then .error (.err (.invalid "qcow2: header truncated"))
  else if slice buf 0 4 ≠ magic then .error (.err (.invalid "qcow2: bad magic"))
  else if beField buf 4 4 ≠ 2 ∧ beField buf 4 4 ≠ 3 then .error (.err (.invalid "qcow2: only v2/v3 supported"))
  else if 64 ≤ beField buf 20 4 then .error (.err (.invalid "qcow2: cluster_bits out of range"))
  else
    .ok {
      version := beField buf 4 4
      clusterBits := beField buf 20 4
      clusterSize := 2 ^ beField buf 20 4
      size := beField buf 24 8
      cryptMethod := beField buf 32 4
      backingFileOffset := beField buf 8 8
      l1Size := beField buf 36 4
      l1TableOffset := beField buf 40 8
      incompatibleFeatures := if 3 ≤ beField buf 4 4 ∧ 80 ≤ n then beField buf 72 8 else 0
    }

/-- The `incompatible_features` that are refused: compression type and extended L2 entries. -/
def unsupported : Nat := 2 ^ 3 ||| 2 ^ 4

def validateHeader (h : Header) : Outcome CelError Unit :=
  if ¬ (9 ≤ h.clusterBits ∧ h.clusterBits ≤ 21) then
    .error (.err (.invalid "qcow2: cluster_bits outside spec range 9..=21"))
  else if h.cryptMethod ≠ 0 then .error (.err (.invalid "qcow2: encrypted images not supported"))
  else if h.backingFileOffset ≠ 0 then .error (.err (.invalid "qcow2: backing-file chains not supported"))
  else if h.l1TableOffset = 0 ∨ h.l1TableOffset &&& 0x1ff ≠ 0 then
    .error (.err (.invalid "qcow2: invalid l1_table_offset"))
  else if 3 ≤ h.version ∧ h.incompatibleFeatures &&& unsupported ≠ 0 then
    .error (.err (.invalid "qcow2: incompatible_features bit not supported (compress/extended-l2)"))
  else .ok ()

end Qcow2

/-- `Qcow2Image`: the file, its header, and the L1 table as read when it was opened. -/
structure Qcow2Image where
  file : DiskFile
  header : Qcow2.Header
  l1 : List Nat

namespace Qcow2Image

open Qcow2

def «open» (f : DiskFile) : Outcome CelError Qcow2Image := do
  let header ← parseHeader f
  validateHeader header
  let l1Bytes ← mul64 header.l1Size 8
  alloc l1Bytes
  f.seek ("seek l1 " ++ f.path) header.l1TableOffset
  let raw ← f.readExact .storage ("read l1 " ++ f.path) header.l1TableOffset l1Bytes
  .ok { file := f, header, l1 := (chunksExact 8 raw).map beNat }

variable (img : Qcow2Image)

/-- `read_at` from its L2 entry on. -/
def readEntry (l2Entry intra take : Nat) : Outcome CelError (List UInt8) :=
  if l2Entry &&& l2EntryCompressed ≠ 0 then .error (.err (.invalid "qcow2: compressed cluster not supported"))
  else if 3 ≤ img.header.version ∧ l2Entry &&& l2EntryZeroCluster ≠ 0 then .ok (List.replicate take 0)
  else
    let dataOffset := l2Entry &&& l2EntryOffsetMask
    if dataOffset = 0 then .ok (List.replicate take 0)
    else do
      let dataOff ← add64 dataOffset intra
      img.file.seek ("seek data " ++ img.file.path) dataOff
      .ok (img.file.readFill take dataOff take)

/-- `read_at` from its L1 entry on. -/
def readTable (l1Entry l2Index intra take : Nat) : Outcome CelError (List UInt8) :=
  let l2Offset := l1Entry &&& l2EntryOffsetMask
  -- The whole L2 table is unallocated.
  if l2Offset = 0 then .ok (List.replicate take 0)
  else do
    let entryOff ← mul64 l2Index 8
    let entryOff ← add64 l2Offset entryOff
    img.file.seek ("seek l2 " ++ img.file.path) entryOff
    let entryBytes ← img.file.readExact .storage ("read l2 " ++ img.file.path) entryOff 8
    img.readEntry (beNat entryBytes) intra take

def readAt (offset len : Nat) : Outcome CelError (List UInt8) :=
  if len = 0 then .ok []
  else if img.header.size ≤ offset then .ok []
  else
    let max := min len (img.header.size - offset)
    let cs := img.header.clusterSize
    let clusterIdx := offset / cs
    let intra := offset % cs
    let take := min max (cs - intra)
    let l2EntriesPerCluster := cs / 8
    let l1Index := clusterIdx / l2EntriesPerCluster
    let l2Index := clusterIdx % l2EntriesPerCluster
    match img.l1[l1Index]? with
    | none => .error (.err (.invalid "qcow2: l1 index past l1 table"))
    | some l1Entry => img.readTable l1Entry l2Index intra take

/-- `impl DiskImage for Qcow2Image`. -/
def disk : DiskImage := ⟨img.header.size, img.readAt⟩

end Qcow2Image

/-! ## The disk that the tables describe -/

namespace Qcow2

variable (f : DiskFile) (h : Header)

/-- The file offset in an L1 or L2 entry: its bits 9 to 55. -/
def tableOffset (entry : Nat) : Nat := 2 ^ 9 * (entry % 2 ^ 56 / 2 ^ 9)

def l1Index (o : Nat) : Nat := o / h.clusterSize / (h.clusterSize / 8)

/-- The L1 entry for a byte of the disk, if the table has one. -/
def l1Entry (o : Nat) : Option Nat :=
  if l1Index h o < h.l1Size then some (beNat (slice f.bytes (h.l1TableOffset + 8 * l1Index h o) 8)) else none

/-- Where the L2 entry for a byte of the disk is, in the table at `l2`. -/
def l2At (l2 o : Nat) : Nat := l2 + 8 * (o / h.clusterSize % (h.clusterSize / 8))

def l2Entry (l2 o : Nat) : Nat := beNat (slice f.bytes (l2At h l2 o) 8)

/-- A cluster that version 3 marks as zeros. -/
def isZero (entry : Nat) : Prop := 3 ≤ h.version ∧ entry.testBit 0 = true

instance (entry : Nat) : Decidable (isZero h entry) := inferInstanceAs (Decidable (_ ∧ _))

/-- The byte of an allocated or unallocated cluster. -/
def clusterByte (entry o : Nat) : UInt8 :=
  if isZero h entry ∨ tableOffset entry = 0 then 0 else f.byte (tableOffset entry + o % h.clusterSize)

/-- **The disk that the L1 and L2 tables of the file describe.** -/
def reference (o : Nat) : UInt8 :=
  match l1Entry f h o with
  | none => 0
  | some l1 => if tableOffset l1 = 0 then 0 else clusterByte f h (l2Entry f h (tableOffset l1) o) o

/-- A byte whose cluster is not compressed and whose L2 entry and data are inside the file. -/
def Plain (o : Nat) : Prop :=
  ∀ l1, l1Entry f h o = some l1 → tableOffset l1 ≠ 0 →
    l2At h (tableOffset l1) o + 8 ≤ f.bytes.length ∧
    (l2Entry f h (tableOffset l1) o).testBit 62 = false ∧
    (¬ isZero h (l2Entry f h (tableOffset l1) o) → tableOffset (l2Entry f h (tableOffset l1) o) ≠ 0 →
      tableOffset (l2Entry f h (tableOffset l1) o) + o % h.clusterSize < f.bytes.length)

end Qcow2

end Celium
