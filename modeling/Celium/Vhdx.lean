import Celium.DiskImage
/-!
# Vhdx — the reader of VHDX disks

`VhdxImage::open` and `read_at`.  The block allocation table has a bitmap entry after every `chunk_ratio` payload entries,
which the reader skips.
-/
namespace Celium

open Blocks Bytes Checked

namespace Vhdx

def header1Off : Nat := 0x10000
def header2Off : Nat := 0x20000
def regionTable1Off : Nat := 0x30000
def regionTable2Off : Nat := 0x40000
def headerLen : Nat := 4096
def regionTableLen : Nat := 64 * 1024
def megabyte : Nat := 1024 * 1024

/-- `b"vhdxfile"`, `b"head"`, `b"regi"` and `b"metadata"`. -/
def fileSig : List UInt8 := [0x76, 0x68, 0x64, 0x78, 0x66, 0x69, 0x6c, 0x65]
def headerSig : List UInt8 := [0x68, 0x65, 0x61, 0x64]
def regionSig : List UInt8 := [0x72, 0x65, 0x67, 0x69]
def metadataSig : List UInt8 := [0x6d, 0x65, 0x74, 0x61, 0x64, 0x61, 0x74, 0x61]

def regionBat : List UInt8 :=
  [0x66, 0x77, 0xC2, 0x2D, 0x23, 0xF6, 0x00, 0x42, 0x9D, 0x64, 0x11, 0x5E, 0x9B, 0xFD, 0x4A, 0x08]
def regionMetadata : List UInt8 :=
  [0x06, 0xA2, 0x7C, 0x8B, 0x90, 0x47, 0x9A, 0x4B, 0xB8, 0xFE, 0x57, 0x5F, 0x05, 0x0F, 0x88, 0x6E]
def metaFileParameters : List UInt8 :=
  [0x37, 0x67, 0xA1, 0xCA, 0x36, 0xFA, 0x43, 0x4D, 0xB3, 0xB6, 0x33, 0xF0, 0xAA, 0x44, 0xE7, 0x6B]
def metaVirtualDiskSize : List UInt8 :=
  [0x24, 0x42, 0xA5, 0x2F, 0x1B, 0xCD, 0x76, 0x48, 0xB2, 0x11, 0x5D, 0xBE, 0xD8, 0x3B, 0xF4, 0xB8]
def metaLogicalSectorSize : List UInt8 :=
  [0x1D, 0xBF, 0x41, 0x81, 0x6F, 0xA9, 0x09, 0x47, 0xBA, 0x47, 0xF2, 0x33, 0xA8, 0xFA, 0xAB, 0x5F]

structure Header where
  sequenceNumber : Nat
  logLength : Nat
deriving DecidableEq, Repr

structure RegionEntry where
  guid : List UInt8
  fileOffset : Nat
  length : Nat
  required : Bool
deriving DecidableEq, Repr

structure Metadata where
  blockSize : Nat
  leaveBlocksAllocated : Bool
  hasParent : Bool
  virtualSize : Nat
  logicalSectorSize : Nat
deriving DecidableEq, Repr

/-! ## Headers and region tables -/

/-- A buffer with its checksum field cleared. -/
def clearChecksum (buf : List UInt8) : List UInt8 := buf.take 4 ++ [0, 0, 0, 0] ++ buf.drop 8

/-- The signature and the checksum of a header or a region table: the buffer, with the checksum cleared. -/
def verify (what : String) (sig buf : List UInt8) : Outcome CelError (List UInt8) :=
  if slice buf 0 4 ≠ sig then .error (.err (.invalid ("vhdx: " ++ what ++ " signature mismatch")))
  else do
    let stored ← leU32 buf 4
    if (Util.crc32c (clearChecksum buf)).toNat ≠ stored then
      .error (.err (.invalid ("vhdx: " ++ what ++ " CRC mismatch")))
    else .ok (clearChecksum buf)

def readHeader (f : DiskFile) (off : Nat) : Outcome CelError Header := do
  f.seek "seek header" off
  let buf ← f.readExact .io "read header" off headerLen
  let buf ← verify "header" headerSig buf
  let sequenceNumber ← leU64 buf 8
  let logLength ← leU32 buf 68
  .ok { sequenceNumber, logLength }

def pickHeader (f : DiskFile) : Outcome CelError Header :=
  match (readHeader f header1Off).toOption, (readHeader f header2Off).toOption with
  | some a, some b => .ok (if b.sequenceNumber ≤ a.sequenceNumber then a else b)
  | some a, none => .ok a
  | none, some b => .ok b
  | none, none => .error (.err (.invalid "vhdx: no valid header (both CRCs bad)"))

def readRegionEntry (buf : List UInt8) (i : Nat) : Outcome CelError RegionEntry := do
  let base := 16 + i * 32
  if buf.length < base + 16 then .error (.err (.invalid "vhdx: region entry truncated"))
  else do
    let fileOffset ← leU64 buf (base + 16)
    let length ← leU32 buf (base + 24)
    let flags ← leU32 buf (base + 28)
    .ok { guid := slice buf base 16, fileOffset, length, required := flags &&& 1 ≠ 0 }

def readRegionTable (f : DiskFile) (off : Nat) : Outcome CelError (List RegionEntry) := do
  f.seek "seek region" off
  let buf ← f.readExact .io "read region" off regionTableLen
  let buf ← verify "region" regionSig buf
  let entryCount ← leU32 buf 8
  if 2047 < entryCount then .error (.err (.invalid "vhdx: region entry count > 2047"))
  else (List.range entryCount).mapM (readRegionEntry buf)

def pickRegionTable (f : DiskFile) : Outcome CelError (List RegionEntry) :=
  match readRegionTable f regionTable1Off with
  | .ok r => .ok r
  | .error _ => readRegionTable f regionTable2Off

/-! ## Metadata -/

/-- The items that the loop over the metadata table has seen. -/
structure Items where
  blockSize : Option Nat
  flags : Option Nat
  virtualSize : Option Nat
  logicalSectorSize : Option Nat
deriving DecidableEq, Repr

def Items.empty : Items := ⟨none, none, none, none⟩

/-- What one item is taken for. -/
def Items.take (items : Items) (guid item : List UInt8) : Outcome CelError Items :=
  if guid = metaFileParameters then
    if item.length < 8 then .error (.err (.invalid "vhdx: file_parameters short"))
    else do
      let blockSize ← leU32 item 0
      let flags ← leU32 item 4
      .ok { items with blockSize := some blockSize, flags := some flags }
  else if guid = metaVirtualDiskSize then
    if item.length < 8 then .error (.err (.invalid "vhdx: virtual_disk_size short"))
    else do
      let virtualSize ← leU64 item 0
      .ok { items with virtualSize := some virtualSize }
  else if guid = metaLogicalSectorSize then
    if item.length < 4 then .error (.err (.invalid "vhdx: logical_sector_size short"))
    else do
      let logicalSectorSize ← leU32 item 0
      .ok { items with logicalSectorSize := some logicalSectorSize }
  else .ok items

/-- One turn of the loop over the metadata table at `off`. -/
def readItem (f : DiskFile) (off : Nat) (items : Items) (i : Nat) : Outcome CelError Items := do
  let table ← add64 off 32
  let entryOff ← add64 table (i * 32)
  f.seek "seek meta entry" entryOff
  let entry ← f.readExact .io "read meta entry" entryOff 32
  let itemOff ← leU32 entry 16
  let itemLen ← leU32 entry 20
  if itemLen = 0 ∨ 2 ^ 20 < itemLen then .error (.err (.invalid "vhdx: metadata item length out of range"))
  else do
    let itemPos ← add64 off itemOff
    f.seek "seek meta item" itemPos
    let item ← f.readExact .io "read meta item" itemPos itemLen
    items.take (slice entry 0 16) item

def okOr (o : Option Nat) (msg : String) : Outcome CelError Nat :=
  match o with
  | some n => .ok n
  | none => .error (.err (.invalid msg))

def readMetadataRegion (f : DiskFile) (off : Nat) : Outcome CelError Metadata := do
  f.seek "seek metadata" off
  let hdr ← f.readExact .io "read metadata header" off 32
  if slice hdr 0 8 ≠ metadataSig then .error (.err (.invalid "vhdx: metadata signature mismatch"))
  else do
    let entryCount ← leU16 hdr 10
    if entryCount = 0 ∨ 2047 < entryCount then .error (.err (.invalid "vhdx: metadata entry count out of range"))
    else do
      let items ← (List.range entryCount).foldlM (readItem f off) Items.empty
      let blockSize ← okOr items.blockSize "vhdx: FileParameters missing"
      let flags ← okOr items.flags "vhdx: FileParameters flags missing"
      let virtualSize ← okOr items.virtualSize "vhdx: VirtualDiskSize missing"
      let logicalSectorSize ← okOr items.logicalSectorSize "vhdx: LogicalSectorSize missing"
      .ok {
        blockSize, leaveBlocksAllocated := flags &&& 1 ≠ 0, hasParent := flags &&& 2 ≠ 0, virtualSize, logicalSectorSize }

end Vhdx

/-- `VhdxImage`: the table is read when the file is opened. -/
structure VhdxImage where
  file : DiskFile
  virtualSize : Nat
  blockSize : Nat
  logicalSectorSize : Nat
  bat : List Nat
  chunkRatio : Nat
  isFixed : Bool

namespace VhdxImage

open Vhdx

/-- `open` from the table's region and the metadata on. -/
def fromMetadata (f : DiskFile) (bat : RegionEntry) (metadata : Metadata) : Outcome CelError VhdxImage := do
  if metadata.hasParent then .error (.err (.invalid "vhdx: differencing images (HasParent) not supported"))
  else if metadata.blockSize = 0 ∨ metadata.blockSize % megabyte ≠ 0 then
    .error (.err (.invalid "vhdx: block_size must be a multiple of 1 MB"))
  else if metadata.logicalSectorSize ≠ 512 ∧ metadata.logicalSectorSize ≠ 4096 then
    .error (.err (.invalid "vhdx: logical_sector_size must be 512 or 4096"))
  else do
    let chunk ← checkedMul64 (2 ^ 23) metadata.logicalSectorSize (.invalid "vhdx: chunk_ratio overflow")
    let chunkRatio := chunk / metadata.blockSize
    if chunkRatio = 0 then .error (.err (.invalid "vhdx: chunk_ratio computed as zero"))
    else do
      let pbCount := divCeil metadata.virtualSize metadata.blockSize
      let chunkCount := divCeil pbCount chunkRatio
      let totalEntries ← checkedAdd64 pbCount chunkCount (.invalid "vhdx: BAT entry count overflow")
      let batBytes ← checkedMul64 totalEntries 8 (.invalid "vhdx: BAT byte length overflow")
      if bat.length < batBytes then
        .error (.err (.invalid "vhdx: BAT region too small for declared virtual size"))
      else do
        alloc batBytes
        f.seek "seek bat" bat.fileOffset
        let raw ← f.readExact .storage "read bat" bat.fileOffset batBytes
        .ok {
          file := f
          virtualSize := metadata.virtualSize
          blockSize := metadata.blockSize
          logicalSectorSize := metadata.logicalSectorSize
          bat := (chunksExact 8 raw).map leNat
          chunkRatio
          isFixed := metadata.leaveBlocksAllocated }

def «open» (f : DiskFile) : Outcome CelError VhdxImage := do
  f.seek "seek 0" 0
  let sig ← f.readExact .io "read fileid" 0 8
  if sig ≠ fileSig then .error (.err (.invalid "vhdx: bad file identifier"))
  else do
    let h ← pickHeader f
    if h.logLength ≠ 0 then
      .error (.err (.invalid "vhdx: non-empty log not supported (replay journal first)"))
    else do
      let regions ← pickRegionTable f
      match regions.find? (fun r => r.guid = regionBat) with
      | none => .error (.err (.invalid "vhdx: BAT region missing"))
      | some bat =>
        match regions.find? (fun r => r.guid = regionMetadata) with
        | none => .error (.err (.invalid "vhdx: metadata region missing"))
        | some metaRegion => do
          let metadata ← readMetadataRegion f metaRegion.fileOffset
          fromMetadata f bat metadata

variable (img : VhdxImage)

/-- What a turn of `read_at` puts for a table entry. -/
def readBlock (entry intra chunk : Nat) : Outcome CelError (List UInt8) :=
  let state := entry &&& 7
  if state = 0 ∨ state = 1 ∨ state = 2 ∨ state = 3 then .ok (List.replicate chunk 0)
  else if state = 6 then do
    let blockOff := entry &&& 0xFFFFFFFFFFF00000
    let readFrom ← add64 blockOff intra
    img.file.seek "seek vhdx block" readFrom
    img.file.readExact .storage "read vhdx block" readFrom chunk
  else if state = 7 then
    .error (.err (.invalid "vhdx: partially-present block (differencing) not supported"))
  else .error (.err (.invalid "vhdx: unknown BAT state"))

/-- One turn of the loop of `read_at`: `chunk` bytes of one block. -/
def serve (cur chunk : Nat) : Outcome CelError (List UInt8) := do
  let intra := cur % img.blockSize
  let blockIdx := cur / img.blockSize
  let batIdx ← add64 blockIdx (blockIdx / img.chunkRatio)
  match img.bat[batIdx]? with
  | none => .error (.err (.invalid "vhdx: BAT index out of range"))
  | some entry => img.readBlock entry intra chunk

/-- `impl DiskImage for VhdxImage`. -/
def disk : DiskImage := .blockwise img.virtualSize img.blockSize img.serve

def readAt (offset len : Nat) : Outcome CelError (List UInt8) := img.disk.readAt offset len

end VhdxImage

end Celium
