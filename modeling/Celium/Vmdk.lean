import Celium.DiskImage
/-!
# Vmdk — the reader of sparse VMware disks

`VmdkImage::open` and `read_at` on a `monolithicSparse` file, and that what they read is the disk which the grain directory
and the grain tables of the file describe.
-/
namespace Celium

open Blocks Bytes Checked

namespace Vmdk

def sector : Nat := 512
def vmdkMagicLe : Nat := 0x564d444b

structure Header where
  capacitySectors : Nat
  grainSizeSectors : Nat
  descriptorOffsetSectors : Nat
  descriptorSizeSectors : Nat
  numGtesPerGt : Nat
  gdOffsetSectors : Nat
  overheadSectors : Nat
  compressAlgorithm : Nat
  flags : Nat
deriving DecidableEq, Repr

def parseHeader (f : DiskFile) : Outcome CelError Header := do
  f.seek "seek 0" 0
  let (buf, n) := f.readHeader 512
  if n < 80 then .error (.err (.invalid "vmdk: header truncated"))
  else do
    let magic ← leU32 buf 0
    if magic ≠ vmdkMagicLe then .error (.err (.invalid "vmdk: bad magic (not KDMV)"))
    else do
      let version ← leU32 buf 4
      if ¬ (1 ≤ version ∧ version ≤ 3) then .error (.err (.invalid "vmdk: unsupported sparse extent version"))
      else do
        let flags ← leU32 buf 8
        let capacitySectors ← leU64 buf 12
        let grainSizeSectors ← leU64 buf 20
        let descriptorOffsetSectors ← leU64 buf 28
        let descriptorSizeSectors ← leU64 buf 36
        let numGtesPerGt ← leU32 buf 44
        let _rgdOffset ← leU64 buf 48
        let gdOffsetSectors ← leU64 buf 56
        let overheadSectors ← leU64 buf 64
        .ok {
          capacitySectors, grainSizeSectors, descriptorOffsetSectors, descriptorSizeSectors, numGtesPerGt, gdOffsetSectors,
          overheadSectors, compressAlgorithm := leNat (slice buf 77 2), flags }

/-- `is_power_of_two`: one bit is set. -/
def isPowerOfTwo (n : Nat) : Prop := n ≠ 0 ∧ n &&& (n - 1) = 0

instance (n : Nat) : Decidable (isPowerOfTwo n) := inferInstanceAs (Decidable (_ ∧ _))

/-- Flags that are not known are only logged. -/
def validateHeader (h : Header) : Outcome CelError Unit :=
  if h.compressAlgorithm ≠ 0 then
    .error (.err (.invalid "vmdk: compressed (streamOptimized) extents not supported"))
  else if h.grainSizeSectors < 8 ∨ 2 ^ 20 < h.grainSizeSectors ∨ ¬ isPowerOfTwo h.grainSizeSectors then
    .error (.err (.invalid "vmdk: grain_size_sectors out of spec"))
  else if h.numGtesPerGt = 0 ∨ ¬ isPowerOfTwo h.numGtesPerGt then
    .error (.err (.invalid "vmdk: num_gtes_per_gt must be a power of two"))
  else if h.gdOffsetSectors = 0 then
    .error (.err (.invalid "vmdk: gd_offset == 0 (descriptor-only / multi-extent images not supported)"))
  else if h.overheadSectors = 0 then .error (.err (.invalid "vmdk: overhead == 0 (malformed)"))
  else if h.descriptorSizeSectors ≠ 0 ∧ 2 ^ 64 ≤ h.descriptorOffsetSectors + h.descriptorSizeSectors then
    .error (.err (.invalid "vmdk: descriptor offset+size overflow"))
  else .ok ()

end Vmdk

/-- `VmdkImage`: the grain directory is read when the file is opened, the grain tables as they are used. -/
structure VmdkImage where
  file : DiskFile
  virtualSize : Nat
  grainSizeSectors : Nat
  numGtesPerGt : Nat
  gd : List Nat

namespace VmdkImage

open Vmdk

def «open» (f : DiskFile) : Outcome CelError VmdkImage := do
  let header ← parseHeader f
  validateHeader header
  let sectorsPerGt ← checkedMul64 header.numGtesPerGt header.grainSizeSectors (.invalid "vmdk: GT coverage overflow")
  if sectorsPerGt = 0 then .error (.err (.invalid "vmdk: zero sectors per GT"))
  else do
    let numGts := divCeil header.capacitySectors sectorsPerGt
    let gdBytes ← checkedMul64 numGts 4 (.invalid "vmdk: GD size overflow")
    let gdByteOffset ← checkedMul64 header.gdOffsetSectors sector (.invalid "vmdk: GD offset overflow")
    alloc gdBytes
    f.seek ("seek gd " ++ f.path) gdByteOffset
    let gdRaw ← f.readExact .storage ("read gd " ++ f.path) gdByteOffset gdBytes
    .ok {
      file := f
      virtualSize := min (header.capacitySectors * sector) (2 ^ 64 - 1)
      grainSizeSectors := header.grainSizeSectors
      numGtesPerGt := header.numGtesPerGt
      gd := (chunksExact 4 gdRaw).map leNat }

variable (img : VmdkImage)

def loadGt (gtSector : Nat) : Outcome CelError (List Nat) := do
  let bytes ← checkedMul64 img.numGtesPerGt 4 (.invalid "vmdk: GT byte length overflow")
  alloc bytes
  let off ← checkedMul64 gtSector sector (.invalid "vmdk: GT offset overflow")
  img.file.seek "seek gt" off
  let raw ← img.file.readExact .storage "read gt" off bytes
  .ok ((chunksExact 4 raw).map leNat)

/-- The part of a turn of `read_at` that fills `dest`, given what the grain table has for it. -/
def readGrain (gte intra chunk : Nat) : Outcome CelError (List UInt8) :=
  if gte = 0 ∨ gte = 1 then .ok (List.replicate chunk 0)
  else do
    let grain ← checkedMul64 gte sector (.invalid "vmdk: grain offset overflow")
    let grainByteOff ← add64 grain intra
    img.file.seek "seek grain" grainByteOff
    img.file.readExact .storage "read grain" grainByteOff chunk

/-- One turn of the loop of `read_at`: `chunk` bytes of one grain. -/
def serve (grainBytes curOff chunk : Nat) : Outcome CelError (List UInt8) :=
  let intra := curOff % grainBytes
  let grainIdx := curOff / grainBytes
  let gtIdx := grainIdx / img.numGtesPerGt
  let gteIdx := grainIdx % img.numGtesPerGt
  let gdEntry := img.gd[gtIdx]?.getD 0
  if gdEntry = 0 ∨ gdEntry = 1 then .ok (List.replicate chunk 0)
  else do
    let gt ← img.loadGt gdEntry
    img.readGrain (gt[gteIdx]?.getD 0) intra chunk

def readAt (offset len : Nat) : Outcome CelError (List UInt8) :=
  if len = 0 ∨ img.virtualSize ≤ offset then .ok []
  else do
    let want := min len (img.virtualSize - offset)
    let grainBytes ← mul64 img.grainSizeSectors sector
    fill grainBytes (img.serve grainBytes) want offset want

/-- `impl DiskImage for VmdkImage`. -/
def disk : DiskImage := ⟨img.virtualSize, img.readAt⟩

end VmdkImage

/-! ## The disk that the tables describe -/

namespace Vmdk

variable (f : DiskFile) (h : Header)

def grainBytes : Nat := h.grainSizeSectors * sector

/-- Which entry of the grain directory a byte of the disk is under. -/
def gdIndex (o : Nat) : Nat := o / grainBytes h / h.numGtesPerGt

/-- Which entry of its grain table. -/
def gtIndex (o : Nat) : Nat := o / grainBytes h % h.numGtesPerGt

def gdEntry (i : Nat) : Nat := leNat (slice f.bytes (h.gdOffsetSectors * sector + 4 * i) 4)

/-- Entry `i` of the grain table at a sector. -/
def gtEntry (table i : Nat) : Nat := leNat (slice f.bytes (table * sector + 4 * i) 4)

/-- **The disk that the grain directory and the grain tables of the file describe.** -/
def reference (o : Nat) : UInt8 :=
  let table := gdEntry f h (gdIndex h o)
  if table = 0 ∨ table = 1 then 0
  else
    let grain := gtEntry f table (gtIndex h o)
    if grain = 0 ∨ grain = 1 then 0 else f.byte (grain * sector + o % grainBytes h)

end Vmdk

end Celium
