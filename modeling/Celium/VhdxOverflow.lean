import Celium.VhdxRead
/-!
# VhdxOverflow — the arithmetic of the VHDX reader

Every sum that `open` and `read_at` make fits in 64 bits but one: the offset of a block, which is all of the upper bits of
its table entry, and the position inside the block.  Only the first block of a read is entered at a position other than its
start.
-/
namespace Celium

open Blocks Bytes Checked

namespace Vhdx

variable {f : DiskFile}

/-! ## `open` -/

theorem verify_noOverflow (what : String) (sig buf : List UInt8) : NoOverflow (verify what sig buf) := by
  unfold verify
  split
  · exact .err _
  refine (leField_noOverflow _ _ _ _).bind fun stored _ => ?_
  split
  · exact .err _
  · exact .ok _

theorem readHeader_noOverflow (f : DiskFile) (off : Nat) : NoOverflow (readHeader f off) := by
  refine (DiskFile.seek_noOverflow _ _).bind fun _ _ => ?_
  refine (DiskFile.readExact_noOverflow _ _ _ _).bind fun buf _ => ?_
  refine (verify_noOverflow _ _ _).bind fun buf _ => ?_
  refine (leField_noOverflow _ _ _ _).bind fun sequence _ => ?_
  exact (leField_noOverflow _ _ _ _).bind fun log _ => .ok _

theorem pickHeader_noOverflow (f : DiskFile) : NoOverflow (pickHeader f) := by
  unfold pickHeader
  split
  · exact .ok _
  · exact .ok _
  · exact .ok _
  · exact .err _

theorem readRegionEntry_noOverflow (buf : List UInt8) (i : Nat) : NoOverflow (readRegionEntry buf i) := by
  unfold readRegionEntry
  dsimp only
  split
  · exact .err _
  refine (leField_noOverflow _ _ _ _).bind fun fileOffset _ => ?_
  refine (leField_noOverflow _ _ _ _).bind fun length _ => ?_
  exact (leField_noOverflow _ _ _ _).bind fun flags _ => .ok _

theorem readRegionTable_noOverflow (f : DiskFile) (off : Nat) : NoOverflow (readRegionTable f off) := by
  refine (DiskFile.seek_noOverflow _ _).bind fun _ _ => ?_
  refine (DiskFile.readExact_noOverflow _ _ _ _).bind fun buf _ => ?_
  refine (verify_noOverflow _ _ _).bind fun buf _ => ?_
  refine (leField_noOverflow _ _ _ _).bind fun count _ => ?_
  split
  · exact .err _
  · exact mapM_noOverflow fun i _ => readRegionEntry_noOverflow buf i

theorem pickRegionTable_noOverflow (f : DiskFile) : NoOverflow (pickRegionTable f) := by
  unfold pickRegionTable
  split
  · exact .ok _
  · exact readRegionTable_noOverflow f _

theorem Items.take_noOverflow (items : Items) (guid item : List UInt8) : NoOverflow (items.take guid item) := by
  unfold Items.take
  split
  · split
    · exact .err _
    refine (leField_noOverflow _ _ _ _).bind fun blockSize _ => ?_
    exact (leField_noOverflow _ _ _ _).bind fun flags _ => .ok _
  split
  · split
    · exact .err _
    exact (leField_noOverflow _ _ _ _).bind fun virtualSize _ => .ok _
  split
  · split
    · exact .err _
    exact (leField_noOverflow _ _ _ _).bind fun sectorSize _ => .ok _
  · exact .ok _

/-- The region is where its header could be sought, so its entries and its items are below `2 ^ 64`. -/
theorem readItem_noOverflow {off : Nat} (hoff : off < 2 ^ 63) (items : Items) {i : Nat} (hi : i < 2 ^ 16) :
    NoOverflow (readItem f off items i) := by
  refine (add64_noOverflow (by omega)).bind fun table htable => ?_
  obtain rfl := add64_eq_ok htable
  refine (add64_noOverflow (by omega)).bind fun entryOff _ => ?_
  refine (DiskFile.seek_noOverflow _ _).bind fun _ _ => ?_
  refine (DiskFile.readExact_noOverflow _ _ _ _).bind fun entry _ => ?_
  refine (leField_noOverflow _ _ _ _).bind fun itemOff hitem => ?_
  have hlt : itemOff < 256 ^ 4 := (leField_eq_ok hitem).2
  refine (leField_noOverflow _ _ _ _).bind fun itemLen _ => ?_
  split
  · exact .err _
  refine (add64_noOverflow (by omega)).bind fun itemPos _ => ?_
  refine (DiskFile.seek_noOverflow _ _).bind fun _ _ => ?_
  refine (DiskFile.readExact_noOverflow _ _ _ _).bind fun item _ => ?_
  exact Items.take_noOverflow items _ _

theorem okOr_noOverflow (o : Option Nat) (msg : String) : NoOverflow (okOr o msg) := by
  cases o with
  | none => exact .err _
  | some n => exact .ok n

theorem readMetadataRegion_noOverflow (f : DiskFile) (off : Nat) : NoOverflow (readMetadataRegion f off) := by
  refine (DiskFile.seek_noOverflow _ _).bind fun _ hseek => ?_
  have hoff : off < 2 ^ 63 := Nat.lt_of_le_of_lt (DiskFile.seek_eq_ok hseek) f.signed
  refine (DiskFile.readExact_noOverflow _ _ _ _).bind fun hdr _ => ?_
  split
  · exact .err _
  refine (leField_noOverflow _ _ _ _).bind fun count hcount => ?_
  have hlt : count < 256 ^ 2 := (leField_eq_ok hcount).2
  split
  · exact .err _
  refine (foldlM_noOverflow (fun items i hi => ?_) _).bind fun items _ => ?_
  · rw [List.mem_range] at hi
    exact readItem_noOverflow hoff items (by omega)
  refine (okOr_noOverflow _ _).bind fun blockSize _ => ?_
  refine (okOr_noOverflow _ _).bind fun flags _ => ?_
  refine (okOr_noOverflow _ _).bind fun virtualSize _ => ?_
  exact (okOr_noOverflow _ _).bind fun sectorSize _ => .ok _

end Vhdx

namespace VhdxImage

open Vhdx

variable {f : DiskFile} {r : RegionEntry} {img : VhdxImage}

theorem fromMetadata_noOverflow (f : DiskFile) (bat : RegionEntry) (metadata : Metadata) :
    NoOverflow (fromMetadata f bat metadata) := by
  unfold fromMetadata
  split
  · exact .err _
  split
  · exact .err _
  split
  · exact .err _
  refine (checkedMul64_noOverflow _ _ _).bind fun chunk _ => ?_
  dsimp only
  split
  · exact .err _
  refine (checkedAdd64_noOverflow _ _ _).bind fun total _ => ?_
  refine (checkedMul64_noOverflow _ _ _).bind fun batBytes _ => ?_
  split
  · exact .err _
  refine (alloc_noOverflow _).bind fun _ _ => ?_
  refine (DiskFile.seek_noOverflow _ _).bind fun _ _ => ?_
  exact (DiskFile.readExact_noOverflow _ _ _ _).bind fun raw _ => .ok _

theorem open_noOverflow (f : DiskFile) : NoOverflow (VhdxImage.open f) := by
  refine (DiskFile.seek_noOverflow _ _).bind fun _ _ => ?_
  refine (DiskFile.readExact_noOverflow _ _ _ _).bind fun sig _ => ?_
  split
  · exact .err _
  refine (pickHeader_noOverflow f).bind fun h _ => ?_
  split
  · exact .err _
  refine (pickRegionTable_noOverflow f).bind fun regions _ => ?_
  split
  · exact .err _
  split
  · exact .err _
  refine (readMetadataRegion_noOverflow f _).bind fun metadata _ => ?_
  exact fromMetadata_noOverflow f _ metadata

/-! ## `read_at` -/

/-- The first block of the read is fully present, and its offset with the position in it does not fit in 64 bits. -/
def Wraps (img : VhdxImage) (offset len : Nat) : Prop :=
  0 < len ∧ offset < img.virtualSize ∧ ∃ entry, img.payload (offset / img.blockSize) = some entry ∧
    entry &&& 7 = 6 ∧ 2 ^ 64 ≤ (entry &&& 0xFFFFFFFFFFF00000) + offset % img.blockSize

/-- A turn overflows where the sum of the block's offset and the position in it does. -/
theorem readBlock_eq_overflow {entry : Nat} (intra n : Nat) :
    img.readBlock entry intra n = .error .overflow ↔
      entry &&& 7 = 6 ∧ 2 ^ 64 ≤ (entry &&& 0xFFFFFFFFFFF00000) + intra := by
  unfold readBlock
  dsimp only
  split
  · rename_i hstate
    refine iff_of_false (fun h => by cases h) ?_
    rintro ⟨hsix, -⟩
    omega
  split
  · rename_i hsix
    by_cases hsum : (entry &&& 0xFFFFFFFFFFF00000) + intra < 2 ^ 64
    · rw [add64_ok hsum, ok_bind]
      refine iff_of_false ?_ (by omega)
      exact (DiskFile.seek_noOverflow _ _).bind fun _ _ => DiskFile.readExact_noOverflow _ _ _ _
    · rw [add64, if_neg hsum, error_bind]
      exact iff_of_true rfl ⟨hsix, by omega⟩
  split
  · exact iff_of_false (fun h => by cases h) (by omega)
  · exact iff_of_false (fun h => by cases h) (by omega)

/-- **A read overflows exactly if it starts inside a block whose offset and the start do not fit together.** -/
theorem readAt_eq_overflow (hop : Opened f r img) (offset len : Nat) :
    img.readAt offset len = .error .overflow ↔ img.Wraps offset len := by
  have hblock := block_pos hop
  have hsize := hop.size
  have hshape : img.readAt offset len = fill img.blockSize img.serve (min len (img.virtualSize - offset)) offset
      (min len (img.virtualSize - offset)) := DiskImage.blockwise_readAt offset len
  by_cases hnone : 0 < len ∧ offset < img.virtualSize
  · obtain ⟨entry, hlt, hentry, -⟩ := index_lt hop hnone.2
    rw [hshape, fill_eq_error_iff hblock (by omega) (by omega), serve_eq hop hnone.2 hentry, readBlock_eq_overflow]
    · constructor
      · rintro ⟨hsix, hsum⟩
        exact ⟨hnone.1, hnone.2, entry, hentry, hsix, hsum⟩
      · rintro ⟨-, -, entry', hentry', hsix, hsum⟩
        obtain rfl := Option.some.inj (hentry.symm.trans hentry')
        exact ⟨hsix, hsum⟩
    · intro c n hstart hn hto herror
      obtain ⟨entry', hlt', hentry', -⟩ := index_lt hop (o := c) (by omega)
      rw [serve_eq hop (by omega) hentry', readBlock_eq_overflow, hstart, Nat.add_zero] at herror
      have hle : entry' &&& 0xFFFFFFFFFFF00000 ≤ entry' := Nat.and_le_left
      omega
  · rw [hshape, show min len (img.virtualSize - offset) = 0 by omega, fill_nothing]
    refine iff_of_false (fun h => by cases h) ?_
    rintro ⟨hlen, hoff, -⟩
    exact hnone ⟨hlen, hoff⟩

/-- A turn that reads from the file is inside it. -/
theorem serve_inside (hop : Opened f r img) {c n : Nat} {bs : List UInt8} (hn : 0 < n)
    (hin : c % img.blockSize + n ≤ img.blockSize) (hto : c + n ≤ img.virtualSize) (hserve : img.serve c n = .ok bs) :
    ∀ i < n, ∀ entry, img.payload ((c + i) / img.blockSize) = some entry → entry % 8 = 6 →
      blockOffset entry + (c + i) % img.blockSize < f.bytes.length := by
  intro i hi entry hentry hsix
  obtain ⟨hdiv, hmod⟩ := same_block img.blockSize c (i := i) (by omega)
  rw [hdiv] at hentry
  obtain ⟨entry', hlt, hentry', -⟩ := index_lt hop (o := c) (by omega)
  obtain rfl := Option.some.inj (hentry.symm.trans hentry')
  rw [serve_eq hop (by omega) hentry, readBlock_eq hlt, if_neg (by omega), if_pos hsix] at hserve
  obtain ⟨from', hfrom, hserve⟩ := bind_eq_ok.1 hserve
  obtain ⟨_, -, hserve⟩ := bind_eq_ok.1 hserve
  obtain ⟨-, hend⟩ := DiskFile.readExact_eq_ok hserve
  obtain rfl := add64_eq_ok hfrom
  have hfile := hend hn
  rw [hop.file] at hfile
  rw [hmod]
  omega

/-- **What a read gives is in the file where the entries say**: an entry that points past its end makes the read fail. -/
theorem readAt_inside (hop : Opened f r img) {offset len : Nat} {bs : List UInt8} (hread : img.readAt offset len = .ok bs) :
    bs = window img.reference offset (min len (img.virtualSize - offset)) ∧
    ∀ o, offset ≤ o → o < offset + bs.length → ∀ entry, img.payload (o / img.blockSize) = some entry → entry % 8 = 6 →
      blockOffset entry + o % img.blockSize < f.bytes.length ∧
      img.reference o = f.byte (blockOffset entry + o % img.blockSize) := by
  have hbs : bs = window img.reference offset (min len (img.virtualSize - offset)) :=
    DiskImage.blockwise_sound (block_pos hop) hop.size (fun c n bs hn hin hto => serve_sound hop hn hin hto) hread
  refine ⟨hbs, fun o hlo hhi entry hentry hsix => ⟨?_, ?_⟩⟩
  · rw [hbs, length_window] at hhi
    have hsize := hop.size
    have hshape : img.readAt offset len = fill img.blockSize img.serve (min len (img.virtualSize - offset)) offset
        (min len (img.virtualSize - offset)) := DiskImage.blockwise_readAt offset len
    rw [hshape] at hread
    have hall := fill_forall (block_pos hop) (P := fun o => ∀ entry, img.payload (o / img.blockSize) = some entry →
      entry % 8 = 6 → blockOffset entry + o % img.blockSize < f.bytes.length) (by omega)
      (fun c n bs hn hin hto hserve => serve_inside hop hn hin (by omega) hserve) hread (o - offset) (by omega)
    rw [Nat.add_sub_cancel' hlo] at hall
    exact hall entry hentry hsix
  · obtain rfl := hop.file
    rw [reference, hentry]
    exact if_pos hsix

end VhdxImage

/-- **The arithmetic of `open` and `read_at` on a vhdx file**: nothing that `open` does overflows, its tries of the second
copies included; a read overflows exactly if its first block is present and the block's offset and the start of the read in it
do not fit in 64 bits; and a read that succeeds has its bytes from where the entries point, inside the file. -/
theorem vhdx_overflow_iff (f : DiskFile) :
    (NoOverflow (VhdxImage.open f) ∧ (∀ off, NoOverflow (Vhdx.readHeader f off)) ∧
      ∀ off, NoOverflow (Vhdx.readRegionTable f off)) ∧
    ∀ img, VhdxImage.open f = .ok img → ∀ offset len,
      (NoOverflow (img.readAt offset len) ↔ ¬ img.Wraps offset len) ∧
      ∀ bs, img.readAt offset len = .ok bs →
        bs = window img.reference offset (min len (img.virtualSize - offset)) ∧
        ∀ o, offset ≤ o → o < offset + bs.length → ∀ entry, img.payload (o / img.blockSize) = some entry → entry % 8 = 6 →
          VhdxImage.blockOffset entry + o % img.blockSize < f.bytes.length ∧
          img.reference o = f.byte (VhdxImage.blockOffset entry + o % img.blockSize) := by
  refine ⟨⟨VhdxImage.open_noOverflow f, Vhdx.readHeader_noOverflow f, Vhdx.readRegionTable_noOverflow f⟩, ?_⟩
  intro img hopen offset len
  obtain ⟨r, hop⟩ := VhdxImage.opened hopen
  exact ⟨not_congr (VhdxImage.readAt_eq_overflow hop offset len), fun bs hread => VhdxImage.readAt_inside hop hread⟩

/-! ## A block at the end of the address space -/

namespace FarBlock

open Vhdx

/-- Blocks of 2 MB, a disk of 2 MB. -/
def metadata : List UInt8 :=
  OneBlock.metadata.take 128 ++ [0, 0, 0x20, 0] ++ [0, 0, 0, 0] ++ [0, 0, 0x20, 0, 0, 0, 0, 0] ++ [0, 2, 0, 0]

/-- The block is said to be present 1 MB before `2 ^ 64`. -/
def bat : List UInt8 := [0x06, 0x00, 0xF0, 0xFF, 0xFF, 0xFF, 0xFF, 0xFF, 0, 0, 0, 0, 0, 0, 0, 0]

def byte : Nat → UInt8 := place 0x40000 metadata <| place 0x40100 bat OneBlock.byte

def file : DiskFile where
  path := "disk.vhdx"
  bytes := window byte 0 0x200000
  seekMax := 2 ^ 63 - 1
  fits := by rw [length_window]; decide
  signed := DiskFile.seekMax_lt

theorem length_metadata : metadata.length = 148 := by decide +kernel
theorem length_bat : bat.length = 16 := rfl

theorem bytes_file : file.bytes = window byte 0 0x200000 := by
  rw [file]

theorem seek {what : String} {off : Nat} (h : off ≤ 2 ^ 63 - 1) : file.seek what off = .ok () := DiskFile.seek_ok h

theorem read {wrap : String → CelError} {what : String} {off len : Nat} (h : off + len ≤ 0x200000) :
    file.readExact wrap what off len = .ok (window byte off len) := by
  rw [DiskFile.readExact_ok (by rw [bytes_file, length_window]; exact h), bytes_file, slice_window byte h]

/-- Before the metadata the file is that of one block. -/
theorem read_before {wrap : String → CelError} {what : String} {off len : Nat} (h : off + len ≤ 0x40000) :
    file.readExact wrap what off len = OneBlock.file.readExact wrap what off len := by
  rw [read (by omega), OneBlock.read (by omega), byte, window_place_of_disjoint (by omega),
    window_place_of_disjoint (by omega)]

theorem read_metadata {wrap : String → CelError} {what : String} {k n : Nat} (h : k + n ≤ 148) :
    file.readExact wrap what (0x40000 + k) n = .ok (slice metadata k n) := by
  rw [read (by omega), byte, window_place (by rw [length_metadata]; exact h)]

theorem read_bat {wrap : String → CelError} {what : String} : file.readExact wrap what 0x40100 16 = .ok bat := by
  have := length_metadata
  rw [read (by decide), byte, window_place_of_disjoint (by omega), window_place_self length_bat]

theorem readHeader_before {off : Nat} (h : off + headerLen ≤ 0x40000) :
    readHeader file off = readHeader OneBlock.file off := by
  rw [readHeader, readHeader, seek (by omega), OneBlock.seek (by omega), read_before h]

theorem pickHeader_file : pickHeader file = .ok ⟨0, 0⟩ := by
  rw [← OneBlock.pickHeader_file, pickHeader, pickHeader, readHeader_before (by decide), readHeader_before (by decide)]

theorem pickRegionTable_file : pickRegionTable file = .ok [OneBlock.batRegion, OneBlock.metaRegion] := by
  have htable : readRegionTable file regionTable1Off = readRegionTable OneBlock.file regionTable1Off := by
    rw [readRegionTable, readRegionTable, seek (by decide), OneBlock.seek (by decide), read_before (by decide)]
  rw [pickRegionTable, htable, OneBlock.readRegionTable_file]

theorem readMetadataRegion_file : readMetadataRegion file 0x40000 = .ok ⟨0x200000, false, false, 0x200000, 512⟩ := by
  have htable : ∀ k len, k + len ≤ 128 → slice metadata k len = slice OneBlock.metadata k len := by
    intro k len h
    have hcut : ∀ xs : List UInt8, xs.length = 148 → slice xs k len = slice (xs.take 128) k len := by
      intro xs hxs
      conv_lhs => rw [← List.take_append_drop 128 xs]
      exact slice_append_left (by rw [List.length_take]; omega)
    have hsame : metadata.take 128 = OneBlock.metadata.take 128 := by decide +kernel
    rw [hcut _ length_metadata, hcut _ OneBlock.length_metadata, hsame]
  exact OneBlock.readMetadataRegion_region (fun _ _ => seek) (fun _ _ _ => read_metadata) length_metadata htable (by rfl)
    (by rfl) (by rfl) (by rfl)

def image : VhdxImage where
  file := file
  virtualSize := 0x200000
  blockSize := 0x200000
  logicalSectorSize := 512
  bat := [0xFFFFFFFFFFF00006, 0]
  chunkRatio := 2048
  isFixed := false

theorem open_file : VhdxImage.open file = .ok image := by
  have hsig : file.readExact .io "read fileid" 0 8 = .ok fileSig := by
    rw [read_before (by decide), OneBlock.read (by decide), OneBlock.byte, window_place_self OneBlock.length_fileSig]
  have hentries : (chunksExact 8 bat).map leNat = [0xFFFFFFFFFFF00006, 0] := by rfl
  refine OneBlock.open_region (fun _ _ => seek) hsig pickHeader_file pickRegionTable_file readMetadataRegion_file ?_
  rw [OneBlock.fromMetadata_region (fun _ _ => seek) read_bat (by decide) (by decide) (by decide) (by decide), hentries]
  rfl

/-- **The image is accepted, and one byte read from the middle of its block overflows.** -/
theorem far_block_overflows :
    ∃ f img, VhdxImage.open f = .ok img ∧ ¬ NoOverflow (img.readAt 0x100000 1) := by
  obtain ⟨r, hop⟩ := VhdxImage.opened open_file
  refine ⟨file, image, open_file, fun h => h ((VhdxImage.readAt_eq_overflow hop 0x100000 1).2 ?_)⟩
  exact ⟨by decide, by decide, 0xFFFFFFFFFFF00006, by decide, by decide, by decide⟩

end FarBlock

end Celium
