import Celium.Vhdx
/-!
# VhdxRead — what `VhdxImage::read_at` reads

The index of a block in the table, with the bitmap entries skipped, stays inside the table that `open` has read, for every
block of the disk; so a read gives the disk that the payload entries describe.
-/
namespace Celium

open Blocks Bytes Checked

namespace Vhdx

variable {f : DiskFile}

/-! ## What `open` checks -/

/-- The items have the sizes of their fields. -/
structure Items.Bounded (items : Items) : Prop where
  blockSize : ∀ n, items.blockSize = some n → n < 2 ^ 32
  virtualSize : ∀ n, items.virtualSize = some n → n < 2 ^ 64

theorem Items.empty_bounded : Items.empty.Bounded :=
  ⟨fun n hn => (by cases hn), fun n hn => (by cases hn)⟩

theorem Items.take_bounded {items items' : Items} {guid item : List UInt8} (hb : items.Bounded)
    (h : items.take guid item = .ok items') : items'.Bounded := by
  unfold Items.take at h
  split at h
  · split at h
    · cases h
    obtain ⟨blockSize, hblock, h⟩ := bind_eq_ok.1 h
    obtain ⟨flags, -, h⟩ := bind_eq_ok.1 h
    obtain rfl := Except.ok.inj h
    refine ⟨fun n hn => ?_, hb.virtualSize⟩
    obtain rfl := Option.some.inj hn
    exact (leField_eq_ok hblock).2
  split at h
  · split at h
    · cases h
    obtain ⟨size, hsize, h⟩ := bind_eq_ok.1 h
    obtain rfl := Except.ok.inj h
    refine ⟨hb.blockSize, fun n hn => ?_⟩
    obtain rfl := Option.some.inj hn
    exact (leField_eq_ok hsize).2
  split at h
  · split at h
    · cases h
    obtain ⟨sectorSize, -, h⟩ := bind_eq_ok.1 h
    obtain rfl := Except.ok.inj h
    exact ⟨hb.blockSize, hb.virtualSize⟩
  · obtain rfl := Except.ok.inj h
    exact hb

theorem readItem_bounded {off i : Nat} {items items' : Items} (hb : items.Bounded)
    (h : readItem f off items i = .ok items') : items'.Bounded := by
  obtain ⟨table, -, h⟩ := bind_eq_ok.1 h
  obtain ⟨entryOff, -, h⟩ := bind_eq_ok.1 h
  obtain ⟨_, -, h⟩ := bind_eq_ok.1 h
  obtain ⟨entry, -, h⟩ := bind_eq_ok.1 h
  obtain ⟨itemOff, -, h⟩ := bind_eq_ok.1 h
  obtain ⟨itemLen, -, h⟩ := bind_eq_ok.1 h
  split at h
  · cases h
  obtain ⟨itemPos, -, h⟩ := bind_eq_ok.1 h
  obtain ⟨_, -, h⟩ := bind_eq_ok.1 h
  obtain ⟨item, -, h⟩ := bind_eq_ok.1 h
  exact Items.take_bounded hb h

theorem okOr_eq_ok {o : Option Nat} {msg : String} {n : Nat} (h : okOr o msg = .ok n) : o = some n := by
  cases o with
  | none => cases h
  | some m => exact congrArg some (Except.ok.inj h)

theorem readMetadataRegion_lt {off : Nat} {m : Metadata} (h : readMetadataRegion f off = .ok m) :
    m.blockSize < 2 ^ 32 ∧ m.virtualSize < 2 ^ 64 := by
  obtain ⟨_, -, h⟩ := bind_eq_ok.1 h
  obtain ⟨hdr, -, h⟩ := bind_eq_ok.1 h
  split at h
  · cases h
  obtain ⟨count, -, h⟩ := bind_eq_ok.1 h
  split at h
  · cases h
  obtain ⟨items, hitems, h⟩ := bind_eq_ok.1 h
  have hb : items.Bounded := foldlM_inv (fun _ _ _ hb => readItem_bounded hb) _ Items.empty_bounded hitems
  obtain ⟨blockSize, hblock, h⟩ := bind_eq_ok.1 h
  obtain ⟨flags, -, h⟩ := bind_eq_ok.1 h
  obtain ⟨virtualSize, hsize, h⟩ := bind_eq_ok.1 h
  obtain ⟨sectorSize, -, h⟩ := bind_eq_ok.1 h
  obtain rfl := Except.ok.inj h
  exact ⟨hb.blockSize _ (okOr_eq_ok hblock), hb.virtualSize _ (okOr_eq_ok hsize)⟩

/-- Entry `i` of the table in the region. -/
def batEntry (f : DiskFile) (r : RegionEntry) (i : Nat) : Nat := leNat (slice f.bytes (r.fileOffset + 8 * i) 8)

theorem batEntry_lt (f : DiskFile) (r : RegionEntry) (i : Nat) : batEntry f r i < 2 ^ 64 := by
  have hle : (slice f.bytes (r.fileOffset + 8 * i) 8).length ≤ 8 := length_slice f.bytes _ _ ▸ Nat.min_le_left _ _
  exact Nat.lt_of_lt_of_le (leNat_lt _) (Nat.pow_le_pow_right (by decide) hle)

/-- What holds of an open image and the region of its table. -/
structure Opened (f : DiskFile) (r : RegionEntry) (img : VhdxImage) : Prop where
  log : ∃ h, pickHeader f = .ok h ∧ h.logLength = 0
  region : ∃ regions, pickRegionTable f = .ok regions ∧ regions.find? (fun r => r.guid = regionBat) = some r
  parent : ∃ regions r m, pickRegionTable f = .ok regions ∧ regions.find? (fun r => r.guid = regionMetadata) = some r ∧
    readMetadataRegion f r.fileOffset = .ok m ∧ m.hasParent = false
  file : img.file = f
  block : megabyte ≤ img.blockSize
  size : img.virtualSize < 2 ^ 64
  ratio : img.chunkRatio = 2 ^ 23 * img.logicalSectorSize / img.blockSize
  ratio_pos : 0 < img.chunkRatio
  bat : img.bat = (List.range (divCeil img.virtualSize img.blockSize +
    divCeil (divCeil img.virtualSize img.blockSize) img.chunkRatio)).map (batEntry f r)

end Vhdx

namespace VhdxImage

open Vhdx

variable {f : DiskFile} {r : RegionEntry} {img : VhdxImage}

theorem fromMetadata_ok {m : Metadata} (h : fromMetadata f r m = .ok img) :
    m.hasParent = false ∧ img.file = f ∧ megabyte ≤ img.blockSize ∧ img.virtualSize = m.virtualSize ∧
      img.chunkRatio = 2 ^ 23 * img.logicalSectorSize / img.blockSize ∧ 0 < img.chunkRatio ∧
      img.bat = (List.range (divCeil img.virtualSize img.blockSize +
        divCeil (divCeil img.virtualSize img.blockSize) img.chunkRatio)).map (batEntry f r) := by
  unfold fromMetadata at h
  split at h
  · cases h
  rename_i hparent
  split at h
  · cases h
  rename_i hblock
  split at h
  · cases h
  obtain ⟨chunk, hchunk, h⟩ := bind_eq_ok.1 h
  obtain ⟨-, rfl⟩ := checkedMul64_eq_ok.1 hchunk
  dsimp only at h
  split at h
  · cases h
  rename_i hratio
  obtain ⟨total, htotal, h⟩ := bind_eq_ok.1 h
  obtain ⟨-, rfl⟩ := checkedAdd64_eq_ok.1 htotal
  obtain ⟨batBytes, hbytes, h⟩ := bind_eq_ok.1 h
  obtain ⟨-, rfl⟩ := checkedMul64_eq_ok.1 hbytes
  split at h
  · cases h
  obtain ⟨_, -, h⟩ := bind_eq_ok.1 h
  obtain ⟨_, -, h⟩ := bind_eq_ok.1 h
  obtain ⟨raw, hraw, h⟩ := bind_eq_ok.1 h
  obtain rfl := Except.ok.inj h
  obtain ⟨hlength, hget⟩ := DiskFile.words_of_readExact (by decide) hraw leNat
  refine ⟨Bool.eq_false_iff.2 hparent, rfl, ?_, rfl, rfl, Nat.pos_of_ne_zero hratio, List.ext_getElem? fun i => ?_⟩
  · have hdvd := Nat.dvd_of_mod_eq_zero (Decidable.not_not.1 (not_or.1 hblock).2)
    exact Nat.le_of_dvd (Nat.pos_of_ne_zero (not_or.1 hblock).1) hdvd
  · refine (hget i).trans ?_
    rw [List.getElem?_map]
    split
    · rename_i hi
      rw [List.getElem?_range hi, Option.map_some, batEntry]
    · rename_i hi
      rw [List.getElem?_eq_none (by rw [List.length_range]; exact Nat.not_lt.1 hi), Option.map_none]

theorem opened (hopen : VhdxImage.open f = .ok img) : ∃ r, Opened f r img := by
  obtain ⟨_, -, hopen⟩ := bind_eq_ok.1 hopen
  obtain ⟨sig, -, hopen⟩ := bind_eq_ok.1 hopen
  split at hopen
  · cases hopen
  obtain ⟨h, hheader, hopen⟩ := bind_eq_ok.1 hopen
  split at hopen
  · cases hopen
  rename_i hlog
  obtain ⟨regions, hregions, hopen⟩ := bind_eq_ok.1 hopen
  split at hopen
  · cases hopen
  rename_i bat hbat
  split at hopen
  · cases hopen
  rename_i metaRegion hregion
  obtain ⟨metadata, hmeta, hopen⟩ := bind_eq_ok.1 hopen
  obtain ⟨hparent, hfile, hblock, hsize, hratio, hpos, htable⟩ := fromMetadata_ok hopen
  exact ⟨bat, ⟨h, hheader, Decidable.not_not.1 hlog⟩, ⟨regions, hregions, hbat⟩,
    ⟨regions, metaRegion, metadata, hregions, hregion, hmeta, hparent⟩, hfile, hblock,
    hsize ▸ (readMetadataRegion_lt hmeta).2, hratio, hpos, htable⟩

/-! ## The disk that the table describes -/

/-- The entry of a block: the table without its bitmap entries. -/
def payload (img : VhdxImage) (b : Nat) : Option Nat := (skim img.chunkRatio img.chunkRatio img.bat)[b]?

/-- The file offset in an entry, a multiple of 1 MB. -/
def blockOffset (entry : Nat) : Nat := 2 ^ 20 * (entry / 2 ^ 20)

/-- **The disk that the payload entries of the table describe.** -/
def reference (img : VhdxImage) (o : Nat) : UInt8 :=
  match img.payload (o / img.blockSize) with
  | some entry => if entry % 8 = 6 then img.file.byte (blockOffset entry + o % img.blockSize) else 0
  | none => 0

/-- The block of a byte is in one of the states 0 to 3 and 6, and inside the file if in the last. -/
def Readable (img : VhdxImage) (o : Nat) : Prop :=
  ∀ entry, img.payload (o / img.blockSize) = some entry →
    (entry % 8 = 0 ∨ entry % 8 = 1 ∨ entry % 8 = 2 ∨ entry % 8 = 3 ∨ entry % 8 = 6) ∧
    (entry % 8 = 6 → blockOffset entry + img.blockSize ≤ img.file.bytes.length)

theorem block_pos (hop : Opened f r img) : 0 < img.blockSize := Nat.lt_of_lt_of_le (by decide) hop.block

/-- Every block of the disk has a payload entry, and the reader's index finds it. -/
theorem index_lt (hop : Opened f r img) {o : Nat} (ho : o < img.virtualSize) :
    ∃ entry < 2 ^ 64, img.payload (o / img.blockSize) = some entry ∧
      img.bat[o / img.blockSize + o / img.blockSize / img.chunkRatio]? = some entry := by
  have hb := div_lt_divCeil (block_pos hop) ho
  have hlt : o / img.blockSize + o / img.blockSize / img.chunkRatio <
      divCeil img.virtualSize img.blockSize + divCeil (divCeil img.virtualSize img.blockSize) img.chunkRatio :=
    Nat.add_lt_add hb (div_lt_divCeil hop.ratio_pos hb)
  have hget : img.bat[o / img.blockSize + o / img.blockSize / img.chunkRatio]? =
      some (batEntry f r (o / img.blockSize + o / img.blockSize / img.chunkRatio)) := by
    rw [hop.bat, List.getElem?_map, List.getElem?_range hlt, Option.map_some]
  exact ⟨_, batEntry_lt _ _ _, (getElem?_skim_full hop.ratio_pos _ _).trans hget, hget⟩

/-- What a turn does where the disk goes. -/
theorem serve_eq (hop : Opened f r img) {c entry : Nat} (hc : c < img.virtualSize)
    (hentry : img.payload (c / img.blockSize) = some entry) (n : Nat) :
    img.serve c n = img.readBlock entry (c % img.blockSize) n := by
  obtain ⟨entry', -, hpayload, hbat⟩ := index_lt hop hc
  obtain rfl := Option.some.inj (hentry.symm.trans hpayload)
  have hidx : c / img.blockSize ≤ 2 ^ 44 := by
    have hsize := hop.size
    have hblock := hop.block
    unfold megabyte at hblock
    refine (Nat.div_le_div_left hblock (by decide)).trans ?_
    omega
  have hratio : c / img.blockSize / img.chunkRatio ≤ c / img.blockSize := Nat.div_le_self _ _
  simp only [serve]
  rw [add64_ok (by omega), ok_bind, hbat]

/-- What is read of a block, by the state and the offset in its entry. -/
theorem readBlock_eq {entry : Nat} (hentry : entry < 2 ^ 64) (intra n : Nat) :
    img.readBlock entry intra n =
      if entry % 8 = 0 ∨ entry % 8 = 1 ∨ entry % 8 = 2 ∨ entry % 8 = 3 then .ok (List.replicate n 0)
      else if entry % 8 = 6 then do
        let readFrom ← add64 (blockOffset entry) intra
        img.file.seek "seek vhdx block" readFrom
        img.file.readExact .storage "read vhdx block" readFrom n
      else if entry % 8 = 7 then
        .error (.err (.invalid "vhdx: partially-present block (differencing) not supported"))
      else .error (.err (.invalid "vhdx: unknown BAT state")) := by
  have hstate : entry &&& 7 = entry % 8 := and_low entry 3
  have hoffset : entry &&& 0xFFFFFFFFFFF00000 = blockOffset entry := by
    have := and_mid entry (j := 20) (k := 64) (by decide)
    rw [Nat.mod_eq_of_lt hentry] at this
    exact this
  simp only [readBlock, hstate, hoffset]

/-- The bytes of one block have their entry in common. -/
theorem reference_block (hop : Opened f r img) {c entry i : Nat} (hentry : img.payload (c / img.blockSize) = some entry)
    (hi : c % img.blockSize + i < img.blockSize) :
    img.reference (c + i) = if entry % 8 = 6 then f.byte (blockOffset entry + c % img.blockSize + i) else 0 := by
  obtain rfl := hop.file
  obtain ⟨hdiv, hmod⟩ := same_block img.blockSize c hi
  rw [reference, hdiv, hentry, hmod, Nat.add_assoc]

/-- What a turn gives is of the disk. -/
theorem serve_sound (hop : Opened f r img) {c n : Nat} {bs : List UInt8} (hn : 0 < n)
    (hin : c % img.blockSize + n ≤ img.blockSize) (hto : c + n ≤ img.virtualSize) (hserve : img.serve c n = .ok bs) :
    bs = window img.reference c n := by
  obtain ⟨entry, hlt, hentry, -⟩ := index_lt hop (o := c) (by omega)
  rw [serve_eq hop (by omega) hentry, readBlock_eq hlt] at hserve
  have hbyte : ∀ i < n, img.reference (c + i) =
      if entry % 8 = 6 then f.byte (blockOffset entry + c % img.blockSize + i) else 0 :=
    fun i hi => reference_block hop hentry (by omega)
  split at hserve
  · rename_i hstate
    obtain rfl := Except.ok.inj hserve
    refine (window_const fun i hi => ?_).symm
    rw [hbyte i hi, if_neg (by omega)]
  split at hserve
  · rename_i hstate
    obtain ⟨from', hfrom, hserve⟩ := bind_eq_ok.1 hserve
    obtain ⟨_, -, hserve⟩ := bind_eq_ok.1 hserve
    obtain ⟨rfl, hend⟩ := DiskFile.readExact_eq_ok hserve
    obtain rfl := add64_eq_ok hfrom
    obtain rfl := hop.file
    rw [DiskFile.slice_eq_window (hend hn)]
    refine window_congr fun i hi => ?_
    rw [hbyte i hi, if_pos hstate]
  split at hserve
  · cases hserve
  · cases hserve

/-- A turn in a block that is there gives what was asked of the disk. -/
theorem serve_readable (hop : Opened f r img) {c n : Nat} (hn : 0 < n) (hin : c % img.blockSize + n ≤ img.blockSize)
    (hto : c + n ≤ img.virtualSize) (hreadable : img.Readable c) : img.serve c n = .ok (window img.reference c n) := by
  obtain ⟨entry, hlt, hentry, -⟩ := index_lt hop (o := c) (by omega)
  obtain ⟨hstate, hinside⟩ := hreadable entry hentry
  suffices hok : ∃ bs, img.serve c n = .ok bs by
    obtain ⟨bs, hok⟩ := hok
    rw [hok, serve_sound hop hn hin hto hok]
  rw [serve_eq hop (by omega) hentry, readBlock_eq hlt]
  split
  · exact ⟨_, rfl⟩
  · have hsix : entry % 8 = 6 := by omega
    have hend := hinside hsix
    have hsize := img.file.length_lt
    have hfits := img.file.fits
    rw [if_pos hsix, add64_ok (by omega), ok_bind, DiskFile.seek_ok (by omega), ok_bind,
      DiskFile.readExact_ok (by omega)]
    exact ⟨_, rfl⟩

/-- A turn may be made in two. -/
theorem serve_append (hop : Opened f r img) {c a b : Nat} (ha : 0 < a) (hb : 0 < b)
    (hin : c % img.blockSize + a + b ≤ img.blockSize) (hto : c + a + b ≤ img.virtualSize) :
    img.serve c (a + b) = both (img.serve c a) (img.serve (c + a) b) := by
  obtain ⟨hdiv, hmod⟩ := same_block img.blockSize c (i := a) (by omega)
  obtain ⟨entry, hlt, hentry, -⟩ := index_lt hop (o := c) (by omega)
  have hnext : img.payload ((c + a) / img.blockSize) = some entry := by rw [hdiv, hentry]
  rw [serve_eq hop (by omega) hentry, serve_eq hop (by omega) hentry, serve_eq hop (by omega) hnext, hmod]
  rw [readBlock_eq hlt, readBlock_eq hlt, readBlock_eq hlt]
  split
  · rw [both_ok, List.replicate_add]
  split
  · exact DiskFile.fetch_add_append _ _ ha hb
  split
  · rfl
  · rfl

theorem readBlock_ne_index (entry intra n : Nat) :
    img.readBlock entry intra n ≠ .error (.err (.invalid "vhdx: BAT index out of range")) := by
  unfold readBlock
  dsimp only
  split
  · intro h
    cases h
  split
  · refine bind_ne_error (add64_ne_err _ _ _) fun off => ?_
    exact bind_ne_error (DiskFile.seek_ne_invalid _ _ _) fun _ => DiskFile.readExact_ne_invalid _ _ _ _
  split
  · decide
  · decide

theorem readAt_ne_index (hop : Opened f r img) (offset len : Nat) :
    img.readAt offset len ≠ .error (.err (.invalid "vhdx: BAT index out of range")) := by
  refine DiskImage.blockwise_ne_error (block_pos hop) hop.size (fun c n hn _ hto => ?_) offset len
  obtain ⟨entry, -, hentry, -⟩ := index_lt hop (o := c) (by omega)
  rw [serve_eq hop (by omega) hentry]
  exact readBlock_ne_index entry _ n

end VhdxImage

/-- **What a vhdx image reads.**  The table it goes by is that of its region, and has an entry for every block.  A read gives
the disk that the payload entries describe, where these are in a state that the reader knows and inside the file; the index
of an entry is never out of range; and a range read in pieces gives the same. -/
theorem vhdx_reads {f : DiskFile} {img : VhdxImage} (hopen : VhdxImage.open f = .ok img) :
    (∃ regions r, Vhdx.pickRegionTable f = .ok regions ∧ regions.find? (fun r => r.guid = Vhdx.regionBat) = some r ∧
      img.bat = (List.range img.bat.length).map (Vhdx.batEntry f r)) ∧
    img.chunkRatio = 2 ^ 23 * img.logicalSectorSize / img.blockSize ∧
    (∀ b, b * img.blockSize < img.virtualSize → (img.payload b).isSome) ∧
    (∀ offset len, (∀ o, offset ≤ o → o < offset + min len (img.virtualSize - offset) → img.Readable o) →
      img.readAt offset len = .ok (window img.reference offset (min len (img.virtualSize - offset)))) ∧
    (∀ offset len, img.readAt offset len ≠ .error (.err (.invalid "vhdx: BAT index out of range"))) ∧
    ∀ offset ms, img.disk.readPieces offset ms = img.readAt offset ms.sum := by
  obtain ⟨r, hop⟩ := VhdxImage.opened hopen
  have hblock := VhdxImage.block_pos hop
  refine ⟨?_, hop.ratio, ?_, ?_, ?_, ?_⟩
  · obtain ⟨regions, hregions, hfind⟩ := hop.region
    refine ⟨regions, r, hregions, hfind, ?_⟩
    have hbat := hop.bat
    have hlen := congrArg List.length hbat
    rw [List.length_map, List.length_range] at hlen
    rw [hlen]
    exact hbat
  · intro b hb
    obtain ⟨entry, -, hpayload, -⟩ := VhdxImage.index_lt hop hb
    rw [Nat.mul_div_cancel _ hblock] at hpayload
    rw [hpayload]
    rfl
  · intro offset len hreadable
    refine DiskImage.blockwise_eq_window hblock hop.size fun c n hlo hhi hn hin => ?_
    exact VhdxImage.serve_readable hop hn hin (by omega) (hreadable c hlo (by omega))
  · exact VhdxImage.readAt_ne_index hop
  · intro offset ms
    exact DiskImage.blockwise_readPieces hblock hop.size
      (fun c n bs hn hin hto => VhdxImage.serve_sound hop hn hin hto)
      (fun c a b ha hb hin hto => VhdxImage.serve_append hop ha hb hin hto) offset ms

/-! ## A disk of one block -/

theorem Util.crc32cContinue_zeros (n : Nat) : Util.crc32cContinue 0 (List.replicate n 0) = 0 := by
  induction n with
  | zero => rfl
  | succ n ih =>
    have hstep : Util.crcByte 0 0 = 0 := by decide
    rw [List.replicate_succ, Util.crc32cContinue, List.foldl_cons, hstep]
    exact ih

theorem Util.crc32cContinue_append (state : UInt32) (xs ys : List UInt8) :
    Util.crc32cContinue state (xs ++ ys) = Util.crc32cContinue (Util.crc32cContinue state xs) ys := by
  rw [Util.crc32cContinue, List.foldl_append]
  rfl

theorem leField_append {name : String} {w off : Nat} {bs cs : List UInt8} (h : off + w ≤ bs.length)
    (hlt : bs.length + cs.length < 2 ^ 64) : leField name w (bs ++ cs) off = leField name w bs off := by
  rw [leField_ok (by rw [List.length_append]; omega) (by rw [List.length_append]; exact hlt), leField_ok h (by omega),
    slice_append_left h]

/-- A header or region table that ends in zeros, whose remainder is 0 where these begin. -/
theorem Vhdx.verify_zeros {what : String} {sig bs : List UInt8} (n : Nat) (hsig : slice bs 0 4 = sig) (hlen : 8 ≤ bs.length)
    (hstored : leNat (slice bs 4 4) = 0xFFFFFFFF)
    (hcrc : Util.crc32cContinue 0xFFFFFFFF (Vhdx.clearChecksum bs) = 0) (hlt : bs.length + n < 2 ^ 64) :
    Vhdx.verify what sig (bs ++ List.replicate n 0) = .ok (Vhdx.clearChecksum bs ++ List.replicate n 0) := by
  have hclear : Vhdx.clearChecksum (bs ++ List.replicate n 0) = Vhdx.clearChecksum bs ++ List.replicate n 0 := by
    rw [Vhdx.clearChecksum, List.take_append_of_le_length (by omega), List.drop_append_of_le_length hlen,
      ← List.append_assoc]
    rfl
  have hzero : Util.crc32c (Vhdx.clearChecksum bs ++ List.replicate n 0) = 0xFFFFFFFF := by
    rw [Util.crc32c, Util.crc32cContinue_append, hcrc, Util.crc32cContinue_zeros]
    rfl
  have hfield : leU32 (bs ++ List.replicate n 0) 4 = .ok 0xFFFFFFFF := by
    rw [leU32, leField_append (by omega) (by rw [List.length_replicate]; exact hlt), leField_ok (by omega) (by omega), hstored]
  rw [Vhdx.verify, slice_append_left (by omega), if_neg (Decidable.not_not.2 hsig), hfield, ok_bind, hclear, hzero]
  rfl

namespace OneBlock

open Vhdx

/-- The four bytes after the sequence number bring the remainder to 0. -/
def head : List UInt8 :=
  headerSig ++ [0xFF, 0xFF, 0xFF, 0xFF] ++ List.replicate 8 0 ++ [0x56, 0x7E, 0x3E, 0x96] ++ List.replicate 52 0

/-- The table is at `0x40100` and the metadata at `0x40000`. -/
def regions : List UInt8 :=
  regionSig ++ [0xFF, 0xFF, 0xFF, 0xFF] ++ [2, 0, 0, 0] ++ [0, 0, 0, 0] ++
    regionBat ++ [0x00, 0x01, 0x04, 0, 0, 0, 0, 0] ++ [16, 0, 0, 0] ++ [1, 0, 0, 0] ++
    regionMetadata ++ [0x00, 0x00, 0x04, 0, 0, 0, 0, 0] ++ [148, 0, 0, 0] ++ [1, 0, 0, 0] ++ [0xEC, 0xCC, 0xFD, 0x10]

/-- Blocks of 1 MB, a disk of 1 MB, sectors of 512 bytes. -/
def metadata : List UInt8 :=
  metadataSig ++ [0, 0] ++ [3, 0] ++ List.replicate 20 0 ++
    metaFileParameters ++ [128, 0, 0, 0] ++ [8, 0, 0, 0] ++ List.replicate 8 0 ++
    metaVirtualDiskSize ++ [136, 0, 0, 0] ++ [8, 0, 0, 0] ++ List.replicate 8 0 ++
    metaLogicalSectorSize ++ [144, 0, 0, 0] ++ [4, 0, 0, 0] ++ List.replicate 8 0 ++
    [0, 0, 0x10, 0] ++ [0, 0, 0, 0] ++ [0, 0, 0x10, 0, 0, 0, 0, 0] ++ [0, 2, 0, 0]

/-- The block is at 1 MB, fully present; its bitmap entry follows. -/
def bat : List UInt8 := [6, 0, 0x10, 0, 0, 0, 0, 0, 0, 0, 0, 0, 0, 0, 0, 0]

def byte : Nat → UInt8 :=
  place 0 fileSig <| place 0x10000 head <| place 0x30000 regions <| place 0x40000 metadata <| place 0x40100 bat
    fun i => if 0x100000 ≤ i then 0x42 else 0

def file : DiskFile where
  path := "disk.vhdx"
  bytes := window byte 0 0x200000
  seekMax := 2 ^ 63 - 1
  fits := by rw [length_window]; decide
  signed := DiskFile.seekMax_lt

theorem bytes_file : file.bytes = window byte 0 0x200000 := by
  rw [file]

theorem read {wrap : String → CelError} {what : String} {off len : Nat} (h : off + len ≤ 0x200000) :
    file.readExact wrap what off len = .ok (window byte off len) := by
  rw [DiskFile.readExact_ok (by rw [bytes_file, length_window]; exact h), bytes_file, slice_window byte h]

theorem seek {what : String} {off : Nat} (h : off ≤ 2 ^ 63 - 1) : file.seek what off = .ok () := DiskFile.seek_ok h

/-! What is where. -/

theorem length_fileSig : fileSig.length = 8 := rfl
theorem length_head : head.length = 72 := rfl
theorem length_regions : regions.length = 84 := rfl
theorem length_metadata : metadata.length = 148 := by decide +kernel
theorem length_bat : bat.length = 16 := rfl

/-- Before the block there is nothing but what was placed. -/
theorem window_rest {off n : Nat} (hfile : 8 ≤ off) (hhead : off + n ≤ 0x10000 ∨ 0x10000 + 72 ≤ off)
    (hregions : off + n ≤ 0x30000 ∨ 0x30000 + 84 ≤ off) (hend : off + n ≤ 0x40000) :
    window byte off n = List.replicate n 0 := by
  have := length_fileSig
  have := length_head
  have := length_regions
  rw [byte, window_place_of_disjoint (by omega), window_place_of_disjoint (by omega), window_place_of_disjoint (by omega),
    window_place_of_disjoint (by omega), window_place_of_disjoint (by omega), window_const]
  intro i hi
  exact if_neg (by omega)

theorem window_head : window byte 0x10000 (72 + 4024) = head ++ List.replicate 4024 0 := by
  have hhead : window byte 0x10000 72 = head := by
    have := length_fileSig
    rw [byte, window_place_of_disjoint (by omega), window_place_self length_head]
  have hzeros : window byte (0x10000 + 72) 4024 = List.replicate 4024 0 :=
    window_rest (by decide) (.inr (by decide)) (.inl (by decide)) (by decide)
  rw [window_append, hhead, hzeros]

theorem window_regions : window byte 0x30000 (84 + 65452) = regions ++ List.replicate 65452 0 := by
  have hregions : window byte 0x30000 84 = regions := by
    have := length_fileSig
    have := length_head
    rw [byte, window_place_of_disjoint (by omega), window_place_of_disjoint (by omega), window_place_self length_regions]
  have hzeros : window byte (0x30000 + 84) 65452 = List.replicate 65452 0 :=
    window_rest (by decide) (.inr (by decide)) (.inr (by decide)) (by decide)
  rw [window_append, hregions, hzeros]

theorem window_metadata {k n : Nat} (h : k + n ≤ 148) : window byte (0x40000 + k) n = slice metadata k n := by
  have := length_fileSig
  have := length_head
  have := length_regions
  rw [byte, window_place_of_disjoint (by omega), window_place_of_disjoint (by omega), window_place_of_disjoint (by omega),
    window_place (by rw [length_metadata]; exact h)]

theorem window_bat : window byte 0x40100 16 = bat := by
  have := length_fileSig
  have := length_head
  have := length_regions
  have := length_metadata
  rw [byte, window_place_of_disjoint (by omega), window_place_of_disjoint (by omega), window_place_of_disjoint (by omega),
    window_place_of_disjoint (by omega), window_place_self length_bat]

/-! The checksums: the remainder after each part of the buffer. -/

theorem crc_head : Util.crc32cContinue 0xFFFFFFFF (clearChecksum head) = 0 := by
  have hsplit : clearChecksum head = slice (clearChecksum head) 0 20 ++ List.replicate 52 0 := by decide +kernel
  have hstart : Util.crc32cContinue 0xFFFFFFFF (slice (clearChecksum head) 0 20) = 0 := by decide +kernel
  rw [hsplit, Util.crc32cContinue_append, hstart, Util.crc32cContinue_zeros]

theorem crc_regions : Util.crc32cContinue 0xFFFFFFFF (clearChecksum regions) = 0 := by
  have hsplit : clearChecksum regions =
      slice (clearChecksum regions) 0 16 ++ (slice (clearChecksum regions) 16 16 ++ (slice (clearChecksum regions) 32 16 ++
        (slice (clearChecksum regions) 48 16 ++ (slice (clearChecksum regions) 64 16 ++
          slice (clearChecksum regions) 80 4)))) := by
    decide +kernel
  have h0 : Util.crc32cContinue 0xFFFFFFFF (slice (clearChecksum regions) 0 16) = 0xf7690bc0 := by decide +kernel
  have h16 : Util.crc32cContinue 0xf7690bc0 (slice (clearChecksum regions) 16 16) = 0x63d3959a := by decide +kernel
  have h32 : Util.crc32cContinue 0x63d3959a (slice (clearChecksum regions) 32 16) = 0x3463d4bd := by decide +kernel
  have h48 : Util.crc32cContinue 0x3463d4bd (slice (clearChecksum regions) 48 16) = 0x0e5409e1 := by decide +kernel
  have h64 : Util.crc32cContinue 0x0e5409e1 (slice (clearChecksum regions) 64 16) = 0x10fdccec := by decide +kernel
  have h80 : Util.crc32cContinue 0x10fdccec (slice (clearChecksum regions) 80 4) = 0 := by decide +kernel
  rw [hsplit, Util.crc32cContinue_append, h0, Util.crc32cContinue_append, h16, Util.crc32cContinue_append, h32,
    Util.crc32cContinue_append, h48, Util.crc32cContinue_append, h64, h80]

/-! `open`, step by step. -/

theorem readHeader_file : readHeader file header1Off = .ok ⟨0, 0⟩ := by
  have hread : file.readExact .io "read header" header1Off headerLen = .ok (head ++ List.replicate 4024 0) := by
    rw [read (by decide)]
    exact congrArg Except.ok window_head
  have hverify : verify "header" headerSig (head ++ List.replicate 4024 0) =
      .ok (clearChecksum head ++ List.replicate 4024 0) :=
    verify_zeros 4024 (by decide) (by decide) (by decide) crc_head (by decide)
  have hsequence : leU64 (clearChecksum head ++ List.replicate 4024 0) 8 = .ok 0 := by
    rw [leU64, leField_append (by decide) (by rw [List.length_replicate]; decide)]
    rfl
  have hlog : leU32 (clearChecksum head ++ List.replicate 4024 0) 68 = .ok 0 := by
    rw [leU32, leField_append (by decide) (by rw [List.length_replicate]; decide)]
    rfl
  rw [readHeader, seek (by decide), ok_bind, hread, ok_bind, hverify, ok_bind, hsequence, ok_bind, hlog, ok_bind]

theorem pickHeader_file : pickHeader file = .ok ⟨0, 0⟩ := by
  have hzeros : window byte 0x20000 4096 = List.replicate 4096 0 :=
    window_rest (by decide) (.inr (by decide)) (.inl (by decide)) (by decide)
  have hnone : (readHeader file header2Off).toOption = none := by
    rw [readHeader, seek (by decide), ok_bind, read (by decide), ok_bind]
    change ((verify "header" headerSig (window byte 0x20000 4096) >>= fun buf => _).toOption) = none
    rw [hzeros, verify, slice, List.drop_zero, List.take_replicate, if_pos (by decide)]
    rfl
  rw [pickHeader, readHeader_file, hnone]
  rfl

def batRegion : RegionEntry := ⟨regionBat, 0x40100, 16, true⟩
def metaRegion : RegionEntry := ⟨regionMetadata, 0x40000, 148, true⟩

theorem readRegionTable_file : readRegionTable file regionTable1Off = .ok [batRegion, metaRegion] := by
  have hread : file.readExact .io "read region" regionTable1Off regionTableLen =
      .ok (regions ++ List.replicate 65452 0) := by
    rw [read (by decide)]
    exact congrArg Except.ok window_regions
  have hverify : verify "region" regionSig (regions ++ List.replicate 65452 0) =
      .ok (clearChecksum regions ++ List.replicate 65452 0) :=
    verify_zeros 65452 (by decide) (by decide) (by decide) crc_regions (by decide)
  have hlen : (clearChecksum regions).length + (List.replicate 65452 (0 : UInt8)).length < 2 ^ 64 := by
    rw [List.length_replicate]
    decide
  have hcount : leU32 (clearChecksum regions ++ List.replicate 65452 0) 8 = .ok 2 := by
    rw [leU32, leField_append (by decide) hlen]
    rfl
  have hentry : ∀ i < 2, readRegionEntry (clearChecksum regions ++ List.replicate 65452 0) i =
      readRegionEntry (clearChecksum regions) i := by
    intro i hi
    have hregions : (clearChecksum regions).length = 84 := by rfl
    rw [readRegionEntry, readRegionEntry, List.length_append, if_neg (by omega), if_neg (by omega)]
    simp only [leU64, leU32]
    rw [leField_append (by omega) hlen, leField_append (by omega) hlen, leField_append (by omega) hlen,
      slice_append_left (by omega)]
  rw [readRegionTable, seek (by decide), ok_bind, hread, ok_bind, hverify, ok_bind, hcount, ok_bind, if_neg (by decide)]
  change ([0, 1] : List Nat).mapM _ = _
  rw [List.mapM_cons, List.mapM_cons, List.mapM_nil, hentry 0 (by decide), hentry 1 (by decide)]
  rfl

/-- Reads inside the metadata region. -/
theorem read_metadata {wrap : String → CelError} {what : String} {k n : Nat} (h : k + n ≤ 148) :
    file.readExact wrap what (0x40000 + k) n = .ok (slice metadata k n) := by
  rw [read (by omega), window_metadata h]

/-- An item of the metadata table, when its entry and its bytes are in the region `m`. -/
theorem readItem_region {f : DiskFile} {m : List UInt8}
    (hseek : ∀ what off, off ≤ 2 ^ 63 - 1 → f.seek what off = .ok ())
    (hread : ∀ what k n, k + n ≤ 148 → f.readExact .io what (0x40000 + k) n = .ok (slice m k n))
    {i : Nat} (itemOff itemLen : Nat) (items : Items) (hi : i < 3)
    (hoff : leU32 (slice m (32 + i * 32) 32) 16 = .ok itemOff)
    (hlen : leU32 (slice m (32 + i * 32) 32) 20 = .ok itemLen) (hpos : itemLen ≠ 0) (hin : itemOff + itemLen ≤ 148) :
    readItem f 0x40000 items i = items.take (slice (slice m (32 + i * 32) 32) 0 16) (slice m itemOff itemLen) := by
  rw [readItem, add64_ok (by omega), ok_bind, add64_ok (by omega), ok_bind, hseek _ _ (by omega), ok_bind, Nat.add_assoc,
    hread _ _ _ (by omega), ok_bind, hoff, ok_bind, hlen, ok_bind, if_neg (by omega), add64_ok (by omega), ok_bind,
    hseek _ _ (by omega), ok_bind, hread _ _ _ hin, ok_bind]

/-- The metadata of a disk of one block, `n` bytes both, when the region `m` has the table of this one. -/
theorem readMetadataRegion_region {f : DiskFile} {m : List UInt8} {n : Nat}
    (hseek : ∀ what off, off ≤ 2 ^ 63 - 1 → f.seek what off = .ok ())
    (hread : ∀ what k n, k + n ≤ 148 → f.readExact .io what (0x40000 + k) n = .ok (slice m k n)) (hm : m.length = 148)
    (htable : ∀ k len, k + len ≤ 128 → slice m k len = slice metadata k len) (hblock : leU32 (slice m 128 8) 0 = .ok n)
    (hflags : leU32 (slice m 128 8) 4 = .ok 0) (hsize : leU64 (slice m 136 8) 0 = .ok n)
    (hsector : leU32 (slice m 144 4) 0 = .ok 512) : readMetadataRegion f 0x40000 = .ok ⟨n, false, false, n, 512⟩ := by
  have hhdr : f.readExact .io "read metadata header" 0x40000 32 = .ok (slice metadata 0 32) := by
    rw [← htable 0 32 (by decide)]
    exact hread _ 0 32 (by decide)
  have hcount : leU16 (slice metadata 0 32) 10 = .ok 3 := by rfl
  have hlen : ∀ k len, k + len ≤ 148 → (slice m k len).length = len := fun k len h => length_slice_of_le (by omega)
  have hitems : ([0, 1, 2] : List Nat).foldlM (readItem f 0x40000) Items.empty =
      .ok ⟨some n, some 0, some n, some 512⟩ := by
    have h0 : readItem f 0x40000 Items.empty 0 = .ok ⟨some n, some 0, none, none⟩ := by
      rw [readItem_region hseek hread 128 8 _ (by decide) (by rw [htable _ _ (by decide)]; rfl)
        (by rw [htable _ _ (by decide)]; rfl) (by decide) (by decide), htable _ _ (by decide), Items.take, if_pos (by rfl),
        if_neg (by rw [hlen _ _ (by decide)]; decide), hblock, ok_bind, hflags, ok_bind]
      rfl
    have h1 : readItem f 0x40000 ⟨some n, some 0, none, none⟩ 1 = .ok ⟨some n, some 0, some n, none⟩ := by
      rw [readItem_region hseek hread 136 8 _ (by decide) (by rw [htable _ _ (by decide)]; rfl)
        (by rw [htable _ _ (by decide)]; rfl) (by decide) (by decide), htable _ _ (by decide), Items.take,
        if_neg (by decide), if_pos (by rfl), if_neg (by rw [hlen _ _ (by decide)]; decide), hsize, ok_bind]
    have h2 : readItem f 0x40000 ⟨some n, some 0, some n, none⟩ 2 = .ok ⟨some n, some 0, some n, some 512⟩ := by
      rw [readItem_region hseek hread 144 4 _ (by decide) (by rw [htable _ _ (by decide)]; rfl)
        (by rw [htable _ _ (by decide)]; rfl) (by decide) (by decide), htable _ _ (by decide), Items.take,
        if_neg (by decide), if_neg (by decide), if_pos (by rfl), if_neg (by rw [hlen _ _ (by decide)]; decide), hsector,
        ok_bind]
    rw [List.foldlM_cons, h0, ok_bind, List.foldlM_cons, h1, ok_bind, List.foldlM_cons, h2, ok_bind, List.foldlM_nil]
    rfl
  rw [readMetadataRegion, hseek _ _ (by decide), ok_bind, hhdr, ok_bind, if_neg (by decide), hcount, ok_bind,
    if_neg (by decide)]
  change ([0, 1, 2] : List Nat).foldlM _ _ >>= _ = _
  rw [hitems]
  rfl

theorem readMetadataRegion_file : readMetadataRegion file 0x40000 = .ok ⟨0x100000, false, false, 0x100000, 512⟩ :=
  readMetadataRegion_region (fun _ _ => seek) (fun _ _ _ => read_metadata) length_metadata (fun _ _ _ => rfl) (by rfl)
    (by rfl) (by rfl) (by rfl)

theorem pickRegionTable_file : pickRegionTable file = .ok [batRegion, metaRegion] := by
  rw [pickRegionTable, readRegionTable_file]

def image : VhdxImage where
  file := file
  virtualSize := 0x100000
  blockSize := 0x100000
  logicalSectorSize := 512
  bat := [0x100006, 0]
  chunkRatio := 4096
  isFixed := false

/-- The image of a disk of one block, `n` bytes both, when its table is `bat`. -/
theorem fromMetadata_region {f : DiskFile} {bat : List UInt8} {n : Nat}
    (hseek : ∀ what off, off ≤ 2 ^ 63 - 1 → f.seek what off = .ok ())
    (hbat : f.readExact .storage "read bat" 0x40100 16 = .ok bat) (hn : ¬ (n = 0 ∨ n % megabyte ≠ 0))
    (hratio : 2 ^ 32 / n ≠ 0) (hpb : divCeil n n = 1) (hchunks : divCeil 1 (2 ^ 32 / n) = 1) :
    VhdxImage.fromMetadata f batRegion ⟨n, false, false, n, 512⟩ =
      .ok ⟨f, n, n, 512, (chunksExact 8 bat).map leNat, 2 ^ 32 / n, false⟩ := by
  have hchunk : checkedMul64 (2 ^ 23) 512 (CelError.invalid "vhdx: chunk_ratio overflow") = .ok (2 ^ 32) :=
    checkedMul64_eq_ok.2 ⟨by decide, by decide⟩
  have htotal : checkedAdd64 1 1 (CelError.invalid "vhdx: BAT entry count overflow") = .ok 2 :=
    checkedAdd64_eq_ok.2 ⟨by decide, by decide⟩
  have hbytes : checkedMul64 2 8 (CelError.invalid "vhdx: BAT byte length overflow") = .ok 16 :=
    checkedMul64_eq_ok.2 ⟨by decide, by decide⟩
  rw [VhdxImage.fromMetadata]
  dsimp only
  rw [if_neg (by decide), if_neg hn, if_neg (by decide), hchunk, ok_bind, if_neg hratio, hpb, hchunks, htotal,
    ok_bind, hbytes, ok_bind, if_neg (by decide), alloc, if_pos (by decide), ok_bind, hseek _ _ (by decide), ok_bind]
  rw [show batRegion.fileOffset = 0x40100 from rfl, hbat, ok_bind]

/-- `open` from its parts, on a file with the two regions of this one. -/
theorem open_region {f : DiskFile} {m : Metadata} {img : VhdxImage}
    (hseek : ∀ what off, off ≤ 2 ^ 63 - 1 → f.seek what off = .ok ())
    (hsig : f.readExact .io "read fileid" 0 8 = .ok fileSig) (hheader : pickHeader f = .ok ⟨0, 0⟩)
    (hregions : pickRegionTable f = .ok [batRegion, metaRegion]) (hm : readMetadataRegion f 0x40000 = .ok m)
    (himg : VhdxImage.fromMetadata f batRegion m = .ok img) : VhdxImage.open f = .ok img := by
  have hfind : [batRegion, metaRegion].find? (fun r => r.guid = regionBat) = some batRegion := by rfl
  have hfind' : [batRegion, metaRegion].find? (fun r => r.guid = regionMetadata) = some metaRegion := by rfl
  rw [VhdxImage.open, hseek _ _ (by decide), ok_bind, hsig, ok_bind, if_neg (by decide), hheader, ok_bind,
    if_neg (by decide), hregions, ok_bind, hfind]
  dsimp only
  rw [hfind']
  dsimp only
  rw [show metaRegion.fileOffset = 0x40000 from rfl, hm, ok_bind, himg]

theorem open_file : VhdxImage.open file = .ok image := by
  have hsig : file.readExact .io "read fileid" 0 8 = .ok fileSig := by
    rw [read (by decide), byte, window_place_self length_fileSig]
  have hbat : file.readExact .storage "read bat" 0x40100 16 = .ok bat := by
    rw [read (by decide), window_bat]
  have hentries : (chunksExact 8 bat).map leNat = [0x100006, 0] := by rfl
  refine open_region (fun _ _ => seek) hsig pickHeader_file pickRegionTable_file readMetadataRegion_file ?_
  rw [fromMetadata_region (fun _ _ => seek) hbat (by decide) (by decide) (by decide) (by decide), hentries]
  rfl

theorem payload_image : image.payload 0 = some 0x100006 := by
  decide

/-- The entry says that the block is at 1 MB, which is where a read gets its bytes. -/
theorem one_block_reads :
    VhdxImage.open file = .ok image ∧ image.payload 0 = some 0x100006 ∧
      image.readAt 5 3 = .ok (window image.reference 5 3) := by
  obtain ⟨-, -, -, hread, -, -⟩ := vhdx_reads open_file
  refine ⟨open_file, payload_image, hread 5 3 fun o _ ho entry hentry => ?_⟩
  have hlen : image.file.bytes.length = 0x200000 := by
    rw [show image.file = file from rfl, bytes_file, length_window]
  have hblock : o / image.blockSize = 0 := Nat.div_eq_of_lt (Nat.lt_trans ho (by decide))
  rw [hblock, payload_image] at hentry
  cases hentry
  rw [hlen]
  exact ⟨by decide, by decide⟩

end OneBlock

end Celium
