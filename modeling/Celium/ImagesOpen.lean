import Celium.Qcow2Read
import Celium.VmdkRead
import Celium.VhdxRead
/-!
# ImagesOpen — what the readers refuse when they open a file

A feature of the file that a reader does not implement, or a top-level table that ends before the disk does, is to be
refused at `open`.  The reader of VHDX does so.  The one of qcow2 lets some features and a short table through, and the one
of VMDK every flag.
-/
namespace Celium

open Bytes Checked

theorem DiskFile.slice_readHeader {f : DiskFile} {len off w : Nat} (h : off + w ≤ (f.readHeader len).2) :
    slice (f.readHeader len).1 off w = slice f.bytes off w := by
  have hgot : (f.read 0 len).length ≤ len := by
    rw [DiskFile.read, length_slice]
    exact Nat.min_le_left _ _
  change slice (f.read 0 len ++ _) off w = _
  rw [slice_append_left h, DiskFile.read, slice_slice (Nat.le_trans h hgot), Nat.zero_add]

/-! ## qcow2 -/

namespace Qcow2

/-- `incompatible_features` of a file of version 3; a header that ends before the field has none. -/
def features (f : DiskFile) : Nat := if 80 ≤ f.bytes.length then beField f.bytes 72 8 else 0

theorem parseHeader_fields {f : DiskFile} {h : Header} (heq : parseHeader f = .ok h) :
    h.version = beField f.bytes 4 4 ∧ (h.version = 2 ∨ h.version = 3) ∧ h.clusterSize = 2 ^ beField f.bytes 20 4 ∧
      h.size = beField f.bytes 24 8 ∧ h.l1Size = beField f.bytes 36 4 ∧
      (h.version = 3 → h.incompatibleFeatures = features f) := by
  have hread : (f.readHeader 104).2 = min 104 f.bytes.length := by
    change (f.read 0 104).length = _
    rw [DiskFile.read, length_slice, Nat.sub_zero]
  have hfield : ∀ off w, off + w ≤ (f.readHeader 104).2 → beField (f.readHeader 104).1 off w = beField f.bytes off w := by
    intro off w h
    rw [beField, DiskFile.slice_readHeader h, beField]
  unfold parseHeader at heq
  obtain ⟨_, -, heq⟩ := bind_eq_ok.1 heq
  simp only at heq
  split at heq
  · cases heq
  rename_i hlong
  split at heq
  · cases heq
  split at heq
  · cases heq
  rename_i hversion
  split at heq
  · cases heq
  obtain rfl := Except.ok.inj heq
  simp only
  rw [hfield 4 4 (by omega)] at hversion ⊢
  rw [hfield 20 4 (by omega), hfield 24 8 (by omega), hfield 36 4 (by omega)]
  refine ⟨rfl, by omega, rfl, rfl, rfl, fun hthree => ?_⟩
  rw [hthree, features]
  by_cases hend : 80 ≤ f.bytes.length
  · rw [if_pos ⟨Nat.le_refl 3, by omega⟩, if_pos hend, hfield 72 8 (by omega)]
  · rw [if_neg (by omega), if_neg hend]

/-- Of the features that the reader does not implement none is set, and the L1 table goes as far as the disk. -/
def FailsClosed (img : Qcow2Image) : Prop :=
  (img.header.version = 3 → ∀ k, k ≠ 0 → k ≠ 1 → img.header.incompatibleFeatures.testBit k = false) ∧
  (∀ o < img.header.size, (img.l1[l1Index img.header o]?).isSome) ∧
  ∀ offset len, img.readAt offset len ≠ .error (.err (.invalid "qcow2: l1 index past l1 table"))

end Qcow2

namespace Qcow2Image

open Qcow2

variable {f : DiskFile} {img : Qcow2Image}

theorem readEntry_ne_index (entry intra take : Nat) :
    img.readEntry entry intra take ≠ .error (.err (.invalid "qcow2: l1 index past l1 table")) := by
  unfold readEntry
  split
  · decide
  split
  · intro h
    cases h
  simp only
  split
  · intro h
    cases h
  · refine bind_ne_error (add64_ne_err _ _ _) fun off => ?_
    refine bind_ne_error (DiskFile.seek_ne_invalid _ _ _) fun _ h => ?_
    cases h

/-- The error comes from the lookup in the L1 table and from nowhere else. -/
theorem readTable_ne_index (l1 l2Index intra take : Nat) :
    img.readTable l1 l2Index intra take ≠ .error (.err (.invalid "qcow2: l1 index past l1 table")) := by
  unfold readTable
  simp only
  split
  · intro h
    cases h
  · refine bind_ne_error (mul64_ne_err _ _ _) fun _ => ?_
    refine bind_ne_error (add64_ne_err _ _ _) fun off => ?_
    refine bind_ne_error (DiskFile.seek_ne_invalid _ _ _) fun _ => ?_
    exact bind_ne_error (DiskFile.readExact_ne_invalid _ _ _ _) fun _ => readEntry_ne_index _ _ _

theorem readAt_ne_index {offset len : Nat} (hcover : offset < img.header.size → (img.l1[l1Index img.header offset]?).isSome) :
    img.readAt offset len ≠ .error (.err (.invalid "qcow2: l1 index past l1 table")) := by
  by_cases hlen : len = 0
  · rw [readAt, if_pos hlen]
    intro h
    cases h
  by_cases hoff : offset < img.header.size
  · obtain ⟨l1, hl1⟩ := Option.isSome_iff_exists.1 (hcover hoff)
    rw [readAt_eq hoff (by omega), hl1]
    exact readTable_ne_index _ _ _ _
  · rw [readAt, if_neg hlen, if_pos (by omega)]
    intro h
    cases h

theorem isSome_l1_iff (hop : Opened f img) (o : Nat) :
    (img.l1[l1Index img.header o]?).isSome ↔ o < img.header.l1Size * (img.header.clusterSize / 8) * img.header.clusterSize := by
  rw [← l1Index_lt_iff hop, isSome_getElem?, hop.l1_length]

theorem failsClosed_iff (hopen : Qcow2Image.open f = .ok img) :
    FailsClosed img ↔
      (beField f.bytes 4 4 = 3 → ∀ k, k = 2 ∨ 5 ≤ k → (features f).testBit k = false) ∧
      beField f.bytes 24 8 ≤ beField f.bytes 36 4 * (2 ^ beField f.bytes 20 4 / 8) * 2 ^ beField f.bytes 20 4 := by
  have hop := opened hopen
  obtain ⟨hversion, -, hcluster, hsize, hl1, hfeatures⟩ := parseHeader_fields hop.parsed
  have hcover := isSome_l1_iff hop
  rw [FailsClosed, hsize, ← hl1, ← hcluster, ← hversion]
  constructor
  · rintro ⟨hbits, htable, -⟩
    refine ⟨fun hthree k hk => ?_, Nat.not_lt.1 fun hshort => ?_⟩
    · rw [← hfeatures hthree]
      exact hbits hthree k (by omega) (by omega)
    have := (hcover _).1 (htable _ hshort)
    omega
  · rintro ⟨hbits, htable⟩
    have hcovered : ∀ o < beField f.bytes 24 8, (img.l1[l1Index img.header o]?).isSome :=
      fun o ho => (hcover o).2 (Nat.lt_of_lt_of_le ho htable)
    refine ⟨fun hthree k h0 h1 => ?_, hcovered, fun offset len => readAt_ne_index fun ho => hcovered _ (hsize ▸ ho)⟩
    rw [hfeatures hthree]
    by_cases hk : k = 2 ∨ 5 ≤ k
    · exact hbits hthree k hk
    · -- Bits 3 and 4 are what `validate_header` looks at.
      have hzero := hop.features (by omega)
      rw [hfeatures hthree] at hzero
      have hrefused : unsupported.testBit k = true := by
        obtain rfl | rfl : k = 3 ∨ k = 4 := by omega
        · decide
        · decide
      have hbit := congrArg (Nat.testBit · k) hzero
      simpa only [Nat.testBit_and, hrefused, Bool.and_true, Nat.zero_testBit] using hbit

end Qcow2Image

/-! ## VMDK -/

namespace Vmdk

theorem parseHeader_flags {f : DiskFile} {h : Header} (heq : parseHeader f = .ok h) : h.flags = leNat (slice f.bytes 8 4) := by
  unfold parseHeader at heq
  obtain ⟨_, -, heq⟩ := bind_eq_ok.1 heq
  simp only at heq
  split at heq
  · cases heq
  rename_i hlong
  obtain ⟨magic, -, heq⟩ := bind_eq_ok.1 heq
  split at heq
  · cases heq
  obtain ⟨version, -, heq⟩ := bind_eq_ok.1 heq
  split at heq
  · cases heq
  obtain ⟨flags, hflags, heq⟩ := bind_eq_ok.1 heq
  obtain ⟨capacity, -, heq⟩ := bind_eq_ok.1 heq
  obtain ⟨grain, -, heq⟩ := bind_eq_ok.1 heq
  obtain ⟨descriptor, -, heq⟩ := bind_eq_ok.1 heq
  obtain ⟨descriptorSize, -, heq⟩ := bind_eq_ok.1 heq
  obtain ⟨gtes, -, heq⟩ := bind_eq_ok.1 heq
  obtain ⟨rgd, -, heq⟩ := bind_eq_ok.1 heq
  obtain ⟨gd, -, heq⟩ := bind_eq_ok.1 heq
  obtain ⟨overhead, -, heq⟩ := bind_eq_ok.1 heq
  obtain rfl := Except.ok.inj heq
  have hraw : slice (f.readHeader 512).1 8 4 = slice f.bytes 8 4 := DiskFile.slice_readHeader (by omega)
  rw [← hraw]
  exact (leField_eq_ok hflags).1

/-- No flag is set that the reader does not know, and the grain directory goes as far as the disk. -/
def FailsClosed (h : Header) (img : VmdkImage) : Prop :=
  (∀ k, 3 ≤ k → h.flags.testBit k = false) ∧
  ∀ o < img.virtualSize, (img.gd[o / (img.grainSizeSectors * sector) / img.numGtesPerGt]?).isSome

/-- `validate_header` does not look at the flags. -/
theorem failsClosed_iff {f : DiskFile} {h : Header} {img : VmdkImage} (hop : Opened f h img) :
    FailsClosed h img ↔ leNat (slice f.bytes 8 4) < 8 := by
  have hcovered : ∀ o < img.virtualSize, (img.gd[o / (img.grainSizeSectors * sector) / img.numGtesPerGt]?).isSome := by
    intro o ho
    rw [isSome_getElem?, hop.grain, hop.gtes]
    exact VmdkImage.gdIndex_lt hop ho
  rw [FailsClosed, and_iff_left hcovered, parseHeader_flags hop.parsed]
  constructor
  · exact fun hbits => Nat.lt_pow_two_of_testBit _ hbits
  · intro hlt k hk
    have hpow : 2 ^ 3 ≤ 2 ^ k := Nat.pow_le_pow_right (by decide) hk
    exact Nat.testBit_lt_two_pow (Nat.lt_of_lt_of_le hlt hpow)

end Vmdk

/-! ## VHDX -/

/-- There is no log to be replayed, no parent that the disk is a difference to, and the table goes as far as the disk. -/
def Vhdx.FailsClosed (f : DiskFile) (img : VhdxImage) : Prop :=
  (∃ h, pickHeader f = .ok h ∧ h.logLength = 0) ∧
  (∃ regions r m, pickRegionTable f = .ok regions ∧ regions.find? (fun r => r.guid = regionMetadata) = some r ∧
    readMetadataRegion f r.fileOffset = .ok m ∧ m.hasParent = false) ∧
  (∀ o < img.virtualSize, (img.bat[o / img.blockSize + o / img.blockSize / img.chunkRatio]?).isSome) ∧
  ∀ offset len, img.readAt offset len ≠ .error (.err (.invalid "vhdx: BAT index out of range"))

/-- **When the readers fail closed.**  A qcow2 file is to have no feature but those that are let through or refused, and an
L1 table for all of its disk; a VMDK file is to have no flag but the lowest three. -/
theorem open_fails_closed_iff (f : DiskFile) :
    (∀ img, Qcow2Image.open f = .ok img →
      (Qcow2.FailsClosed img ↔
        (Qcow2.beField f.bytes 4 4 = 3 → ∀ k, k = 2 ∨ 5 ≤ k → (Qcow2.features f).testBit k = false) ∧
        Qcow2.beField f.bytes 24 8 ≤
          Qcow2.beField f.bytes 36 4 * (2 ^ Qcow2.beField f.bytes 20 4 / 8) * 2 ^ Qcow2.beField f.bytes 20 4)) ∧
    (∀ img, VmdkImage.open f = .ok img →
      ∃ h, Vmdk.parseHeader f = .ok h ∧ (Vmdk.FailsClosed h img ↔ leNat (slice f.bytes 8 4) < 8)) ∧
    ∀ img, VhdxImage.open f = .ok img → Vhdx.FailsClosed f img := by
  refine ⟨fun img hopen => Qcow2Image.failsClosed_iff hopen, fun img hopen => ?_, fun img hopen => ?_⟩
  · obtain ⟨h, hop⟩ := VmdkImage.opened hopen
    exact ⟨h, hop.parsed, Vmdk.failsClosed_iff hop⟩
  · obtain ⟨r, hop⟩ := VhdxImage.opened hopen
    refine ⟨hop.log, hop.parent, fun o ho => ?_, VhdxImage.readAt_ne_index hop⟩
    obtain ⟨entry, -, -, hentry⟩ := VhdxImage.index_lt hop ho
    rw [hentry]
    rfl

/-- An image whose clusters are in another file, and whose L1 table is empty. -/
def externalData : DiskFile where
  path := "disk.qcow2"
  bytes := Qcow2.magic ++ [0, 0, 0, 3] ++ List.replicate 12 0 ++ [0, 0, 0, 9] ++ [0, 0, 0, 0, 0, 0, 2, 0] ++
    List.replicate 8 0 ++ [0, 0, 0, 0, 0, 0, 2, 0] ++ List.replicate 24 0 ++ [0, 0, 0, 0, 0, 0, 0, 4]
  seekMax := 2 ^ 63 - 1
  fits := by decide +kernel
  signed := DiskFile.seekMax_lt

/-- `oneGrain` with the flag that says that its grains are compressed. -/
def compressedGrain : DiskFile where
  path := "disk.vmdk"
  bytes := [0x4b, 0x44, 0x4d, 0x56] ++ [1, 0, 0, 0] ++ [3, 0, 1, 0] ++ oneGrain.bytes.drop 12
  seekMax := 2 ^ 63 - 1
  fits := by decide +kernel
  signed := DiskFile.seekMax_lt

theorem open_lets_through :
    (∃ img, Qcow2Image.open externalData = .ok img ∧ img.header.version = 3 ∧
      img.header.incompatibleFeatures.testBit 2 = true ∧ 0 < img.header.size ∧ img.l1[Qcow2.l1Index img.header 0]? = none) ∧
    ∃ img h, VmdkImage.open compressedGrain = .ok img ∧ Vmdk.parseHeader compressedGrain = .ok h ∧
      h.flags.testBit 16 = true := by
  refine ⟨?_, ?_⟩
  · obtain ⟨img, hopen, himg⟩ := map_eq_ok
      (by decide +kernel : (Qcow2Image.open externalData).map
        (fun img => (img.header.version, img.header.incompatibleFeatures, img.header.size, img.l1)) = .ok (3, 4, 512, []))
    simp only [Prod.mk.injEq] at himg
    obtain ⟨hversion, hfeatures, hsize, hl1⟩ := himg
    refine ⟨img, hopen, hversion, ?_, ?_, ?_⟩
    · rw [hfeatures]
      decide
    · rw [hsize]
      decide
    · rw [hl1]
      rfl
  · obtain ⟨img, hopen, -⟩ := map_eq_ok (by decide +kernel : (VmdkImage.open compressedGrain).map (fun _ => ()) = .ok ())
    obtain ⟨h, hop⟩ := VmdkImage.opened hopen
    refine ⟨img, h, hopen, hop.parsed, ?_⟩
    rw [Vmdk.parseHeader_flags hop.parsed]
    decide +kernel

/-- A file that keeps to the three flags. -/
theorem oneGrain_fails_closed : ∃ img h, VmdkImage.open oneGrain = .ok img ∧ Vmdk.parseHeader oneGrain = .ok h ∧
    Vmdk.FailsClosed h img := by
  obtain ⟨img, hopen, -⟩ := map_eq_ok (by decide +kernel : (VmdkImage.open oneGrain).map (fun _ => ()) = .ok ())
  obtain ⟨h, hparsed, hiff⟩ := (open_fails_closed_iff oneGrain).2.1 img hopen
  exact ⟨img, h, hopen, hparsed, hiff.2 (by decide +kernel)⟩

end Celium
