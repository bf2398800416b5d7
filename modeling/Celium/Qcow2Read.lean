import Celium.Qcow2
/-!
# Qcow2Read — `read_exact_at` of a qcow2 image

An open image reads the disk that the tables of its file describe, as far as its L1 table goes.  `open` does not check that
the table goes as far as the disk.
-/
namespace Celium

open Blocks Bytes Checked

namespace Qcow2

variable {f : DiskFile} {h : Header}

/-! ## What `open` checks -/

theorem parseHeader_ok (heq : parseHeader f = .ok h) :
    h.clusterSize = 2 ^ h.clusterBits ∧ h.size < 2 ^ 64 ∧ h.l1Size < 2 ^ 32 := by
  have hlt : ∀ (buf : List UInt8) (off w : Nat), beField buf off w < 256 ^ w := by
    intro buf off w
    refine Nat.lt_of_lt_of_le (beNat_lt _) (Nat.pow_le_pow_right (by decide) ?_)
    rw [length_slice]
    exact Nat.min_le_left _ _
  unfold parseHeader at heq
  obtain ⟨_, -, heq⟩ := bind_eq_ok.1 heq
  simp only at heq
  split at heq
  · cases heq
  split at heq
  · cases heq
  split at heq
  · cases heq
  split at heq
  · cases heq
  obtain rfl := Except.ok.inj heq
  exact ⟨rfl, hlt _ 24 8, hlt _ 36 4⟩

theorem validateHeader_ok {u : Unit} (heq : validateHeader h = .ok u) :
    (9 ≤ h.clusterBits ∧ h.clusterBits ≤ 21) ∧ (3 ≤ h.version → h.incompatibleFeatures &&& unsupported = 0) := by
  unfold validateHeader at heq
  split at heq
  · cases heq
  rename_i hbits
  split at heq
  · cases heq
  split at heq
  · cases heq
  split at heq
  · cases heq
  split at heq
  · cases heq
  rename_i hfeatures
  exact ⟨Decidable.not_not.1 hbits, fun hv => by_contra fun hne => hfeatures ⟨hv, hne⟩⟩

/-- What holds of an open image. -/
structure Opened (f : DiskFile) (img : Qcow2Image) : Prop where
  file : img.file = f
  parsed : parseHeader f = .ok img.header
  bits : 9 ≤ img.header.clusterBits ∧ img.header.clusterBits ≤ 21
  clusterSize : img.header.clusterSize = 2 ^ img.header.clusterBits
  size : img.header.size < 2 ^ 64
  features : 3 ≤ img.header.version → img.header.incompatibleFeatures &&& unsupported = 0
  l1_length : img.l1.length = img.header.l1Size
  l1 : ∀ o, img.l1[l1Index img.header o]? = l1Entry f img.header o

end Qcow2

namespace Qcow2Image

open Qcow2

variable {f : DiskFile} {img : Qcow2Image}

theorem opened (hopen : Qcow2Image.open f = .ok img) : Opened f img := by
  obtain ⟨header, hparse, hopen⟩ := bind_eq_ok.1 hopen
  obtain ⟨_, hvalid, hopen⟩ := bind_eq_ok.1 hopen
  obtain ⟨hsize, hlt, hl1⟩ := parseHeader_ok hparse
  obtain ⟨hbits, hfeatures⟩ := validateHeader_ok hvalid
  have hmul : (mul64 header.l1Size 8 : Outcome CelError Nat) = .ok (header.l1Size * 8) := mul64_ok (by omega)
  obtain ⟨l1Bytes, hbytes, hopen⟩ := bind_eq_ok.1 hopen
  obtain rfl := Except.ok.inj (hmul.symm.trans hbytes)
  obtain ⟨_, -, hopen⟩ := bind_eq_ok.1 hopen
  obtain ⟨_, -, hopen⟩ := bind_eq_ok.1 hopen
  obtain ⟨raw, hraw, hopen⟩ := bind_eq_ok.1 hopen
  obtain rfl := Except.ok.inj hopen
  obtain ⟨hlength, hget⟩ := DiskFile.words_of_readExact (by decide) hraw beNat
  exact ⟨rfl, hparse, hbits, hsize, hlt, hfeatures, hlength, fun o => hget _⟩

/-! ## One call of `read_at` -/

theorem masked (entry : Nat) : entry &&& l2EntryOffsetMask = tableOffset entry := and_mid entry (j := 9) (k := 56) (by decide)

theorem clusterSize_pos (hop : Opened f img) : 0 < img.header.clusterSize ∧ 0 < img.header.clusterSize / 8 := by
  have hle : 2 ^ 9 ≤ img.header.clusterSize := hop.clusterSize ▸ Nat.pow_le_pow_right (by decide) hop.bits.1
  omega

/-- How much a call reads: not past the end of the disk, and not past the end of the cluster. -/
def taken (img : Qcow2Image) (offset len : Nat) : Nat :=
  min (min len (img.header.size - offset)) (img.header.clusterSize - offset % img.header.clusterSize)

theorem taken_bounds (hop : Opened f img) {offset len : Nat} (hoff : offset < img.header.size) (hlen : 0 < len) :
    0 < img.taken offset len ∧ img.taken offset len ≤ len ∧
      offset % img.header.clusterSize + img.taken offset len ≤ img.header.clusterSize := by
  have := Nat.mod_lt offset (clusterSize_pos hop).1
  unfold taken
  omega

theorem readAt_eq {offset len : Nat} (hoff : offset < img.header.size) (hlen : 0 < len) :
    img.readAt offset len = match img.l1[l1Index img.header offset]? with
      | none => .error (.err (.invalid "qcow2: l1 index past l1 table"))
      | some l1 => img.readTable l1 (offset / img.header.clusterSize % (img.header.clusterSize / 8))
          (offset % img.header.clusterSize) (img.taken offset len) := by
  rw [readAt, if_neg (Nat.ne_of_gt hlen), if_neg (Nat.not_le.2 hoff)]
  rfl

/-- The bytes of one cluster have their entries in common. -/
theorem same_cluster {h : Header} {o i : Nat} (hi : o % h.clusterSize + i < h.clusterSize) :
    l1Entry f h (o + i) = l1Entry f h o ∧ (∀ l2, l2Entry f h l2 (o + i) = l2Entry f h l2 o) ∧
      (o + i) % h.clusterSize = o % h.clusterSize + i := by
  obtain ⟨hdiv, hmod⟩ := same_block _ _ hi
  have hindex : l1Index h (o + i) = l1Index h o := by
    rw [l1Index, hdiv, l1Index]
  refine ⟨?_, fun l2 => ?_, hmod⟩
  · rw [l1Entry, hindex, l1Entry]
  · rw [l2Entry, l2At, hdiv, l2Entry, l2At]

/-- From an L2 entry of a plain cluster on. -/
theorem readEntry_eq {entry intra take : Nat} (hcompressed : entry.testBit 62 = false)
    (hdata : ¬ isZero img.header entry → tableOffset entry ≠ 0 → tableOffset entry + intra + take ≤ img.file.bytes.length) :
    img.readEntry entry intra take =
      .ok (window (fun i => if isZero img.header entry ∨ tableOffset entry = 0 then 0
        else img.file.byte (tableOffset entry + i)) intra take) := by
  have hzero : (3 ≤ img.header.version ∧ entry &&& l2EntryZeroCluster ≠ 0) ↔ isZero img.header entry :=
    and_congr_right fun _ => (not_congr and_bit_eq_zero).trans (Bool.not_eq_false _).to_iff
  have hplain : ¬ entry &&& l2EntryCompressed ≠ 0 := Decidable.not_not.2 (and_bit_eq_zero.2 hcompressed)
  simp only [readEntry, masked, hzero]
  rw [if_neg hplain]
  by_cases hz : isZero img.header entry
  · rw [if_pos hz]
    refine congrArg Except.ok (window_const fun i _ => ?_).symm
    exact if_pos (.inl hz)
  by_cases ht : tableOffset entry = 0
  · rw [if_neg hz, if_pos ht]
    refine congrArg Except.ok (window_const fun i _ => ?_).symm
    exact if_pos (.inr ht)
  · have hin := hdata hz ht
    have hlt := img.file.length_lt
    have hfits := img.file.fits
    rw [if_neg hz, if_neg ht, add64_ok (by omega), ok_bind, DiskFile.seek_ok (by omega), ok_bind, DiskFile.readFill_eq hin]
    refine congrArg Except.ok (window_congr fun i _ => ?_)
    rw [if_neg (not_or.2 ⟨hz, ht⟩), Nat.add_assoc]

theorem l2At_lt (hop : Opened f img) (l1 o : Nat) : l2At img.header (tableOffset l1) o < 2 ^ 64 := by
  have hmod := Nat.mod_lt (o / img.header.clusterSize) (clusterSize_pos hop).2
  have hsize : img.header.clusterSize ≤ 2 ^ 21 := hop.clusterSize ▸ Nat.pow_le_pow_right (by decide) hop.bits.2
  have htable : tableOffset l1 < 2 ^ 56 :=
    Nat.lt_of_le_of_lt (Nat.mul_div_le _ _) (Nat.mod_lt l1 (by decide))
  unfold l2At
  omega

/-- A call where the L1 table has an entry gives what it takes of the disk. -/
theorem readAt_covered (hop : Opened f img) {offset len : Nat} (hoff : offset < img.header.size) (hlen : 0 < len)
    (hcover : l1Index img.header offset < img.header.l1Size)
    (hplain : ∀ i < img.taken offset len, Plain f img.header (offset + i)) :
    img.readAt offset len = .ok (window (reference f img.header) offset (img.taken offset len)) := by
  obtain ⟨hpos, -, hin⟩ := taken_bounds hop hoff hlen
  obtain rfl := hop.file
  obtain ⟨l1, hl1⟩ : ∃ l1, l1Entry img.file img.header offset = some l1 := ⟨_, if_pos hcover⟩
  rw [readAt_eq hoff hlen, hop.l1, hl1]
  simp only [readTable, masked]
  by_cases ht : tableOffset l1 = 0
  · rw [if_pos ht, window_const]
    intro i hi
    rw [reference, (same_cluster (by omega)).1, hl1]
    exact if_pos ht
  · rw [if_neg ht]
    let entry := l2Entry img.file img.header (tableOffset l1) offset
    -- The bytes of the disk that are read are in one cluster, with one L2 entry.
    have hbyte : ∀ i < img.taken offset len,
        reference img.file img.header (offset + i) = clusterByte img.file img.header entry (offset + i) := by
      intro i hi
      obtain ⟨h1, h2, -⟩ := same_cluster (f := img.file) (h := img.header) (o := offset) (i := i) (by omega)
      rw [reference, h1, hl1]
      change (if tableOffset l1 = 0 then _ else _) = _
      rw [if_neg ht, h2]
    have hfirst : Plain img.file img.header offset := hplain 0 hpos
    obtain ⟨hl2, hcompressed, -⟩ := hfirst l1 hl1 ht
    have hdata : ¬ isZero img.header entry → tableOffset entry ≠ 0 →
        tableOffset entry + offset % img.header.clusterSize + img.taken offset len ≤ img.file.bytes.length := by
      intro hz hd
      obtain ⟨h1, h2, h3⟩ := same_cluster (f := img.file) (h := img.header) (o := offset)
        (i := img.taken offset len - 1) (by omega)
      have hlast := (hplain (img.taken offset len - 1) (by omega) l1 (h1.trans hl1) ht).2.2
      rw [h2, h3] at hlast
      have : tableOffset entry + (offset % img.header.clusterSize + (img.taken offset len - 1)) < _ := hlast hz hd
      omega
    have hlt := l2At_lt hop l1 offset
    have hfits := img.file.fits
    unfold l2At at hl2 hlt
    rw [Nat.mul_comm 8] at hl2 hlt
    rw [mul64_ok (by omega), ok_bind, add64_ok hlt, ok_bind, DiskFile.seek_ok (by omega), ok_bind,
      DiskFile.readExact_ok hl2, ok_bind, Nat.mul_comm]
    refine (readEntry_eq hcompressed hdata).trans (congrArg Except.ok (window_congr fun i hi => ?_))
    rw [hbyte i hi, clusterByte, (same_cluster (f := img.file) (by omega)).2.2]

theorem readAt_uncovered (hop : Opened f img) {offset len : Nat} (hoff : offset < img.header.size) (hlen : 0 < len)
    (hcover : img.header.l1Size ≤ l1Index img.header offset) :
    img.readAt offset len = .error (.err (.invalid "qcow2: l1 index past l1 table")) := by
  rw [readAt_eq hoff hlen, hop.l1, l1Entry, if_neg (Nat.not_lt.2 hcover)]

theorem zeros_ne_nil {take : Nat} (hpos : 0 < take) :
    (.ok (List.replicate take 0) : Outcome CelError (List UInt8)) ≠ .ok [] := by
  intro h
  exact Nat.ne_of_gt hpos ((List.replicate_eq_nil_iff 0).1 (Except.ok.inj h))

theorem readEntry_ne_nil {entry intra take : Nat} (hpos : 0 < take)
    (hdata : ¬ isZero img.header entry → tableOffset entry ≠ 0 → tableOffset entry + intra < img.file.bytes.length) :
    img.readEntry entry intra take ≠ .ok [] := by
  simp only [readEntry, masked]
  split
  · intro h
    cases h
  split
  · exact zeros_ne_nil hpos
  rename_i hz
  split
  · exact zeros_ne_nil hpos
  rename_i ht
  have hin : tableOffset entry + intra < img.file.bytes.length := by
    refine hdata (fun hzero => hz ⟨hzero.1, fun hbit => ?_⟩) ht
    exact Bool.false_ne_true ((and_bit_eq_zero.1 hbit).symm.trans hzero.2)
  have hfits := img.file.fits
  have hlt := img.file.length_lt
  rw [add64_ok (by omega), ok_bind, DiskFile.seek_ok (by omega), ok_bind]
  intro h
  exact DiskFile.readFill_ne_nil hin hpos (Except.ok.inj h)

/-- A call with a buffer gives a byte, or fails. -/
theorem readAt_ne_nil (hop : Opened f img) {offset len : Nat} (hoff : offset < img.header.size) (hlen : 0 < len)
    (hplain : Plain f img.header offset) : img.readAt offset len ≠ .ok [] := by
  obtain ⟨hpos, -, -⟩ := taken_bounds hop hoff hlen
  obtain rfl := hop.file
  rw [readAt_eq hoff hlen, hop.l1]
  cases hl1 : l1Entry img.file img.header offset with
  | none =>
    intro h
    cases h
  | some l1 =>
    simp only [readTable, masked]
    split
    · exact zeros_ne_nil hpos
    rename_i ht
    intro h
    obtain ⟨n, hn, h⟩ := bind_eq_ok.1 h
    obtain ⟨off, hoffset, h⟩ := bind_eq_ok.1 h
    obtain ⟨_, -, h⟩ := bind_eq_ok.1 h
    obtain ⟨raw, hraw, h⟩ := bind_eq_ok.1 h
    have hl2 : raw = slice img.file.bytes (l2At img.header (tableOffset l1) offset) 8 := by
      obtain ⟨rfl, -⟩ := DiskFile.readExact_eq_ok hraw
      have hlt := l2At_lt hop l1 offset
      unfold l2At at hlt ⊢
      rw [Nat.mul_comm 8] at hlt ⊢
      obtain rfl := Except.ok.inj ((mul64_ok (by omega)).symm.trans hn)
      obtain rfl := Except.ok.inj ((add64_ok hlt).symm.trans hoffset)
      rfl
    rw [hl2] at h
    exact readEntry_ne_nil hpos (hplain l1 hl1 ht).2.2 h

/-! ## Ranges -/

/-- A range is read right: by `read_exact_at`, by calls with buffers of any lengths, each call giving some of it, and none
of them nothing. -/
def Reads (img : Qcow2Image) (disk : Nat → UInt8) (offset len : Nat) : Prop :=
  img.disk.readExactAt offset len = .ok (window disk offset len) ∧
  (∀ ms : List Nat, ms.sum ≤ len → ∃ m ≤ ms.sum, img.disk.readPieces offset ms = .ok (window disk offset m)) ∧
  (∀ o n, offset ≤ o → o + n ≤ offset + len → 0 < n → ∃ m, 0 < m ∧ m ≤ n ∧ img.readAt o n = .ok (window disk o m)) ∧
  ∀ o n, offset ≤ o → o < offset + len → 0 < n → img.readAt o n ≠ .ok []

theorem l1Index_lt_iff (hop : Opened f img) {o n : Nat} :
    l1Index img.header o < n ↔ o < n * (img.header.clusterSize / 8) * img.header.clusterSize := by
  obtain ⟨hcs, hper⟩ := clusterSize_pos hop
  rw [l1Index, Nat.div_lt_iff_lt_mul hper, Nat.div_lt_iff_lt_mul hcs]

end Qcow2Image

open Qcow2 in
/-- **A range of plain clusters is read right exactly if the L1 table goes as far.** -/
theorem qcow2_reads_iff {f : DiskFile} {img : Qcow2Image} (hopen : Qcow2Image.open f = .ok img) {offset len : Nat}
    (hrange : offset + len ≤ img.header.size) (hplain : ∀ o, offset ≤ o → o < offset + len → Plain f img.header o) :
    img.Reads (reference f img.header) offset len ↔
      (len = 0 ∨ offset + len ≤ img.header.l1Size * (img.header.clusterSize / 8) * img.header.clusterSize) := by
  have hop := Qcow2Image.opened hopen
  constructor
  · rintro ⟨-, -, hcalls, -⟩
    refine or_iff_not_imp_left.2 fun hlen => Nat.not_lt.1 fun hshort => ?_
    obtain ⟨m, -, -, hread⟩ := hcalls (offset + len - 1) 1 (by omega) (by omega) Nat.one_pos
    have hcover : img.header.l1Size ≤ Qcow2.l1Index img.header (offset + len - 1) := by
      refine Nat.not_lt.1 fun hlt => ?_
      have := (Qcow2Image.l1Index_lt_iff hop).1 hlt
      omega
    rw [Qcow2Image.readAt_uncovered hop (by omega) Nat.one_pos hcover] at hread
    cases hread
  · intro hcover
    have hcalls : ∀ o n, offset ≤ o → o + n ≤ offset + len → 0 < n →
        ∃ m, 0 < m ∧ m ≤ n ∧ img.readAt o n = .ok (window (reference f img.header) o m) := by
      intro o n hlo hhi hn
      have ho : o < img.header.size := by omega
      obtain ⟨hpos, hle, -⟩ := Qcow2Image.taken_bounds hop ho hn
      refine ⟨img.taken o n, hpos, hle, Qcow2Image.readAt_covered hop ho hn ?_ ?_⟩
      · exact (Qcow2Image.l1Index_lt_iff hop).2 (by omega)
      · exact fun i hi => hplain (o + i) (by omega) (by omega)
    refine ⟨?_, ?_, hcalls, ?_⟩
    · have hsize := hop.size
      exact DiskImage.readExactLoop_eq (Nat.le_refl len) (by omega) hcalls
    · intro ms hms
      refine DiskImage.readPieces_eq fun o n hlo hhi => ?_
      rcases Nat.eq_zero_or_pos n with rfl | hn
      · exact ⟨0, Nat.le_refl 0, rfl⟩
      · obtain ⟨m, -, hle, hread⟩ := hcalls o n hlo (by omega) hn
        exact ⟨m, hle, hread⟩
    · intro o n hlo hhi hn
      exact Qcow2Image.readAt_ne_nil hop (by omega) hn (hplain o hlo hhi)

/-- An image with clusters of 512 bytes and one L1 entry, for a disk that is one byte longer than that entry covers. -/
def oneEntry : DiskFile where
  path := "disk.qcow2"
  bytes := Qcow2.magic ++ [0, 0, 0, 3] ++ List.replicate 12 0 ++ [0, 0, 0, 9] ++ [0, 0, 0, 0, 0, 0, 0x80, 0x01] ++
    [0, 0, 0, 0] ++ [0, 0, 0, 1] ++ [0, 0, 0, 0, 0, 0, 2, 0] ++ List.replicate 464 0 ++
    [0, 0, 0, 0, 0, 0, 4, 0] ++ List.replicate 504 0 ++ [0, 0, 0, 0, 0, 0, 6, 0] ++ List.replicate 504 0 ++ [0x42, 0x43]
  seekMax := 2 ^ 63 - 1
  fits := by decide +kernel
  signed := DiskFile.seekMax_lt

def oneEntryHeader : Qcow2.Header where
  version := 3
  clusterBits := 9
  clusterSize := 512
  size := 32769
  cryptMethod := 0
  backingFileOffset := 0
  l1Size := 1
  l1TableOffset := 512
  incompatibleFeatures := 0

theorem open_oneEntry : ∃ img, Qcow2Image.open oneEntry = .ok img ∧ img.header = oneEntryHeader :=
  map_eq_ok (by decide +kernel : (Qcow2Image.open oneEntry).map Qcow2Image.header = .ok oneEntryHeader)

theorem oneEntry_reads : ∃ img, Qcow2Image.open oneEntry = .ok img ∧
    img.Reads (Qcow2.reference oneEntry oneEntryHeader) 0 2 := by
  obtain ⟨img, hopen, hheader⟩ := open_oneEntry
  refine ⟨img, hopen, ?_⟩
  rw [← hheader]
  refine (qcow2_reads_iff hopen ?_ ?_).2 (.inr ?_)
  · rw [hheader]
    decide
  · intro o _ ho l1 hl1 _
    rw [hheader] at hl1 ⊢
    have ho : o = 0 ∨ o = 1 := by omega
    have hentry : ∀ o < 2, Qcow2.l1Entry oneEntry oneEntryHeader o = some 1024 := by decide +kernel
    obtain rfl := Option.some.inj ((hentry o (by omega)).symm.trans hl1)
    rcases ho with rfl | rfl
    · exact ⟨by decide +kernel, by decide +kernel, fun _ _ => by decide +kernel⟩
    · exact ⟨by decide +kernel, by decide +kernel, fun _ _ => by decide +kernel⟩
  · rw [hheader]
    decide

/-- **`open` takes an image whose L1 table is too short for its disk**, and the last byte of that disk cannot be read. -/
theorem l1_too_short : ∃ img, Qcow2Image.open oneEntry = .ok img ∧ 32768 + 1 ≤ img.header.size ∧
    (∀ o, 32768 ≤ o → o < 32768 + 1 → Qcow2.Plain oneEntry img.header o) ∧
    img.disk.readExactAt 32768 1 = .error (.err (.invalid "qcow2: l1 index past l1 table")) ∧
    ¬ img.Reads (Qcow2.reference oneEntry img.header) 32768 1 := by
  obtain ⟨img, hopen, hheader⟩ := open_oneEntry
  have hread : img.readAt 32768 1 = .error (.err (.invalid "qcow2: l1 index past l1 table")) := by
    refine Qcow2Image.readAt_uncovered (Qcow2Image.opened hopen) ?_ Nat.one_pos ?_
    · rw [hheader]
      decide
    · rw [hheader]
      decide
  have hexact : img.disk.readExactAt 32768 1 = .error (.err (.invalid "qcow2: l1 index past l1 table")) := by
    change (img.readAt 32768 1 >>= fun got => _) = _
    rw [hread]
    rfl
  refine ⟨img, hopen, by rw [hheader]; decide, ?_, hexact, ?_⟩
  · intro o hlo hhi l1 hl1
    obtain rfl : o = 32768 := by omega
    rw [hheader] at hl1
    cases (by decide +kernel : Qcow2.l1Entry oneEntry oneEntryHeader 32768 = none).symm.trans hl1
  · rintro ⟨hok, -⟩
    cases hexact.symm.trans hok

end Celium
