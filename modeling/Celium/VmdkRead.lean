import Celium.Vmdk
import Mathlib.Tactic.Ring
/-!
# VmdkRead — what `VmdkImage::read_at` reads

Every byte below the virtual size has an entry in the grain directory, whatever the geometry of the header, so the
defaults in the lookups are never taken; and what a read gives is the disk that the tables describe.
-/
namespace Celium

open Blocks Bytes Checked

namespace Vmdk

variable {f : DiskFile} {h : Header}

/-! ## What `open` checks -/

theorem parseHeader_lt (heq : parseHeader f = .ok h) : h.numGtesPerGt < 2 ^ 32 := by
  unfold parseHeader at heq
  obtain ⟨_, -, heq⟩ := bind_eq_ok.1 heq
  simp only at heq
  split at heq
  · cases heq
  obtain ⟨magic, -, heq⟩ := bind_eq_ok.1 heq
  split at heq
  · cases heq
  obtain ⟨version, -, heq⟩ := bind_eq_ok.1 heq
  split at heq
  · cases heq
  obtain ⟨flags, -, heq⟩ := bind_eq_ok.1 heq
  obtain ⟨capacity, -, heq⟩ := bind_eq_ok.1 heq
  obtain ⟨grain, -, heq⟩ := bind_eq_ok.1 heq
  obtain ⟨descriptor, -, heq⟩ := bind_eq_ok.1 heq
  obtain ⟨descriptorSize, -, heq⟩ := bind_eq_ok.1 heq
  obtain ⟨gtes, hgtes, heq⟩ := bind_eq_ok.1 heq
  obtain ⟨rgd, -, heq⟩ := bind_eq_ok.1 heq
  obtain ⟨gd, -, heq⟩ := bind_eq_ok.1 heq
  obtain ⟨overhead, -, heq⟩ := bind_eq_ok.1 heq
  obtain rfl := Except.ok.inj heq
  exact (leField_eq_ok hgtes).2

theorem validateHeader_ok {u : Unit} (heq : validateHeader h = .ok u) :
    (8 ≤ h.grainSizeSectors ∧ h.grainSizeSectors ≤ 2 ^ 20) ∧ 0 < h.numGtesPerGt := by
  unfold validateHeader at heq
  split at heq
  · cases heq
  split at heq
  · cases heq
  split at heq
  · cases heq
  rename_i hgrain hgtes
  omega

/-- What holds of an open image and the header of its file. -/
structure Opened (f : DiskFile) (h : Header) (img : VmdkImage) : Prop where
  file : img.file = f
  parsed : parseHeader f = .ok h
  grain : img.grainSizeSectors = h.grainSizeSectors
  gtes : img.numGtesPerGt = h.numGtesPerGt
  size : img.virtualSize = min (h.capacitySectors * sector) (2 ^ 64 - 1)
  grainBounds : 8 ≤ h.grainSizeSectors ∧ h.grainSizeSectors ≤ 2 ^ 20
  gtesBounds : 0 < h.numGtesPerGt ∧ h.numGtesPerGt < 2 ^ 32
  gd_length : img.gd.length = divCeil h.capacitySectors (h.numGtesPerGt * h.grainSizeSectors)
  gd : ∀ i, img.gd[i]? = if i < img.gd.length then some (gdEntry f h i) else none

theorem parseHeader_noOverflow (f : DiskFile) : NoOverflow (parseHeader f) := by
  unfold parseHeader
  refine (DiskFile.seek_noOverflow _ _).bind fun _ _ => ?_
  simp only
  split
  · exact .err _
  refine (leField_noOverflow _ _ _ _).bind fun magic _ => ?_
  split
  · exact .err _
  refine (leField_noOverflow _ _ _ _).bind fun version _ => ?_
  split
  · exact .err _
  refine (leField_noOverflow _ _ _ _).bind fun flags _ => ?_
  refine (leField_noOverflow _ _ _ _).bind fun capacity _ => ?_
  refine (leField_noOverflow _ _ _ _).bind fun grain _ => ?_
  refine (leField_noOverflow _ _ _ _).bind fun descriptor _ => ?_
  refine (leField_noOverflow _ _ _ _).bind fun descriptorSize _ => ?_
  refine (leField_noOverflow _ _ _ _).bind fun gtes _ => ?_
  refine (leField_noOverflow _ _ _ _).bind fun rgd _ => ?_
  refine (leField_noOverflow _ _ _ _).bind fun gd _ => ?_
  refine (leField_noOverflow _ _ _ _).bind fun overhead _ => ?_
  exact .ok _

theorem validateHeader_noOverflow (h : Header) : NoOverflow (validateHeader h) := by
  unfold validateHeader
  repeat' split
  all_goals first | exact .ok _ | exact .err _

end Vmdk

namespace VmdkImage

open Vmdk

variable {f : DiskFile} {h : Header} {img : VmdkImage}

theorem opened (hopen : VmdkImage.open f = .ok img) : ∃ h, Opened f h img := by
  obtain ⟨header, hparse, hopen⟩ := bind_eq_ok.1 hopen
  obtain ⟨_, hvalid, hopen⟩ := bind_eq_ok.1 hopen
  obtain ⟨hgrain, hgtes⟩ := validateHeader_ok hvalid
  obtain ⟨perGt, hper, hopen⟩ := bind_eq_ok.1 hopen
  obtain ⟨-, rfl⟩ := checkedMul64_eq_ok.1 hper
  split at hopen
  · cases hopen
  obtain ⟨gdBytes, hbytes, hopen⟩ := bind_eq_ok.1 hopen
  obtain ⟨-, rfl⟩ := checkedMul64_eq_ok.1 hbytes
  obtain ⟨gdOff, hoff, hopen⟩ := bind_eq_ok.1 hopen
  obtain ⟨-, rfl⟩ := checkedMul64_eq_ok.1 hoff
  obtain ⟨_, -, hopen⟩ := bind_eq_ok.1 hopen
  obtain ⟨_, -, hopen⟩ := bind_eq_ok.1 hopen
  obtain ⟨raw, hraw, hopen⟩ := bind_eq_ok.1 hopen
  obtain rfl := Except.ok.inj hopen
  obtain ⟨hlength, hget⟩ := DiskFile.words_of_readExact (by decide) hraw leNat
  refine ⟨header, rfl, hparse, rfl, rfl, rfl, hgrain, ⟨hgtes, parseHeader_lt hparse⟩, hlength, fun i => ?_⟩
  rw [hlength]
  exact hget i

theorem open_noOverflow (f : DiskFile) : NoOverflow (VmdkImage.open f) := by
  refine (parseHeader_noOverflow f).bind fun header _ => ?_
  refine (validateHeader_noOverflow header).bind fun _ _ => ?_
  refine (checkedMul64_noOverflow _ _ _).bind fun perGt _ => ?_
  split
  · exact .err _
  refine (checkedMul64_noOverflow _ _ _).bind fun gdBytes _ => ?_
  refine (checkedMul64_noOverflow _ _ _).bind fun gdOff _ => ?_
  refine (alloc_noOverflow _).bind fun _ _ => ?_
  refine (DiskFile.seek_noOverflow _ _).bind fun _ _ => ?_
  refine (DiskFile.readExact_noOverflow _ _ _ _).bind fun raw _ => ?_
  exact .ok _

/-! ## One turn of `read_at` -/

theorem grainBytes_bounds (hop : Opened f h img) : 0 < grainBytes h ∧ grainBytes h ≤ 2 ^ 29 := by
  have := hop.grainBounds
  unfold grainBytes sector
  omega

theorem size_lt (hop : Opened f h img) : img.virtualSize < 2 ^ 64 := by
  rw [hop.size]
  omega

/-- The grain directory goes as far as the disk. -/
theorem gdIndex_lt (hop : Opened f h img) {o : Nat} (ho : o < img.virtualSize) : gdIndex h o < img.gd.length := by
  have hpos : 0 < h.numGtesPerGt * h.grainSizeSectors :=
    Nat.mul_pos hop.gtesBounds.1 (by have := hop.grainBounds; omega)
  have heq : gdIndex h o = o / sector / (h.numGtesPerGt * h.grainSizeSectors) := by
    rw [gdIndex, grainBytes, Nat.div_div_eq_div_mul, Nat.div_div_eq_div_mul]
    congr 1
    ring
  have hsector : o / sector < h.capacitySectors := by
    rw [Nat.div_lt_iff_lt_mul (by decide)]
    have := hop.size
    omega
  rw [heq, hop.gd_length]
  exact div_lt_divCeil hpos hsector

theorem gd_at (hop : Opened f h img) {o : Nat} (ho : o < img.virtualSize) :
    img.gd[gdIndex h o]? = some (gdEntry f h (gdIndex h o)) := by
  rw [hop.gd, if_pos (gdIndex_lt hop ho)]

/-- A grain table that is loaded has every entry. -/
theorem loadGt_ok (hop : Opened f h img) {t : Nat} {gt : List Nat} (hgt : img.loadGt t = .ok gt) :
    gt.length = h.numGtesPerGt ∧ ∀ i < h.numGtesPerGt, gt[i]? = some (gtEntry f t i) := by
  obtain rfl := hop.file
  obtain ⟨bytes, hbytes, hgt⟩ := bind_eq_ok.1 hgt
  obtain ⟨-, rfl⟩ := checkedMul64_eq_ok.1 hbytes
  obtain ⟨_, -, hgt⟩ := bind_eq_ok.1 hgt
  obtain ⟨off, hoff, hgt⟩ := bind_eq_ok.1 hgt
  obtain ⟨-, rfl⟩ := checkedMul64_eq_ok.1 hoff
  obtain ⟨_, -, hgt⟩ := bind_eq_ok.1 hgt
  obtain ⟨raw, hraw, hgt⟩ := bind_eq_ok.1 hgt
  obtain rfl := Except.ok.inj hgt
  obtain ⟨hlength, hget⟩ := DiskFile.words_of_readExact (by decide) hraw leNat
  rw [hop.gtes] at hlength hget
  exact ⟨hlength, fun i hi => (hget i).trans (if_pos hi)⟩

theorem gtIndex_lt (hop : Opened f h img) (o : Nat) : gtIndex h o < h.numGtesPerGt := Nat.mod_lt _ hop.gtesBounds.1

theorem gtEntry_lt (f : DiskFile) (t i : Nat) : gtEntry f t i < 2 ^ 32 := by
  have hle : (slice f.bytes (t * sector + 4 * i) 4).length ≤ 4 := length_slice f.bytes _ _ ▸ Nat.min_le_left _ _
  exact Nat.lt_of_lt_of_le (leNat_lt _) (Nat.pow_le_pow_right (by decide) hle)

/-- What a turn does where the disk goes: through the entries that the file has for it. -/
theorem serve_eq (hop : Opened f h img) {c : Nat} (hc : c < img.virtualSize) (n : Nat) :
    img.serve (grainBytes h) c n =
      if gdEntry f h (gdIndex h c) = 0 ∨ gdEntry f h (gdIndex h c) = 1 then .ok (List.replicate n 0)
      else img.loadGt (gdEntry f h (gdIndex h c)) >>= fun _ =>
        img.readGrain (gtEntry f (gdEntry f h (gdIndex h c)) (gtIndex h c)) (c % grainBytes h) n := by
  have hgd := gd_at hop hc
  simp only [serve, hop.gtes]
  simp only [gdIndex] at hgd
  rw [hgd, Option.getD_some]
  change (if gdEntry f h (gdIndex h c) = 0 ∨ gdEntry f h (gdIndex h c) = 1 then .ok (List.replicate n 0)
    else img.loadGt (gdEntry f h (gdIndex h c)) >>= fun gt =>
      img.readGrain (gt[gtIndex h c]?.getD 0) (c % grainBytes h) n) = _
  split
  · rfl
  · cases hgt : img.loadGt (gdEntry f h (gdIndex h c)) with
    | error e => rfl
    | ok gt =>
      rw [ok_bind, ok_bind, (loadGt_ok hop hgt).2 _ (gtIndex_lt hop c), Option.getD_some]

/-- What is read of a grain, whose offset does not overflow. -/
theorem readGrain_eq (hop : Opened f h img) {g intra : Nat} (hg : g < 2 ^ 32) (hintra : intra < grainBytes h) (n : Nat) :
    img.readGrain g intra n =
      if g = 0 ∨ g = 1 then .ok (List.replicate n 0)
      else f.seek "seek grain" (g * sector + intra) >>= fun _ =>
        f.readExact .storage "read grain" (g * sector + intra) n := by
  obtain rfl := hop.file
  have hgrain := (grainBytes_bounds hop).2
  have hoff : g * sector + intra < 2 ^ 64 := by
    unfold sector
    omega
  have hmul : checkedMul64 g sector (CelError.invalid "vmdk: grain offset overflow") = .ok (g * sector) :=
    checkedMul64_eq_ok.2 ⟨by omega, rfl⟩
  rw [readGrain, hmul, ok_bind, add64_ok hoff, ok_bind]

/-- What a turn gives is of the disk. -/
theorem serve_sound (hop : Opened f h img) {c n : Nat} {bs : List UInt8} (hn : 0 < n)
    (hin : c % grainBytes h + n ≤ grainBytes h) (hto : c + n ≤ img.virtualSize)
    (hserve : img.serve (grainBytes h) c n = .ok bs) : bs = window (reference f h) c n := by
  have hsame : ∀ i < n, gdIndex h (c + i) = gdIndex h c ∧ gtIndex h (c + i) = gtIndex h c ∧
      (c + i) % grainBytes h = c % grainBytes h + i := by
    intro i hi
    obtain ⟨hdiv, hmod⟩ := same_block (grainBytes h) c (i := i) (by omega)
    exact ⟨by rw [gdIndex, hdiv, gdIndex], by rw [gtIndex, hdiv, gtIndex], hmod⟩
  rw [serve_eq hop (by omega)] at hserve
  split at hserve
  · rename_i htable
    obtain rfl := Except.ok.inj hserve
    refine (window_const fun i hi => ?_).symm
    obtain ⟨h1, -, -⟩ := hsame i hi
    simp only [reference, h1, if_pos htable]
  rename_i htable
  obtain ⟨gt, -, hserve⟩ := bind_eq_ok.1 hserve
  rw [readGrain_eq hop (gtEntry_lt _ _ _) (by omega)] at hserve
  split at hserve
  · rename_i hgrain
    obtain rfl := Except.ok.inj hserve
    refine (window_const fun i hi => ?_).symm
    obtain ⟨h1, h2, -⟩ := hsame i hi
    simp only [reference, h1, h2, if_neg htable, if_pos hgrain]
  · rename_i hgrain
    obtain ⟨_, -, hserve⟩ := bind_eq_ok.1 hserve
    obtain ⟨rfl, hend⟩ := DiskFile.readExact_eq_ok hserve
    rw [DiskFile.slice_eq_window (hend hn)]
    refine window_congr fun i hi => ?_
    obtain ⟨h1, h2, h3⟩ := hsame i hi
    simp only [reference, h1, h2, h3, if_neg htable, if_neg hgrain, Nat.add_assoc]

/-- A turn may be made in two. -/
theorem serve_append (hop : Opened f h img) {c a b : Nat} (ha : 0 < a) (hb : 0 < b)
    (hin : c % grainBytes h + a + b ≤ grainBytes h) (hto : c + a + b ≤ img.virtualSize) :
    img.serve (grainBytes h) c (a + b) = both (img.serve (grainBytes h) c a) (img.serve (grainBytes h) (c + a) b) := by
  obtain ⟨hdiv, hmod⟩ := same_block (grainBytes h) c (i := a) (by omega)
  have hgd : gdIndex h (c + a) = gdIndex h c := by rw [gdIndex, hdiv, gdIndex]
  have hgt : gtIndex h (c + a) = gtIndex h c := by rw [gtIndex, hdiv, gtIndex]
  rw [serve_eq hop (by omega), serve_eq hop (by omega), serve_eq hop (by omega), hgd, hgt, hmod]
  split
  · rw [both_ok, List.replicate_add]
  cases img.loadGt (gdEntry f h (gdIndex h c)) with
  | error e => rfl
  | ok gt =>
    rw [ok_bind, ok_bind, ok_bind]
    rw [readGrain_eq hop (gtEntry_lt _ _ _) (by omega), readGrain_eq hop (gtEntry_lt _ _ _) (by omega),
      readGrain_eq hop (gtEntry_lt _ _ _) (by omega)]
    split
    · rw [both_ok, List.replicate_add]
    · rw [← Nat.add_assoc]
      exact DiskFile.fetch_append _ ha hb

theorem loadGt_noOverflow (img : VmdkImage) (t : Nat) : NoOverflow (img.loadGt t) := by
  refine (checkedMul64_noOverflow _ _ _).bind fun bytes _ => ?_
  refine (alloc_noOverflow _).bind fun _ _ => ?_
  refine (checkedMul64_noOverflow _ _ _).bind fun off _ => ?_
  refine (DiskFile.seek_noOverflow _ _).bind fun _ _ => ?_
  refine (DiskFile.readExact_noOverflow _ _ _ _).bind fun raw _ => ?_
  exact .ok _

theorem serve_noOverflow (hop : Opened f h img) {c n : Nat} (hc : c < img.virtualSize) :
    NoOverflow (img.serve (grainBytes h) c n) := by
  rw [serve_eq hop hc]
  split
  · exact .ok _
  refine (loadGt_noOverflow img _).bind fun gt _ => ?_
  rw [readGrain_eq hop (gtEntry_lt _ _ _) (Nat.mod_lt _ (grainBytes_bounds hop).1)]
  split
  · exact .ok _
  · exact (DiskFile.seek_noOverflow _ _).bind fun _ _ => DiskFile.readExact_noOverflow _ _ _ _

/-! ## Whole reads -/

/-- `read_at` goes grain by grain. -/
theorem disk_eq (hop : Opened f h img) :
    img.disk = DiskImage.blockwise img.virtualSize (grainBytes h) (img.serve (grainBytes h)) := by
  have hmul : (mul64 img.grainSizeSectors sector : Outcome CelError Nat) = .ok (grainBytes h) := by
    have := (grainBytes_bounds hop).2
    rw [hop.grain]
    exact mul64_ok (by unfold grainBytes at this; omega)
  rw [disk, DiskImage.blockwise]
  congr 1
  funext offset len
  simp only [readAt, hmul, ok_bind]

end VmdkImage

/-- **What a vmdk image reads.**  Nothing in `open` or `read_at` overflows.  In an image that was opened every byte of the
disk has an entry in the grain directory, and every grain table that is loaded has all of its entries; a read that succeeds
is as long as the disk allows and gives the disk that the tables describe; and a range read in pieces gives the same. -/
theorem vmdk_reads (f : DiskFile) :
    NoOverflow (VmdkImage.open f) ∧
    ∀ img, VmdkImage.open f = .ok img → ∃ h, Vmdk.parseHeader f = .ok h ∧
      (∀ o < img.virtualSize, Vmdk.gdIndex h o < img.gd.length) ∧
      (∀ t gt, img.loadGt t = .ok gt → ∀ o, Vmdk.gtIndex h o < gt.length) ∧
      (∀ offset len bs, img.readAt offset len = .ok bs →
        bs.length = min len (img.virtualSize - offset) ∧ bs = window (Vmdk.reference f h) offset bs.length) ∧
      (∀ offset len, NoOverflow (img.readAt offset len)) ∧
      ∀ offset ms, img.disk.readPieces offset ms = img.readAt offset ms.sum := by
  refine ⟨VmdkImage.open_noOverflow f, fun img hopen => ?_⟩
  obtain ⟨h, hop⟩ := VmdkImage.opened hopen
  have hblock := (VmdkImage.grainBytes_bounds hop).1
  have hsize := VmdkImage.size_lt hop
  have hreadAt : img.readAt = img.disk.readAt := rfl
  refine ⟨h, hop.parsed, fun o ho => VmdkImage.gdIndex_lt hop ho, ?_, ?_, ?_, ?_⟩
  · intro t gt hgt o
    rw [(VmdkImage.loadGt_ok hop hgt).1]
    exact VmdkImage.gtIndex_lt hop o
  · intro offset len bs hread
    rw [hreadAt, VmdkImage.disk_eq hop] at hread
    have hbs := DiskImage.blockwise_sound hblock hsize
      (fun c n bs hn hin hto => VmdkImage.serve_sound hop hn hin hto) hread
    have hlen : bs.length = min len (img.virtualSize - offset) := by rw [hbs, length_window]
    exact ⟨hlen, by rw [hlen]; exact hbs⟩
  · intro offset len
    rw [hreadAt, VmdkImage.disk_eq hop]
    exact DiskImage.blockwise_ne_error hblock hsize
      (fun c n hn _ hto => VmdkImage.serve_noOverflow hop (by omega)) offset len
  · intro offset ms
    rw [hreadAt, VmdkImage.disk_eq hop]
    exact DiskImage.blockwise_readPieces hblock hsize
      (fun c n bs hn hin hto => VmdkImage.serve_sound hop hn hin hto)
      (fun c a b ha hb hin hto => VmdkImage.serve_append hop ha hb hin hto) offset ms

/-- A disk of two grains of 4 KiB: the first starts with `ABCD`, the second is not there. -/
def oneGrain : DiskFile where
  path := "disk.vmdk"
  bytes := [0x4b, 0x44, 0x4d, 0x56] ++ [1, 0, 0, 0] ++ [3, 0, 0, 0] ++ [16, 0, 0, 0, 0, 0, 0, 0] ++ [8, 0, 0, 0, 0, 0, 0, 0] ++
    List.replicate 16 0 ++ [1, 0, 0, 0] ++ List.replicate 8 0 ++ [1, 0, 0, 0, 0, 0, 0, 0] ++ [1, 0, 0, 0, 0, 0, 0, 0] ++
    List.replicate 440 0 ++ [2, 0, 0, 0] ++ List.replicate 508 0 ++ [3, 0, 0, 0] ++ List.replicate 508 0 ++
    [0x41, 0x42, 0x43, 0x44]
  seekMax := 2 ^ 63 - 1
  fits := by decide +kernel
  signed := DiskFile.seekMax_lt

theorem oneGrain_reads : ∃ img h, VmdkImage.open oneGrain = .ok img ∧ Vmdk.parseHeader oneGrain = .ok h ∧
    img.readAt 1 2 = .ok [0x42, 0x43] ∧ [0x42, 0x43] = window (Vmdk.reference oneGrain h) 1 2 := by
  obtain ⟨img, hopen, hread⟩ := map_eq_ok
    (by decide +kernel : (VmdkImage.open oneGrain).map (fun img => img.readAt 1 2) = .ok (.ok [0x42, 0x43]))
  obtain ⟨h, hparsed, -, -, hreads, -⟩ := (vmdk_reads oneGrain).2 img hopen
  exact ⟨img, h, hopen, hparsed, hread, (hreads 1 2 _ hread).2⟩

end Celium
