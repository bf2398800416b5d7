import Celium.ElfBounds
/-!
# ElfLoad — what a well-formed image is loaded to

The reference is over the addresses that the image is linked at: its segments' bytes, zeros elsewhere, and the relocated
words.  The loader reads its relocation table from the memory that it is changing; the table is in no word that it changes.
-/
namespace Celium

open Bytes Checked

namespace Elf

/-! ## Reference -/

/-- An address of the file's part of a segment. -/
def Phdr.Covers (p : Phdr) (v : Nat) : Prop := p.vaddr ≤ v ∧ v < p.vaddr + p.filesz

instance (p : Phdr) (v : Nat) : Decidable (p.Covers v) := inferInstanceAs (Decidable (_ ∧ _))

/-- The image before relocation. -/
def linked (bytes : List UInt8) (ps : List Phdr) (v : Nat) : UInt8 :=
  match ps.find? (fun p => p.Covers v) with
  | some p => bytes.getD (p.offset + (v - p.vaddr)) 0
  | none => 0

/-- A relocation entry. -/
structure Reloc where
  offset : Nat
  rtype : Nat
  addend : Nat
deriving DecidableEq, Repr

/-- Entry `j` of the table at `addr`. -/
def reloc (image : Mem) (addr j : Nat) : Reloc where
  offset := readWord image (addr + j * 24)
  rtype := readWord image (addr + j * 24 + 8) % 2 ^ 32
  addend := readWord image (addr + j * 24 + 16)

/-- An address in the word that an entry relocates. -/
def Reloc.Targets (e : Reloc) (v : Nat) : Prop := e.rtype = 8 ∧ e.offset ≤ v ∧ v < e.offset + 8

instance (e : Reloc) (v : Nat) : Decidable (e.Targets v) := inferInstanceAs (Decidable (_ ∧ _))

/-- **The image as it is to be at `base`**, by the address that it is linked at. -/
def reference (image : Mem) (rela : Rela) (slide v : Nat) : UInt8 :=
  match ((List.range (rela.size / 24)).map (reloc image rela.addr)).find? (fun e => e.Targets v) with
  | some e => (leBytes 8 (relocValue slide e.addend)).getD (v - e.offset) 0
  | none => image v

/-- Address ranges `[a, a + n)` and `[b, b + m)` that have no address in common. -/
def Apart (a n b m : Nat) : Prop := ∀ v, ¬ ((a ≤ v ∧ v < a + n) ∧ (b ≤ v ∧ v < b + m))

/-- The range that an image is linked at. -/
def imageSpan (bytes : List UInt8) : Span := spanOf (loads bytes (ehdr bytes))

/-- The image at the addresses that it is linked at. -/
def linkedImage (bytes : List UInt8) : Mem := linked bytes (loads bytes (ehdr bytes))

/-- A well-formed ELF64 little-endian image with one dynamic section. -/
structure WellFormed (bytes : List UInt8) (d : Phdr) : Prop where
  recognised : Recognised bytes
  table : (ehdr bytes).phoff + (ehdr bytes).phnum * (ehdr bytes).phentsize ≤ bytes.length
  segments : ∀ p ∈ loads bytes (ehdr bytes),
    p.filesz ≤ p.memsz ∧ p.offset + p.filesz ≤ bytes.length ∧ p.vaddr + p.memsz < 2 ^ 64
  disjoint : (loads bytes (ehdr bytes)).Pairwise fun p q => Apart p.vaddr p.memsz q.vaddr q.memsz
  entry : (imageSpan bytes).vmin ≤ (ehdr bytes).entry ∧ (ehdr bytes).entry < (imageSpan bytes).vmax
  dynamic : dynamics bytes (ehdr bytes) = [d]
  dynFits : DynFits bytes d.offset (d.filesz / 16) 0

/-- The relocations of an image, in and over its loaded range: the table has entries of 24 bytes, and the words that they
relocate are apart from one another and from the table. -/
structure WellRelocated (image : Mem) (v : Span) (rela : Rela) : Prop where
  entries : rela.size ≠ 0 → rela.ent = 24
  table : rela.size ≠ 0 → v.vmin ≤ rela.addr ∧ rela.addr + rela.size ≤ v.vmax
  targets : ∀ j < rela.size / 24, (reloc image rela.addr j).rtype = 8 →
    v.vmin ≤ (reloc image rela.addr j).offset ∧ (reloc image rela.addr j).offset + 8 ≤ v.vmax ∧
      Apart (reloc image rela.addr j).offset 8 rela.addr rela.size
  disjoint : ∀ i j, i < j → j < rela.size / 24 → (reloc image rela.addr i).rtype = 8 → (reloc image rela.addr j).rtype = 8 →
    Apart (reloc image rela.addr i).offset 8 (reloc image rela.addr j).offset 8

/-! ## Segments -/

theorem getD_slice (bytes : List UInt8) {off len k : Nat} (hk : k < len) :
    (slice bytes off len).getD k 0 = bytes.getD (off + k) 0 := by
  rw [List.getD_eq_getElem?_getD, List.getD_eq_getElem?_getD, slice, List.getElem?_take, if_pos hk, List.getElem?_drop]

/-- A copied segment, at an address of it and elsewhere. -/
theorem place_segment {bytes : List UInt8} {p : Phdr} (hfile : p.offset + p.filesz ≤ bytes.length) (slide : Nat)
    (mem : Mem) (v : Nat) :
    place (slide + p.vaddr) (slice bytes p.offset p.filesz) mem (slide + v) =
      if p.Covers v then bytes.getD (p.offset + (v - p.vaddr)) 0 else mem (slide + v) := by
  rw [place, length_slice_of_le hfile]
  by_cases hv : p.Covers v
  · have hcovers := hv
    unfold Phdr.Covers at hcovers
    rw [if_pos (by omega), if_pos hv, getD_slice bytes (by omega)]
    congr 2
    omega
  · have hcovers := hv
    unfold Phdr.Covers at hcovers
    rw [if_neg (by omega), if_neg hv]

theorem copied_uncovered {bytes : List UInt8} {slide v : Nat} (ps : List Phdr) (mem : Mem) (hfile : InFile bytes ps)
    (hv : ∀ p ∈ ps, ¬ p.Covers v) : copied bytes slide mem ps (slide + v) = mem (slide + v) := by
  induction ps generalizing mem with
  | nil => rfl
  | cons p ps ih =>
    obtain ⟨hp, hps⟩ := List.forall_mem_cons.1 hfile
    obtain ⟨hvp, hvps⟩ := List.forall_mem_cons.1 hv
    rw [copied, List.foldl_cons]
    refine (ih _ hps hvps).trans ?_
    rw [place_segment hp, if_neg hvp]

theorem copied_covered {bytes : List UInt8} {slide v : Nat} (ps : List Phdr) (mem : Mem) (hfile : InFile bytes ps)
    (hsize : ∀ p ∈ ps, p.filesz ≤ p.memsz) (hdisjoint : ps.Pairwise fun p q => Apart p.vaddr p.memsz q.vaddr q.memsz)
    {p : Phdr} (hp : p ∈ ps) (hv : p.Covers v) :
    copied bytes slide mem ps (slide + v) = bytes.getD (p.offset + (v - p.vaddr)) 0 := by
  induction ps generalizing mem with
  | nil => cases hp
  | cons q ps ih =>
    obtain ⟨hq, hps⟩ := List.forall_mem_cons.1 hfile
    obtain ⟨hqsize, hpsize⟩ := List.forall_mem_cons.1 hsize
    obtain ⟨hapart, hdisjoint⟩ := List.pairwise_cons.1 hdisjoint
    rw [copied, List.foldl_cons]
    rcases List.mem_cons.1 hp with rfl | hp
    · -- No later segment has the address.
      have huncovered : ∀ q ∈ ps, ¬ q.Covers v := by
        intro q hq hqv
        have := hpsize q hq
        unfold Phdr.Covers at hv hqv
        exact hapart q hq v ⟨by omega, by omega⟩
      refine (copied_uncovered ps _ hps huncovered).trans ?_
      rw [place_segment hq, if_pos hv]
    · exact ih _ hps hpsize hdisjoint hp

/-- After the second pass the region holds the image. -/
theorem copied_linked {bytes : List UInt8} {slide v : Nat} {ps : List Phdr} {mem : Mem} (hfile : InFile bytes ps)
    (hsize : ∀ p ∈ ps, p.filesz ≤ p.memsz) (hdisjoint : ps.Pairwise fun p q => Apart p.vaddr p.memsz q.vaddr q.memsz)
    (hzero : mem (slide + v) = 0) : copied bytes slide mem ps (slide + v) = linked bytes ps v := by
  rw [linked]
  split
  · rename_i p hfind
    have hcovers : p.Covers v := by simpa using List.find?_some hfind
    exact copied_covered ps mem hfile hsize hdisjoint (List.mem_of_find?_eq_some hfind) hcovers
  · rename_i hfind
    rw [copied_uncovered ps mem hfile fun p hp hv => ?_, hzero]
    exact List.find?_eq_none.1 hfind p hp (decide_eq_true hv)

/-! ## Relocations -/

theorem length_leBytes (w v : Nat) : (leBytes w v).length = w := by
  induction w generalizing v with
  | zero => rfl
  | succ w ih => rw [leBytes, List.length_cons, ih]

section Relocations

variable {image mem : Mem} {v : Span} {rela : Rela} {r : Region} {slide : Nat}

/-- The image with its first `k` relocations. -/
def partway (image : Mem) (rela : Rela) (slide k x : Nat) : UInt8 :=
  match ((List.range k).map (reloc image rela.addr)).find? (fun e => e.Targets x) with
  | some e => (leBytes 8 (relocValue slide e.addend)).getD (x - e.offset) 0
  | none => image x

theorem reference_eq_partway (x : Nat) :
    reference image rela slide x = partway image rela slide (rela.size / 24) x := rfl

theorem partway_of_none {k x : Nat} (h : ∀ j < k, ¬ (reloc image rela.addr j).Targets x) :
    partway image rela slide k x = image x := by
  have hfind : ((List.range k).map (reloc image rela.addr)).find? (fun e => e.Targets x) = none := by
    rw [List.find?_eq_none]
    intro e he htargets
    obtain ⟨j, hj, rfl⟩ := List.mem_map.1 he
    exact h j (List.mem_range.1 hj) (of_decide_eq_true htargets)
  rw [partway, hfind]

/-- One more relocation, when no earlier one has the address. -/
theorem partway_succ {k x : Nat}
    (hapart : (reloc image rela.addr k).Targets x → ∀ j < k, ¬ (reloc image rela.addr j).Targets x) :
    partway image rela slide (k + 1) x = if (reloc image rela.addr k).Targets x then
      (leBytes 8 (relocValue slide (reloc image rela.addr k).addend)).getD (x - (reloc image rela.addr k).offset) 0
      else partway image rela slide k x := by
  rw [partway, List.range_succ, List.map_append, List.find?_append, List.map_singleton, List.find?_singleton]
  by_cases hx : (reloc image rela.addr k).Targets x
  · have hnone : ((List.range k).map (reloc image rela.addr)).find? (fun e => e.Targets x) = none := by
      rw [List.find?_eq_none]
      intro e he htargets
      obtain ⟨j, hj, rfl⟩ := List.mem_map.1 he
      exact hapart hx j (List.mem_range.1 hj) (of_decide_eq_true htargets)
    rw [hnone, Option.none_or, if_pos (decide_eq_true hx), if_pos hx]
  · rw [if_neg (fun h => hx (of_decide_eq_true h)), Option.or_none, if_neg hx, partway]

/-- The memory holds the image over the region, as far as the relocations have got. -/
def Holds (r : Region) (v : Span) (slide : Nat) (mem image : Mem) : Prop :=
  ∀ x, v.vmin ≤ x → x < v.vmin + r.size → mem (slide + x) = image x

theorem Holds.readWord {x : Nat} (hmem : Holds r v slide mem image) (hlo : v.vmin ≤ x) (hhi : x + 8 ≤ v.vmin + r.size) :
    readWord mem (slide + x) = Elf.readWord image x := by
  rw [Elf.readWord, Elf.readWord]
  refine congrArg leNat (window_congr fun i hi => ?_)
  rw [Nat.add_assoc]
  exact hmem (x + i) (by omega) (by omega)

/-- The words of entry `k` are in the table, which no relocation has changed. -/
theorem Holds.entry {k c : Nat} (hwell : WellRelocated image v rela) (hspan : v.vmax ≤ v.vmin + r.size)
    (hmem : Holds r v slide mem (partway image rela slide k)) (hk : k < rela.size / 24) (hc : c + 8 ≤ 24) :
    Elf.readWord mem (slide + rela.addr + k * 24 + c) = Elf.readWord image (rela.addr + k * 24 + c) := by
  obtain ⟨hlo, hhi⟩ := hwell.table (by omega)
  have hin : k * 24 + 24 ≤ rela.size := by omega
  rw [Nat.add_assoc, Nat.add_assoc, hmem.readWord (by omega) (by omega), ← Nat.add_assoc, Elf.readWord, Elf.readWord]
  refine congrArg leNat (window_congr fun i hi => partway_of_none fun j hj htargets => ?_)
  obtain ⟨htype, hlo', hhi'⟩ := htargets
  obtain ⟨-, -, hapart⟩ := hwell.targets j (by omega) htype
  exact hapart _ ⟨⟨hlo', hhi'⟩, by omega, by omega⟩

theorem Holds.relocated_eq {k : Nat} (hwell : WellRelocated image v rela) (hspan : v.vmax ≤ v.vmin + r.size)
    (hmem : Holds r v slide mem (partway image rela slide k)) (hk : k < rela.size / 24) :
    relocated slide (slide + rela.addr) 24 mem k =
      if (reloc image rela.addr k).rtype = 8 then
        place (slide + (reloc image rela.addr k).offset) (leBytes 8 (relocValue slide (reloc image rela.addr k).addend)) mem
      else mem := by
  have hoffset := hmem.entry hwell hspan hk (c := 0) (by decide)
  have htype := hmem.entry hwell hspan hk (c := 8) (by decide)
  have haddend := hmem.entry hwell hspan hk (c := 16) (by decide)
  rw [Nat.add_zero, Nat.add_zero] at hoffset
  rw [relocated, hoffset, htype, haddend]
  rfl

theorem Holds.relocated {k : Nat} (hwell : WellRelocated image v rela) (hspan : v.vmax ≤ v.vmin + r.size)
    (hmem : Holds r v slide mem (partway image rela slide k)) (hk : k < rela.size / 24) :
    Holds r v slide (relocated slide (slide + rela.addr) 24 mem k) (partway image rela slide (k + 1)) := by
  intro x hlo hhi
  rw [hmem.relocated_eq hwell hspan hk, partway_succ fun hx j hj hj' => ?_]
  · by_cases htype : (reloc image rela.addr k).rtype = 8
    · rw [if_pos htype, place, length_leBytes]
      by_cases hx : (reloc image rela.addr k).Targets x
      · have htargets := hx
        unfold Reloc.Targets at htargets
        rw [if_pos (by omega), if_pos hx, Nat.add_sub_add_left]
      · have htargets := hx
        unfold Reloc.Targets at htargets
        rw [if_neg (by omega), if_neg hx, hmem x hlo hhi]
    · rw [if_neg htype, if_neg fun hx => htype hx.1, hmem x hlo hhi]
  · exact hwell.disjoint j k hj hk hj'.1 hx.1 x ⟨hj'.2, hx.2⟩

theorem Holds.run (hwell : WellRelocated image v rela) (hspan : v.vmax ≤ v.vmin + r.size) (hmem : Holds r v slide mem image)
    {k : Nat} (hk : k ≤ rela.size / 24) :
    Holds r v slide ((List.range k).foldl (Elf.relocated slide (slide + rela.addr) 24) mem) (partway image rela slide k) := by
  induction k with
  | zero => exact hmem
  | succ k ih =>
    rw [List.range_succ, List.foldl_append, List.foldl_cons, List.foldl_nil]
    have hprev := ih (Nat.le_of_succ_le hk)
    exact hprev.relocated hwell hspan (Nat.lt_of_succ_le hk)

theorem relocatedBy_eq (hentries : rela.size ≠ 0 → rela.ent = 24) :
    relocatedBy slide rela mem = (List.range (rela.size / 24)).foldl (Elf.relocated slide (slide + rela.addr) 24) mem := by
  by_cases hsize : rela.size = 0
  · rw [relocatedBy, hsize, Nat.zero_div, Nat.zero_div, List.range_zero, List.foldl_nil, List.foldl_nil]
  · rw [relocatedBy, hentries hsize]

theorem relocsFit_concat {tableBase ent : Nat} (js : List Nat) (j : Nat) (mem : Mem) :
    RelocsFit r slide tableBase ent mem (js ++ [j]) ↔
      RelocsFit r slide tableBase ent mem js ∧
        EntryFits r slide tableBase ent (js.foldl (Elf.relocated slide tableBase ent) mem) j := by
  induction js generalizing mem with
  | nil => exact ⟨fun h => ⟨trivial, h.1⟩, fun h => ⟨h.2, trivial⟩⟩
  | cons i js ih =>
    rw [List.cons_append, RelocsFit, RelocsFit, List.foldl_cons, ih, and_assoc]

theorem Holds.relocsFit (hwell : WellRelocated image v rela) (hspan : v.vmax ≤ v.vmin + r.size)
    (hbase : r.base = slide + v.vmin) (hword : r.base + r.size ≤ 2 ^ 64)
    (hmem : Holds r v slide mem image) {k : Nat} (hk : k ≤ rela.size / 24) :
    RelocsFit r slide (slide + rela.addr) 24 mem (List.range k) := by
  induction k with
  | zero => trivial
  | succ k ih =>
    rw [List.range_succ, relocsFit_concat]
    refine ⟨ih (by omega), ?_⟩
    have hrun := hmem.run hwell hspan (k := k) (by omega)
    have hoffset := hrun.entry hwell hspan (by omega) (c := 0) (by decide)
    have htype := hrun.entry hwell hspan (by omega) (c := 8) (by decide)
    rw [Nat.add_zero, Nat.add_zero] at hoffset
    obtain ⟨hlo, hhi⟩ := hwell.table (by omega)
    refine ⟨.inr (by omega), fun h => ?_⟩
    rw [htype] at h
    obtain ⟨hlo', hhi', -⟩ := hwell.targets k (by omega) h
    rw [hoffset]
    change slide + (reloc image rela.addr k).offset < 2 ^ 64 ∧ r.Inside (slide + (reloc image rela.addr k).offset) 8
    exact ⟨by omega, .inr (by omega)⟩

end Relocations

/-! ## The whole load -/

theorem spanOf_bounds (ps : List Phdr) : ∀ p ∈ ps, (spanOf ps).vmin ≤ p.vaddr ∧ p.vaddr + p.memsz ≤ (spanOf ps).vmax := by
  have hinv : ∀ v : Span, ((ps.foldl Span.extend v).vmin ≤ v.vmin ∧ v.vmax ≤ (ps.foldl Span.extend v).vmax) ∧
      ∀ p ∈ ps, (ps.foldl Span.extend v).vmin ≤ p.vaddr ∧ p.vaddr + p.memsz ≤ (ps.foldl Span.extend v).vmax := by
    induction ps with
    | nil => exact fun v => ⟨⟨Nat.le_refl _, Nat.le_refl _⟩, fun p hp => by cases hp⟩
    | cons p ps ih =>
      intro v
      obtain ⟨⟨hmin, hmax⟩, hps⟩ := ih (v.extend p)
      have hstep : ((v.extend p).vmin ≤ v.vmin ∧ v.vmax ≤ (v.extend p).vmax) ∧
          (v.extend p).vmin ≤ p.vaddr ∧ p.vaddr + p.memsz ≤ (v.extend p).vmax := by
        unfold Span.extend
        dsimp only
        split <;> split <;> omega
      rw [List.foldl_cons]
      exact ⟨by omega, List.forall_mem_cons.2 ⟨by omega, hps⟩⟩
  exact (hinv _).2

theorem segmentsFit_of_forall {bytes : List UInt8} {r : Region} {slide : Nat} {ps : List Phdr}
    (h : ∀ p ∈ ps, p.offset + p.filesz < 2 ^ 64 ∧ slide + p.vaddr < 2 ^ 64 ∧ r.Inside (slide + p.vaddr) p.filesz) :
    SegmentsFit bytes r slide ps := by
  induction ps with
  | nil => trivial
  | cons p ps ih =>
    obtain ⟨⟨hend, hdst, hin⟩, hps⟩ := List.forall_mem_cons.1 h
    exact ⟨hend, fun _ => ⟨⟨hdst, hin⟩, ih hps⟩⟩

theorem holds_cleared (r : Region) (v : Span) {slide : Nat} (hbase : r.base = slide + v.vmin) (mem : Mem) :
    Holds r v slide (cleared r mem) fun _ => 0 := by
  intro x hlo hhi
  rw [cleared, place, List.length_replicate, if_pos (by omega), List.getD_replicate 0 (by omega)]

theorem fillRegion_ok {bytes : List UInt8} (hlen : bytes.length < 2 ^ 63) {h : Ehdr} (htable : TableFits bytes h) {v : Span}
    {r : Region} {mem : Mem} (hregion : RegionFits bytes h v r mem) (hfile : InFile bytes (loads bytes h)) :
    fillRegion bytes h v r mem =
      .ok (⟨loadSlide r.base v.vmin + h.entry, r.base, v.vmax - v.vmin⟩,
        (dynamics bytes h).foldl (fun mem p => relocatedBy (loadSlide r.base v.vmin) (relaOf bytes p) mem)
          (copied bytes (loadSlide r.base v.vmin) (cleared r mem) (loads bytes h))) := by
  obtain ⟨hsegments, hrest⟩ := hregion
  obtain ⟨hdyn, hentry⟩ := hrest hfile
  rw [fillRegion, copy_eq htable]
  change (List.foldlM (copySegment bytes r (loadSlide r.base v.vmin)) (cleared r mem) (loads bytes h) >>= _) = _
  rw [copy_ok hsegments hfile, ok_bind, dyn_eq htable, dyn_ok hlen hdyn, ok_bind, add64_ok hentry, ok_bind]

theorem slide_eq {base vmin : Nat} (hbase : vmin ≤ base) (hlt : base < 2 ^ 64) : loadSlide base vmin = base - vmin := by
  rw [loadSlide]
  omega

/-- What a well-formed image has, in the region that it gets. -/
theorem regionFits {bytes : List UInt8} (hlen : bytes.length < 2 ^ 63) {d : Phdr} (hwell : WellFormed bytes d)
    (hrelocs : WellRelocated (linkedImage bytes) (imageSpan bytes) (relaOf bytes d)) {r : Region} {slide : Nat}
    (hslide : loadSlide r.base (imageSpan bytes).vmin = slide) (hbase : r.base = slide + (imageSpan bytes).vmin)
    (hregion : r.base + r.size < 2 ^ 64) (hspan : (imageSpan bytes).vmax ≤ (imageSpan bytes).vmin + r.size) (mem : Mem) :
    RegionFits bytes (ehdr bytes) (imageSpan bytes) r mem ∧
      Holds r (imageSpan bytes) slide (copied bytes slide (cleared r mem) (loads bytes (ehdr bytes))) (linkedImage bytes) := by
  have hfile : InFile bytes (loads bytes (ehdr bytes)) := fun p hp => (hwell.segments p hp).2.1
  have hsegments : SegmentsFit bytes r slide (loads bytes (ehdr bytes)) := by
    refine segmentsFit_of_forall fun p hp => ?_
    obtain ⟨hsize, hend, -⟩ := hwell.segments p hp
    obtain ⟨hlo, hhi⟩ := spanOf_bounds _ p hp
    change (imageSpan bytes).vmin ≤ _ at hlo
    change _ ≤ (imageSpan bytes).vmax at hhi
    exact ⟨by omega, by omega, .inr (by omega)⟩
  have hholds : Holds r (imageSpan bytes) slide (copied bytes slide (cleared r mem) (loads bytes (ehdr bytes)))
      (linkedImage bytes) := by
    intro x hlo hhi
    exact copied_linked hfile (fun p hp => (hwell.segments p hp).1) hwell.disjoint (holds_cleared r _ hbase mem x hlo hhi)
  refine ⟨?_, hholds⟩
  rw [RegionFits, hslide, hwell.dynamic]
  refine ⟨hsegments, fun _ => ⟨⟨hwell.dynFits, fun hsize => ?_, trivial⟩, ?_⟩⟩
  · obtain ⟨hlo, hhi⟩ := hrelocs.table hsize
    rw [hrelocs.entries hsize]
    exact ⟨by decide, by omega, hholds.relocsFit hrelocs hspan hbase (Nat.le_of_lt hregion) (Nat.le_refl _)⟩
  · have := hwell.entry
    omega

/-- **A well-formed image is loaded to its reference**, at any base from its own lowest address on.  Regions do not reach the
end of the address space. -/
theorem elf_loads {bytes : List UInt8} (hlen : bytes.length < 2 ^ 63) {d : Phdr} (hwell : WellFormed bytes d)
    (hrelocs : WellRelocated (linkedImage bytes) (imageSpan bytes) (relaOf bytes d)) {alloc : Nat → Option Nat} {base : Nat}
    (halloc : alloc (pagesOf (imageSpan bytes)) = some base) (hregion : base + pagesOf (imageSpan bytes) * 0x1000 < 2 ^ 64)
    (hbase : (imageSpan bytes).vmin ≤ base) (mem : Mem) :
    ∃ mem', loadAndRelocate bytes alloc mem =
        .ok (⟨base + ((ehdr bytes).entry - (imageSpan bytes).vmin), base,
          (imageSpan bytes).vmax - (imageSpan bytes).vmin⟩, mem') ∧
      ∀ i < pagesOf (imageSpan bytes) * 0x1000,
        mem' (base + i) =
          reference (linkedImage bytes) (relaOf bytes d) (base - (imageSpan bytes).vmin) ((imageSpan bytes).vmin + i) := by
  obtain ⟨hentry, hentry'⟩ := hwell.entry
  have hword : (ehdr bytes).entry < 2 ^ 64 := field_lt bytes 8 0x18
  have hpages : (imageSpan bytes).vmax ≤ (imageSpan bytes).vmin + pagesOf (imageSpan bytes) * 0x1000 ∧
      (imageSpan bytes).vmax - (imageSpan bytes).vmin + 0xFFF < 2 ^ 64 := by
    rw [pagesOf, Nat.shiftRight_eq_div_pow] at *
    omega
  have hslide : loadSlide base (imageSpan bytes).vmin = base - (imageSpan bytes).vmin := slide_eq hbase (by omega)
  obtain ⟨hfits, hholds⟩ := regionFits hlen hwell hrelocs (r := ⟨base, pagesOf (imageSpan bytes) * 0x1000⟩) hslide
    (Nat.sub_add_cancel hbase).symm hregion hpages.1 mem
  have htable : TableFits bytes (ehdr bytes) := ⟨hwell.recognised.2.2, hwell.table, by have := hwell.table; omega⟩
  have hfile : InFile bytes (loads bytes (ehdr bytes)) := fun p hp => (hwell.segments p hp).2.1
  have hsums : ∀ p ∈ loads bytes (ehdr bytes), p.vaddr + p.memsz < 2 ^ 64 := fun p hp => (hwell.segments p hp).2.2
  refine ⟨relocatedBy (base - (imageSpan bytes).vmin) (relaOf bytes d)
    (copied bytes (base - (imageSpan bytes).vmin) (cleared ⟨base, pagesOf (imageSpan bytes) * 0x1000⟩ mem)
      (loads bytes (ehdr bytes))), ?_, fun i hi => ?_⟩
  · rw [loadAndRelocate, readEhdr_recognised hwell.recognised, add64_ok htable.word, ok_bind, if_neg (Nat.not_lt.2 htable.file),
      ok_bind, scan_eq htable, scan_ok hsums, ok_bind]
    change allocateRegion bytes (ehdr bytes) (imageSpan bytes) alloc mem = _
    rw [allocateRegion_some (by omega) (by omega) (by omega) hpages.2 halloc, fillRegion_ok hlen htable hfits hfile, hslide,
      hwell.dynamic]
    have hsum : base - (imageSpan bytes).vmin + (ehdr bytes).entry = base + ((ehdr bytes).entry - (imageSpan bytes).vmin) := by
      omega
    rw [hsum]
    rfl
  · have hrun := hholds.run hrelocs hpages.1 (Nat.le_refl _) ((imageSpan bytes).vmin + i) (Nat.le_add_right _ _)
      (Nat.add_lt_add_left hi _)
    have haddr : base - (imageSpan bytes).vmin + ((imageSpan bytes).vmin + i) = base + i := by omega
    rw [haddr] at hrun
    rw [relocatedBy_eq hrelocs.entries, reference_eq_partway, ← hrun]

/-! ## An image of two segments -/

namespace TwoSegments

/-- Linked at 4 KiB: headers, dynamic section and a table of two entries in the first segment; two words and 16 bytes that
are not in the file in the second.  Only the second word is relocated, for the other entry is of another type. -/
def file : List UInt8 :=
  elfMagic ++ [2, 1, 1, 0] ++ List.replicate 8 0 ++ [3, 0, 0x3E, 0, 1, 0, 0, 0] ++ [0x40, 0x10, 0, 0, 0, 0, 0, 0] ++
    [0x40, 0, 0, 0, 0, 0, 0, 0] ++ List.replicate 12 0 ++ [0x40, 0, 0x38, 0, 3, 0] ++ List.replicate 6 0 ++
    [1, 0, 0, 0, 5, 0, 0, 0] ++ List.replicate 8 0 ++ [0, 0x10, 0, 0, 0, 0, 0, 0] ++ [0, 0x10, 0, 0, 0, 0, 0, 0] ++
    [0x58, 0x01, 0, 0, 0, 0, 0, 0] ++ [0x58, 0x01, 0, 0, 0, 0, 0, 0] ++ [0, 0x10, 0, 0, 0, 0, 0, 0] ++
    [1, 0, 0, 0, 6, 0, 0, 0] ++ [0x58, 0x01, 0, 0, 0, 0, 0, 0] ++ [0, 0x20, 0, 0, 0, 0, 0, 0] ++ [0, 0x20, 0, 0, 0, 0, 0, 0] ++
    [0x10, 0, 0, 0, 0, 0, 0, 0] ++ [0x20, 0, 0, 0, 0, 0, 0, 0] ++ [0, 0x10, 0, 0, 0, 0, 0, 0] ++
    [2, 0, 0, 0, 6, 0, 0, 0] ++ [0xE8, 0, 0, 0, 0, 0, 0, 0] ++ [0xE8, 0x10, 0, 0, 0, 0, 0, 0] ++
    [0xE8, 0x10, 0, 0, 0, 0, 0, 0] ++ [0x40, 0, 0, 0, 0, 0, 0, 0] ++ [0x40, 0, 0, 0, 0, 0, 0, 0] ++ [8, 0, 0, 0, 0, 0, 0, 0] ++
    [7, 0, 0, 0, 0, 0, 0, 0] ++ [0x28, 0x11, 0, 0, 0, 0, 0, 0] ++ [8, 0, 0, 0, 0, 0, 0, 0] ++ [48, 0, 0, 0, 0, 0, 0, 0] ++
    [9, 0, 0, 0, 0, 0, 0, 0] ++ [24, 0, 0, 0, 0, 0, 0, 0] ++ List.replicate 16 0 ++
    [0x08, 0x20, 0, 0, 0, 0, 0, 0] ++ [8, 0, 0, 0, 0, 0, 0, 0] ++ [0, 0x20, 0, 0, 0, 0, 0, 0] ++
    [0, 0x20, 0, 0, 0, 0, 0, 0] ++ [1, 0, 0, 0, 0, 0, 0, 0] ++ [0x40, 0x10, 0, 0, 0, 0, 0, 0] ++
    [1, 2, 3, 4, 5, 6, 7, 8] ++ List.replicate 8 0

def dynamic : Phdr := ⟨2, 0xE8, 0x10E8, 0x40, 0x40⟩

theorem loads_file : loads file (ehdr file) = [⟨1, 0, 0x1000, 0x158, 0x158⟩, ⟨1, 0x158, 0x2000, 0x10, 0x20⟩] := rfl

theorem imageSpan_file : imageSpan file = ⟨0x1000, 0x2020⟩ := by
  rw [imageSpan, loads_file]
  rfl

theorem relaOf_file : relaOf file dynamic = ⟨0x1128, 48, 24⟩ := rfl

theorem reloc_first : reloc (linkedImage file) 0x1128 0 = ⟨0x2008, 8, 0x2000⟩ := rfl

theorem reloc_second : reloc (linkedImage file) 0x1128 1 = ⟨0x2000, 1, 0x1040⟩ := rfl

theorem wellFormed : WellFormed file dynamic where
  recognised := by
    unfold Recognised
    decide +kernel
  table := by decide +kernel
  segments := by
    rw [loads_file]
    decide +kernel
  disjoint := by
    rw [loads_file, List.pairwise_pair]
    intro v hv
    dsimp only at hv
    omega
  entry := by
    rw [imageSpan_file]
    decide +kernel
  dynamic := rfl
  dynFits := by
    refine ⟨?_, fun _ => ⟨?_, fun _ => ⟨?_, fun _ => ⟨?_, fun _ => trivial⟩⟩⟩⟩
    all_goals decide +kernel

theorem wellRelocated : WellRelocated (linkedImage file) (imageSpan file) (relaOf file dynamic) := by
  rw [imageSpan_file, relaOf_file]
  have hentry : ∀ j < 48 / 24, j = 0 ∨ j = 1 := by
    intro j hj
    omega
  refine ⟨fun _ => rfl, fun _ => ⟨by decide, by decide⟩, fun j hj htype => ?_, fun i j hij hj _ htype => ?_⟩
  · rcases hentry j hj with rfl | rfl
    · rw [reloc_first]
      refine ⟨by decide, by decide, fun x hx => ?_⟩
      dsimp only at hx
      omega
    · rw [reloc_second] at htype
      cases htype
  · obtain rfl : j = 1 := (hentry j hj).resolve_left (Nat.ne_zero_of_lt hij)
    rw [reloc_second] at htype
    cases htype

def alloc (_ : Nat) : Option Nat := some 0x5000

/-- The second word is relocated to `0x4000 + 0x2000`, the first is as it was, and after them there are zeros. -/
theorem two_segments_load : ∃ mem', loadAndRelocate file alloc (fun _ => 0xFF) =
    .ok (⟨0x5040, 0x5000, 0x1020⟩, mem') ∧ mem' 0x6009 = 0x60 ∧ mem' 0x6001 = 2 ∧ mem' 0x6018 = 0 := by
  have hpages : pagesOf (imageSpan file) = 2 := by
    rw [imageSpan_file]
    decide
  have halloc : alloc (pagesOf (imageSpan file)) = some 0x5000 := rfl
  have hentry : (ehdr file).entry = 0x1040 := rfl
  have hregion : 0x5000 + pagesOf (imageSpan file) * 0x1000 < 2 ^ 64 := by
    rw [hpages]
    decide
  have hbase : (imageSpan file).vmin ≤ 0x5000 := by
    rw [imageSpan_file]
    decide
  obtain ⟨mem', hload, hmem⟩ := elf_loads (by decide +kernel) wellFormed wellRelocated halloc hregion hbase (fun _ => 0xFF)
  rw [imageSpan_file, hentry] at hload
  rw [imageSpan_file, relaOf_file] at hmem
  refine ⟨mem', hload, (hmem 0x1009 (by decide)).trans ?_, (hmem 0x1001 (by decide)).trans ?_,
    (hmem 0x1018 (by decide)).trans ?_⟩
  all_goals decide +kernel

end TwoSegments

end Elf

end Celium
