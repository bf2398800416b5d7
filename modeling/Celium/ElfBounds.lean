import Celium.Elf
/-!
# ElfBounds — when the loader stays inside its buffers

Offsets, sizes and addresses come from the file and are added up with few checks.  What the passes do is stated over the
program headers of the file, and from that exactly which files and regions are loaded or refused without a panic and without
an access outside the region.
-/
namespace Celium

open Bytes Checked

namespace Elf

/-! ## Loads that end well -/

variable {α β : Type}

/-- A load that ends with a value or with an error that it returns. -/
def Safe (x : Load α) : Prop := ∀ f, x = .error f → ∃ e, f = .err (.returned e)

theorem safe_ok (a : α) : Safe (.ok a : Load α) := by
  intro f h
  cases h

theorem safe_fail (e : LoadError) : Safe (fail e : Load α) := by
  intro f h
  exact ⟨e, (Except.error.inj h).symm⟩

theorem not_safe_overflow : ¬ Safe (.error .overflow : Load α) := by
  intro h
  obtain ⟨e, he⟩ := h _ rfl
  cases he

theorem not_safe_err {s : Stop} (hs : ∀ e, s ≠ .returned e) : ¬ Safe (.error (.err s) : Load α) := by
  intro h
  obtain ⟨e, he⟩ := h _ rfl
  exact hs e (Fault.err.inj he)

theorem safe_bind_iff {x : Load α} {f : α → Load β} : Safe (x >>= f) ↔ Safe x ∧ ∀ a, x = .ok a → Safe (f a) := by
  cases x with
  | ok a => exact ⟨fun h => ⟨safe_ok a, fun a' ha => Except.ok.inj ha ▸ h⟩, fun h => h.2 a rfl⟩
  | error e =>
    refine ⟨fun h => ⟨fun f hf => h f (congrArg Except.error (Except.error.inj hf)), fun a ha => by cases ha⟩, fun h f hf => ?_⟩
    exact h.1 f (congrArg Except.error (Except.error.inj hf))

/-- An addition is safe when it fits, and the rest is then about the sum. -/
theorem safe_add64_bind {a b : Nat} {f : Nat → Load β} :
    Safe (add64 a b >>= f) ↔ a + b < 2 ^ 64 ∧ Safe (f (a + b)) := by
  by_cases h : a + b < 2 ^ 64
  · rw [add64_ok h, ok_bind, and_iff_right h]
  · rw [add64, if_neg h, error_bind]
    exact iff_of_false not_safe_overflow fun hb => h hb.1

theorem safe_access {r : Region} {a n : Nat} {k : Load α} : Safe (access r a n k) ↔ r.Inside a n ∧ Safe k := by
  unfold access
  split
  · rename_i h
    rw [and_iff_right h]
  · rename_i h
    exact iff_of_false (not_safe_err fun e he => by cases he) fun hb => h hb.1

/-! ## The headers of a file -/

def field (bytes : List UInt8) (w o : Nat) : Nat := leNat (slice bytes o w)

theorem rd_ok {w o : Nat} {bytes : List UInt8} (h : o + w ≤ bytes.length) (hlt : o + w < 2 ^ 64) :
    rd w bytes o = .ok (field bytes w o) := by
  rw [rd, add64_ok hlt, ok_bind, if_pos h, field]

def ehdr (bytes : List UInt8) : Ehdr := ⟨field bytes 8 0x18, field bytes 8 0x20, field bytes 2 0x36, field bytes 2 0x38⟩

/-- What is not refused at first sight. -/
def Recognised (bytes : List UInt8) : Prop :=
  (0x40 ≤ bytes.length ∧ slice bytes 0 4 = elfMagic) ∧ (bytes.getD 4 0 = 2 ∧ bytes.getD 5 0 = 1) ∧ 0x38 ≤ (ehdr bytes).phentsize

theorem field_lt (bytes : List UInt8) (w o : Nat) : field bytes w o < 256 ^ w := by
  refine Nat.lt_of_lt_of_le (leNat_lt _) (Nat.pow_le_pow_right (by decide) ?_)
  rw [length_slice]
  exact Nat.min_le_left _ _

/-- The fields of the header are in the first 64 bytes. -/
theorem readEhdr_eq {bytes : List UInt8} (hlong : 0x40 ≤ bytes.length ∧ slice bytes 0 4 = elfMagic)
    (hclass : bytes.getD 4 0 = 2 ∧ bytes.getD 5 0 = 1) :
    readEhdr bytes = if (ehdr bytes).phentsize < 0x38 then fail .badElf else
      (add64 (ehdr bytes).phoff ((ehdr bytes).phnum * (ehdr bytes).phentsize) >>= fun tableEnd =>
        if bytes.length < tableEnd then fail .badElf else .ok (ehdr bytes)) := by
  have hnum : (ehdr bytes).phnum < 2 ^ 16 := field_lt bytes 2 0x38
  have hsize : (ehdr bytes).phentsize < 2 ^ 16 := field_lt bytes 2 0x36
  have hmul : (mul64 (ehdr bytes).phnum (ehdr bytes).phentsize : Load Nat) =
      .ok ((ehdr bytes).phnum * (ehdr bytes).phentsize) :=
    mul64_ok (Nat.lt_trans (Nat.mul_lt_mul'' hnum hsize) (by decide))
  have hlen := hlong.1
  rw [readEhdr, if_neg (not_or.2 ⟨Nat.not_lt.2 hlen, Decidable.not_not.2 hlong.2⟩),
    if_neg (not_or.2 ⟨Decidable.not_not.2 hclass.1, Decidable.not_not.2 hclass.2⟩), rdU64,
    rd_ok (by omega) (by decide), ok_bind,
    rd_ok (by omega) (by decide), ok_bind, rdU16, rd_ok (by omega) (by decide), ok_bind, rd_ok (by omega) (by decide), ok_bind]
  change (if (ehdr bytes).phentsize < 0x38 then _ else mul64 (ehdr bytes).phnum (ehdr bytes).phentsize >>= _) = _
  rw [hmul]
  rfl

theorem readEhdr_recognised {bytes : List UInt8} (h : Recognised bytes) :
    readEhdr bytes = (add64 (ehdr bytes).phoff ((ehdr bytes).phnum * (ehdr bytes).phentsize) >>= fun tableEnd =>
      if bytes.length < tableEnd then fail .badElf else .ok (ehdr bytes)) := by
  rw [readEhdr_eq h.1 h.2.1, if_neg (Nat.not_lt.2 h.2.2)]

theorem readEhdr_refused {bytes : List UInt8} (h : ¬ Recognised bytes) : ∃ e, readEhdr bytes = fail e := by
  by_cases hlong : 0x40 ≤ bytes.length ∧ slice bytes 0 4 = elfMagic
  · by_cases hclass : bytes.getD 4 0 = 2 ∧ bytes.getD 5 0 = 1
    · refine ⟨.badElf, ?_⟩
      rw [readEhdr_eq hlong hclass, if_pos (Nat.not_le.1 fun hent => h ⟨hlong, hclass, hent⟩)]
    · refine ⟨.badElf, ?_⟩
      rw [readEhdr, if_neg (not_or.2 ⟨Nat.not_lt.2 hlong.1, Decidable.not_not.2 hlong.2⟩),
        if_pos (Decidable.not_and_iff_not_or_not.1 hclass)]
  · refine ⟨.notElf, ?_⟩
    rw [readEhdr, if_pos ((Decidable.not_and_iff_not_or_not.1 hlong).imp_left Nat.not_le.1)]

/-- A program header. -/
structure Phdr where
  ptype : Nat
  offset : Nat
  vaddr : Nat
  filesz : Nat
  memsz : Nat
deriving DecidableEq, Repr

def phdr (bytes : List UInt8) (h : Ehdr) (i : Nat) : Phdr :=
  let o := h.phoff + i * h.phentsize
  ⟨field bytes 4 o, field bytes 8 (o + 0x08), field bytes 8 (o + 0x10), field bytes 8 (o + 0x20), field bytes 8 (o + 0x28)⟩

def phdrs (bytes : List UInt8) (h : Ehdr) : List Phdr := (List.range h.phnum).map (phdr bytes h)

/-- The `PT_LOAD` headers. -/
def loads (bytes : List UInt8) (h : Ehdr) : List Phdr := (phdrs bytes h).filter fun p => p.ptype = 1

/-- The `PT_DYNAMIC` headers. -/
def dynamics (bytes : List UInt8) (h : Ehdr) : List Phdr := (phdrs bytes h).filter fun p => p.ptype = 2

/-- The table of program headers is in the file. -/
structure TableFits (bytes : List UInt8) (h : Ehdr) : Prop where
  entry : 0x38 ≤ h.phentsize
  file : h.phoff + h.phnum * h.phentsize ≤ bytes.length
  word : h.phoff + h.phnum * h.phentsize < 2 ^ 64

theorem TableFits.at {bytes : List UInt8} {h : Ehdr} (hfits : TableFits bytes h) {i : Nat} (hi : i < h.phnum) :
    h.at i = .ok (h.phoff + i * h.phentsize) ∧ h.phoff + i * h.phentsize + 0x38 ≤ bytes.length ∧
      h.phoff + i * h.phentsize + 0x38 < 2 ^ 64 := by
  have hentry := hfits.entry
  have hfile := hfits.file
  have hword := hfits.word
  have hnext : (i + 1) * h.phentsize ≤ h.phnum * h.phentsize := Nat.mul_le_mul_right _ hi
  rw [Nat.succ_mul] at hnext
  refine ⟨?_, by omega, by omega⟩
  rw [Ehdr.at, mul64_ok (by omega), ok_bind, add64_ok (by omega)]

/-! ## The passes, over the headers -/

section Passes

variable {bytes : List UInt8} {h : Ehdr}

/-- `vmin` and `vmax` with one more segment. -/
def Span.extend (v : Span) (p : Phdr) : Span where
  vmin := if p.vaddr < v.vmin then p.vaddr else v.vmin
  vmax := if v.vmax < p.vaddr + p.memsz then p.vaddr + p.memsz else v.vmax

theorem ptype_phdr (bytes : List UInt8) (h : Ehdr) (i : Nat) :
    (phdr bytes h i).ptype = field bytes 4 (h.phoff + i * h.phentsize) := rfl

theorem scan_eq (hfits : TableFits bytes h) (v : Span) :
    (List.range h.phnum).foldlM (scanStep bytes h) v =
      (loads bytes h).foldlM (fun v p => add64 p.vaddr p.memsz >>= fun _ => .ok (v.extend p)) v := by
  refine foldlM_pick (fun v i hi => ?_) v
  obtain ⟨hat, hfile, hword⟩ := hfits.at (List.mem_range.1 hi)
  rw [scanStep, hat, ok_bind, rdU32, rd_ok (by omega) (by omega), ok_bind, rdU64, ← ptype_phdr]
  by_cases htype : (phdr bytes h i).ptype = 1
  · rw [if_neg (Decidable.not_not.2 htype), if_pos (decide_eq_true htype), add64_ok (by omega), ok_bind,
      rd_ok (by omega) (by omega), ok_bind, add64_ok (by omega), ok_bind, rd_ok (by omega) (by omega), ok_bind]
    change add64 (phdr bytes h i).vaddr (phdr bytes h i).memsz >>= _ = _
    by_cases hsum : (phdr bytes h i).vaddr + (phdr bytes h i).memsz < 2 ^ 64
    · rw [add64_ok hsum]
      rfl
    · rw [add64, if_neg hsum]
      rfl
  · rw [if_pos htype, if_neg fun hd => htype (of_decide_eq_true hd)]

/-- One turn of the second pass, for a segment. -/
def copySegment (bytes : List UInt8) (r : Region) (slide : Nat) (mem : Mem) (p : Phdr) : Load Mem := do
  let fileEnd ← add64 p.offset p.filesz
  if bytes.length < fileEnd then fail .badElf
  else do
    let dst ← add64 slide p.vaddr
    access r dst p.filesz (.ok (place dst (slice bytes p.offset p.filesz) mem))

theorem copy_eq (hfits : TableFits bytes h) (r : Region) (slide : Nat) (mem : Mem) :
    (List.range h.phnum).foldlM (copyStep bytes h r slide) mem = (loads bytes h).foldlM (copySegment bytes r slide) mem := by
  refine foldlM_pick (fun v i hi => ?_) mem
  obtain ⟨hat, hfile, hword⟩ := hfits.at (List.mem_range.1 hi)
  rw [copyStep, hat, ok_bind, rdU32, rd_ok (by omega) (by omega), ok_bind, rdU64, ← ptype_phdr]
  by_cases htype : (phdr bytes h i).ptype = 1
  · rw [if_neg (Decidable.not_not.2 htype), if_pos (decide_eq_true htype), add64_ok (by omega), ok_bind,
      rd_ok (by omega) (by omega), ok_bind, add64_ok (by omega), ok_bind, rd_ok (by omega) (by omega), ok_bind,
      add64_ok (by omega), ok_bind, rd_ok (by omega) (by omega), ok_bind]
    rfl
  · rw [if_pos htype, if_neg fun hd => htype (of_decide_eq_true hd)]

/-- One turn of the third pass, for a dynamic section. -/
def dynSegment (bytes : List UInt8) (r : Region) (slide : Nat) (mem : Mem) (p : Phdr) : Load Mem := do
  let rela ← dynScan bytes p.offset p.filesz (p.filesz / 16 + 1) 0 .init
  relocate r slide rela mem

theorem dyn_eq (hfits : TableFits bytes h) (r : Region) (slide : Nat) (mem : Mem) :
    (List.range h.phnum).foldlM (dynStep bytes h r slide) mem = (dynamics bytes h).foldlM (dynSegment bytes r slide) mem := by
  refine foldlM_pick (fun v i hi => ?_) mem
  obtain ⟨hat, hfile, hword⟩ := hfits.at (List.mem_range.1 hi)
  rw [dynStep, hat, ok_bind, rdU32, rd_ok (by omega) (by omega), ok_bind, rdU64, ← ptype_phdr]
  by_cases htype : (phdr bytes h i).ptype = 2
  · rw [if_neg (Decidable.not_not.2 htype), if_pos (decide_eq_true htype), add64_ok (by omega), ok_bind,
      rd_ok (by omega) (by omega), ok_bind, add64_ok (by omega), ok_bind, rd_ok (by omega) (by omega), ok_bind]
    rfl
  · rw [if_pos htype, if_neg fun hd => htype (of_decide_eq_true hd)]

end Passes

/-! ## Where each pass stays in bounds -/

theorem safe_rd_bind {w o : Nat} {bytes : List UInt8} {f : Nat → Load β} (hlen : bytes.length < 2 ^ 63) :
    Safe (rd w bytes o >>= f) ↔ o + w ≤ bytes.length ∧ Safe (f (field bytes w o)) := by
  by_cases h : o + w ≤ bytes.length
  · rw [rd_ok h (by omega), ok_bind, and_iff_right h]
  · refine iff_of_false (fun hsafe => ?_) fun hb => h hb.1
    rw [rd, bind_assoc, safe_add64_bind, if_neg h] at hsafe
    exact not_safe_err (fun e he => by cases he) hsafe.2

theorem safe_scan_iff (ps : List Phdr) (v : Span) :
    Safe (ps.foldlM (fun v p => add64 p.vaddr p.memsz >>= fun _ => .ok (v.extend p)) v) ↔
      ∀ p ∈ ps, p.vaddr + p.memsz < 2 ^ 64 := by
  induction ps generalizing v with
  | nil => exact iff_of_true (safe_ok v) fun p hp => by cases hp
  | cons p ps ih =>
    rw [List.foldlM_cons, bind_assoc, safe_add64_bind, ok_bind, ih, List.forall_mem_cons]

theorem scan_ok {ps : List Phdr} {v : Span} (h : ∀ p ∈ ps, p.vaddr + p.memsz < 2 ^ 64) :
    ps.foldlM (fun v p => (add64 p.vaddr p.memsz >>= fun _ => .ok (v.extend p) : Load Span)) v =
      .ok (ps.foldl Span.extend v) := by
  induction ps generalizing v with
  | nil => rfl
  | cons p ps ih =>
    obtain ⟨hp, hps⟩ := List.forall_mem_cons.1 h
    rw [List.foldlM_cons, add64_ok hp, ok_bind, ok_bind, ih hps, List.foldl_cons]

/-- `vmin` and `vmax` at the end of the first pass. -/
def spanOf (ps : List Phdr) : Span := ps.foldl Span.extend ⟨2 ^ 64 - 1, 0⟩

/-- Once a segment was seen, `vmin` is not above `vmax`. -/
theorem spanOf_ordered (ps : List Phdr) : (spanOf ps).vmax ≠ 0 → (spanOf ps).vmin ≤ (spanOf ps).vmax := by
  have hinv : ∀ (v : Span), (v.vmax ≠ 0 → v.vmin ≤ v.vmax) →
      (ps.foldl Span.extend v).vmax ≠ 0 → (ps.foldl Span.extend v).vmin ≤ (ps.foldl Span.extend v).vmax := by
    induction ps with
    | nil => exact fun v hv => hv
    | cons p ps ih =>
      intro v hv
      refine ih _ fun hmax => ?_
      unfold Span.extend at hmax ⊢
      dsimp only at hmax ⊢
      split <;> split <;> omega
  exact hinv _ fun h => absurd rfl h

/-- The segments up to the first one that is refused: their ends fit a word, and their copies fit the region. -/
def SegmentsFit (bytes : List UInt8) (r : Region) (slide : Nat) : List Phdr → Prop
  | [] => True
  | p :: ps =>
    p.offset + p.filesz < 2 ^ 64 ∧
      (p.offset + p.filesz ≤ bytes.length →
        (slide + p.vaddr < 2 ^ 64 ∧ r.Inside (slide + p.vaddr) p.filesz) ∧ SegmentsFit bytes r slide ps)

/-- Every segment is in the file. -/
def InFile (bytes : List UInt8) (ps : List Phdr) : Prop := ∀ p ∈ ps, p.offset + p.filesz ≤ bytes.length

/-- The memory after the second pass. -/
def copied (bytes : List UInt8) (slide : Nat) (mem : Mem) (ps : List Phdr) : Mem :=
  ps.foldl (fun mem p => place (slide + p.vaddr) (slice bytes p.offset p.filesz) mem) mem

theorem safe_copy_iff {bytes : List UInt8} {r : Region} {slide : Nat} (ps : List Phdr) (mem : Mem) :
    Safe (ps.foldlM (copySegment bytes r slide) mem) ↔ SegmentsFit bytes r slide ps := by
  induction ps generalizing mem with
  | nil => exact iff_of_true (safe_ok mem) trivial
  | cons p ps ih =>
    rw [List.foldlM_cons, copySegment, bind_assoc, safe_add64_bind, SegmentsFit]
    refine and_congr_right fun _ => ?_
    by_cases hfile : p.offset + p.filesz ≤ bytes.length
    · rw [if_neg (Nat.not_lt.2 hfile), bind_assoc, safe_add64_bind, imp_iff_right hfile, and_assoc]
      refine and_congr_right fun _ => ?_
      rw [access]
      split
      · rename_i hin
        rw [ok_bind, ih, and_iff_right hin]
      · rename_i hin
        exact iff_of_false (not_safe_err fun e he => by cases he) fun hb => hin hb.1
    · rw [if_pos (Nat.not_le.1 hfile)]
      exact iff_of_true (safe_fail _) fun h => absurd h hfile

theorem copy_ok {bytes : List UInt8} {r : Region} {slide : Nat} {ps : List Phdr} {mem : Mem}
    (hfit : SegmentsFit bytes r slide ps) (hfile : InFile bytes ps) :
    ps.foldlM (copySegment bytes r slide) mem = .ok (copied bytes slide mem ps) := by
  induction ps generalizing mem with
  | nil => rfl
  | cons p ps ih =>
    obtain ⟨hp, hps⟩ := List.forall_mem_cons.1 hfile
    obtain ⟨hend, hrest⟩ := hfit
    obtain ⟨⟨hdst, hin⟩, hfit⟩ := hrest hp
    rw [List.foldlM_cons, copySegment, add64_ok hend, ok_bind, if_neg (Nat.not_lt.2 hp), add64_ok hdst, ok_bind, access,
      if_pos hin, ok_bind, ih hfit hps]
    rfl

theorem copy_inFile {bytes : List UInt8} {r : Region} {slide : Nat} {ps : List Phdr} {mem mem' : Mem}
    (h : ps.foldlM (copySegment bytes r slide) mem = .ok mem') : InFile bytes ps := by
  induction ps generalizing mem with
  | nil => exact fun p hp => by cases hp
  | cons p ps ih =>
    rw [List.foldlM_cons] at h
    obtain ⟨mem₁, hstep, h⟩ := bind_eq_ok.1 h
    refine List.forall_mem_cons.2 ⟨?_, ih h⟩
    rw [copySegment] at hstep
    obtain ⟨fileEnd, hend, hstep⟩ := bind_eq_ok.1 hstep
    obtain rfl := add64_eq_ok hend
    split at hstep
    · cases hstep
    · rename_i hle
      exact Nat.not_lt.1 hle

/-! ### The dynamic section -/

def dynTag (bytes : List UInt8) (off i : Nat) : Nat := field bytes 8 (off + 16 * i)
def dynVal (bytes : List UInt8) (off i : Nat) : Nat := field bytes 8 (off + 16 * i + 8)

/-- Of `m` entries from the `i`-th on, those up to the first `DT_NULL` are in the file. -/
def DynFits (bytes : List UInt8) (off : Nat) : Nat → Nat → Prop
  | 0, _ => True
  | m + 1, i => off + 16 * i + 16 ≤ bytes.length ∧ (dynTag bytes off i ≠ 0 → DynFits bytes off m (i + 1))

/-- What the entries up to the first `DT_NULL` say of the relocation table. -/
def dynRela (bytes : List UInt8) (off : Nat) : Nat → Nat → Rela → Rela
  | 0, _, rela => rela
  | m + 1, i, rela =>
    if dynTag bytes off i = 0 then rela
    else dynRela bytes off m (i + 1) (rela.take (dynTag bytes off i) (dynVal bytes off i))

theorem safe_dynScan_iff {bytes : List UInt8} (hlen : bytes.length < 2 ^ 63) {off sz : Nat} (m i : Nat) (rela : Rela)
    (hm : i + m = sz / 16) (hi : 16 * i < 2 ^ 63) :
    Safe (dynScan bytes off sz (m + 1) (16 * i) rela) ↔ DynFits bytes off m i := by
  induction m generalizing i rela with
  | zero =>
    rw [dynScan, safe_add64_bind, if_pos (by omega)]
    exact iff_of_true ⟨by omega, safe_ok rela⟩ trivial
  | succ m ih =>
    rw [dynScan, safe_add64_bind, if_neg (by omega), safe_add64_bind, rdU64, safe_rd_bind hlen, safe_add64_bind,
      safe_rd_bind hlen, DynFits]
    change _ ∧ _ ∧ _ ∧ _ ∧ _ ∧ Safe (if dynTag bytes off i = 0 then .ok rela else _) ↔ _
    constructor
    · rintro ⟨-, -, -, -, hfile, hrest⟩
      refine ⟨by omega, fun htag => ?_⟩
      rw [if_neg htag] at hrest
      exact (ih (i + 1) _ (by omega) (by omega)).1 hrest
    · rintro ⟨hfile, hrest⟩
      refine ⟨by omega, by omega, by omega, by omega, by omega, ?_⟩
      split
      · exact safe_ok rela
      · rename_i htag
        exact (ih (i + 1) _ (by omega) (by omega)).2 (hrest htag)

theorem dynScan_ok {bytes : List UInt8} (hlen : bytes.length < 2 ^ 63) {off sz : Nat} (m i : Nat) (rela : Rela)
    (hm : i + m = sz / 16) (hi : 16 * i < 2 ^ 63) (hfits : DynFits bytes off m i) :
    dynScan bytes off sz (m + 1) (16 * i) rela = .ok (dynRela bytes off m i rela) := by
  induction m generalizing i rela with
  | zero => rw [dynScan, add64_ok (by omega), ok_bind, if_pos (by omega), dynRela]
  | succ m ih =>
    obtain ⟨hfile, hrest⟩ := hfits
    rw [dynScan, add64_ok (by omega), ok_bind, if_neg (by omega), add64_ok (by omega), ok_bind, rdU64,
      rd_ok (by omega) (by omega), ok_bind, add64_ok (by omega), ok_bind, rd_ok (by omega) (by omega), ok_bind, dynRela]
    change (if dynTag bytes off i = 0 then _ else _) = _
    split
    · rfl
    · rename_i htag
      exact ih (i + 1) _ (by omega) (by omega) (hrest htag)

theorem dynRela_size_lt {bytes : List UInt8} {off : Nat} (m i : Nat) {rela : Rela} (hrela : rela.size < 2 ^ 64) :
    (dynRela bytes off m i rela).size < 2 ^ 64 := by
  induction m generalizing i rela with
  | zero => exact hrela
  | succ m ih =>
    rw [dynRela]
    split
    · exact hrela
    · refine ih _ ?_
      unfold Rela.take
      split
      · exact hrela
      split
      · exact field_lt bytes 8 _
      split
      · exact hrela
      · exact hrela

/-! ### Relocations -/

/-- What one relocation does to the memory. -/
def relocated (slide tableBase ent : Nat) (mem : Mem) (j : Nat) : Mem :=
  let entry := tableBase + j * ent
  if readWord mem (entry + 8) % 2 ^ 32 = 8 then
    place (slide + readWord mem entry) (leBytes 8 (relocValue slide (readWord mem (entry + 16)))) mem
  else mem

/-- An entry is in the region, as is the word that it relocates, if it relocates one. -/
def EntryFits (r : Region) (slide tableBase ent : Nat) (mem : Mem) (j : Nat) : Prop :=
  r.Inside (tableBase + j * ent) 24 ∧
    (readWord mem (tableBase + j * ent + 8) % 2 ^ 32 = 8 →
      slide + readWord mem (tableBase + j * ent) < 2 ^ 64 ∧ r.Inside (slide + readWord mem (tableBase + j * ent)) 8)

/-- Each entry fits, in the memory that the ones before it leave. -/
def RelocsFit (r : Region) (slide tableBase ent : Nat) : Mem → List Nat → Prop
  | _, [] => True
  | mem, j :: js =>
    EntryFits r slide tableBase ent mem j ∧ RelocsFit r slide tableBase ent (relocated slide tableBase ent mem j) js

theorem inside_entry {r : Region} {a : Nat} : r.Inside a 24 ↔ r.Inside a 8 ∧ r.Inside (a + 8) 8 ∧ r.Inside (a + 16) 8 := by
  unfold Region.Inside
  omega

theorem safe_relocStep_iff {r : Region} {slide tableBase ent : Nat} {mem : Mem} {j : Nat} (hj : j * ent < 2 ^ 64) :
    Safe (relocStep r slide tableBase ent mem j) ↔ EntryFits r slide tableBase ent mem j := by
  rw [EntryFits, relocStep, mul64_ok hj, ok_bind, safe_access, safe_access, safe_access, inside_entry, and_assoc, and_assoc]
  refine and_congr_right fun _ => and_congr_right fun _ => and_congr_right fun _ => ?_
  split
  · rename_i htype
    rw [imp_iff_right htype, safe_add64_bind, safe_access]
    exact and_congr_right fun _ => and_iff_left (safe_ok _)
  · rename_i htype
    exact iff_of_true (safe_ok mem) fun h => absurd h htype

theorem relocStep_ok {r : Region} {slide tableBase ent : Nat} {mem : Mem} {j : Nat} (hj : j * ent < 2 ^ 64)
    (h : Safe (relocStep r slide tableBase ent mem j)) :
    relocStep r slide tableBase ent mem j = .ok (relocated slide tableBase ent mem j) := by
  obtain ⟨hentry, htarget⟩ := (safe_relocStep_iff hj).1 h
  obtain ⟨h0, h8, h16⟩ := inside_entry.1 hentry
  rw [relocStep, mul64_ok hj, ok_bind, access, if_pos h0, access, if_pos h8, access, if_pos h16, relocated]
  split
  · rename_i htype
    obtain ⟨hsum, hin⟩ := htarget htype
    rw [add64_ok hsum, ok_bind, access, if_pos hin]
  · rfl

theorem safe_relocs_iff {r : Region} {slide tableBase ent : Nat} (js : List Nat) (mem : Mem)
    (hjs : ∀ j ∈ js, j * ent < 2 ^ 64) :
    Safe (js.foldlM (relocStep r slide tableBase ent) mem) ↔ RelocsFit r slide tableBase ent mem js := by
  induction js generalizing mem with
  | nil => exact iff_of_true (safe_ok mem) trivial
  | cons j js ih =>
    obtain ⟨hj, hjs⟩ := List.forall_mem_cons.1 hjs
    rw [List.foldlM_cons, safe_bind_iff, RelocsFit, ← safe_relocStep_iff hj]
    refine and_congr_right fun hsafe => ?_
    rw [relocStep_ok hj hsafe, ← ih _ hjs]
    exact ⟨fun h => h _ rfl, fun h mem' hmem => Except.ok.inj hmem ▸ h⟩

theorem relocs_ok {r : Region} {slide tableBase ent : Nat} {js : List Nat} {mem : Mem} (hjs : ∀ j ∈ js, j * ent < 2 ^ 64)
    (hfits : RelocsFit r slide tableBase ent mem js) :
    js.foldlM (relocStep r slide tableBase ent) mem = .ok (js.foldl (relocated slide tableBase ent) mem) := by
  induction js generalizing mem with
  | nil => rfl
  | cons j js ih =>
    obtain ⟨hj, hjs⟩ := List.forall_mem_cons.1 hjs
    obtain ⟨hentry, hfits⟩ := hfits
    rw [List.foldlM_cons, relocStep_ok hj ((safe_relocStep_iff hj).2 hentry), ok_bind, ih hjs hfits, List.foldl_cons]

/-- The relocation table that a dynamic section describes. -/
def relaOf (bytes : List UInt8) (p : Phdr) : Rela := dynRela bytes p.offset (p.filesz / 16) 0 .init

/-- The memory after the relocations of a table. -/
def relocatedBy (slide : Nat) (rela : Rela) (mem : Mem) : Mem :=
  (List.range (rela.size / rela.ent)).foldl (relocated slide (slide + rela.addr) rela.ent) mem

def RelaFits (r : Region) (slide : Nat) (rela : Rela) (mem : Mem) : Prop :=
  rela.size ≠ 0 → rela.ent ≠ 0 ∧ slide + rela.addr < 2 ^ 64 ∧
    RelocsFit r slide (slide + rela.addr) rela.ent mem (List.range (rela.size / rela.ent))

theorem entry_offset_lt {rela : Rela} (hsize : rela.size < 2 ^ 64) :
    ∀ j ∈ List.range (rela.size / rela.ent), j * rela.ent < 2 ^ 64 := by
  intro j hj
  have hle : j * rela.ent ≤ rela.size / rela.ent * rela.ent := Nat.mul_le_mul_right _ (Nat.le_of_lt (List.mem_range.1 hj))
  exact Nat.lt_of_le_of_lt (Nat.le_trans hle (Nat.div_mul_le_self _ _)) hsize

theorem safe_relocate_iff {r : Region} {slide : Nat} {rela : Rela} {mem : Mem} (hsize : rela.size < 2 ^ 64) :
    Safe (relocate r slide rela mem) ↔ RelaFits r slide rela mem := by
  unfold relocate RelaFits
  split
  · rename_i hzero
    exact iff_of_true (safe_ok mem) fun h => absurd hzero h
  rename_i hpos
  rw [imp_iff_right hpos]
  split
  · rename_i hent
    exact iff_of_false (not_safe_err fun e he => by cases he) fun h => h.1 hent
  · rename_i hent
    rw [and_iff_right hent, safe_add64_bind, safe_relocs_iff _ _ (entry_offset_lt hsize)]

theorem relocate_ok {r : Region} {slide : Nat} {rela : Rela} {mem : Mem} (hsize : rela.size < 2 ^ 64)
    (hfits : RelaFits r slide rela mem) : relocate r slide rela mem = .ok (relocatedBy slide rela mem) := by
  unfold relocate relocatedBy
  split
  · rename_i hzero
    rw [hzero, Nat.zero_div]
    rfl
  · rename_i hpos
    obtain ⟨hent, hbase, hrelocs⟩ := hfits hpos
    rw [if_neg hent, add64_ok hbase, ok_bind, relocs_ok (entry_offset_lt hsize) hrelocs]

/-- The dynamic sections, in their order: each is in the file, and its relocations are in the region. -/
def DynamicsFit (bytes : List UInt8) (r : Region) (slide : Nat) : Mem → List Phdr → Prop
  | _, [] => True
  | mem, p :: ps =>
    DynFits bytes p.offset (p.filesz / 16) 0 ∧ RelaFits r slide (relaOf bytes p) mem ∧
      DynamicsFit bytes r slide (relocatedBy slide (relaOf bytes p) mem) ps

theorem safe_dynSegment_iff {bytes : List UInt8} (hlen : bytes.length < 2 ^ 63) {r : Region} {slide : Nat} {mem : Mem}
    (p : Phdr) :
    Safe (dynSegment bytes r slide mem p) ↔
      DynFits bytes p.offset (p.filesz / 16) 0 ∧ RelaFits r slide (relaOf bytes p) mem := by
  have hsize : (relaOf bytes p).size < 2 ^ 64 := dynRela_size_lt _ _ (by decide)
  have hscan : Safe (dynScan bytes p.offset p.filesz (p.filesz / 16 + 1) (16 * 0) .init) ↔
      DynFits bytes p.offset (p.filesz / 16) 0 :=
    safe_dynScan_iff hlen (p.filesz / 16) 0 .init (Nat.zero_add _) (by decide)
  rw [Nat.mul_zero] at hscan
  rw [dynSegment, safe_bind_iff, hscan]
  refine and_congr_right fun hfits => ?_
  have hok := dynScan_ok hlen (p.filesz / 16) 0 .init (Nat.zero_add _) (by decide) hfits
  rw [Nat.mul_zero] at hok
  rw [hok, ← safe_relocate_iff hsize]
  exact ⟨fun h => h _ rfl, fun h rela hrela => Except.ok.inj hrela ▸ h⟩

theorem dynSegment_ok {bytes : List UInt8} (hlen : bytes.length < 2 ^ 63) {r : Region} {slide : Nat} {mem : Mem} {p : Phdr}
    (hfits : DynFits bytes p.offset (p.filesz / 16) 0) (hrela : RelaFits r slide (relaOf bytes p) mem) :
    dynSegment bytes r slide mem p = .ok (relocatedBy slide (relaOf bytes p) mem) := by
  have hsize : (relaOf bytes p).size < 2 ^ 64 := dynRela_size_lt _ _ (by decide)
  have hok := dynScan_ok hlen (p.filesz / 16) 0 .init (Nat.zero_add _) (by decide) hfits
  rw [Nat.mul_zero] at hok
  rw [dynSegment, hok, ok_bind]
  exact relocate_ok hsize hrela

theorem safe_dyn_iff {bytes : List UInt8} (hlen : bytes.length < 2 ^ 63) {r : Region} {slide : Nat} (ps : List Phdr)
    (mem : Mem) :
    Safe (ps.foldlM (dynSegment bytes r slide) mem) ↔ DynamicsFit bytes r slide mem ps := by
  induction ps generalizing mem with
  | nil => exact iff_of_true (safe_ok mem) trivial
  | cons p ps ih =>
    rw [List.foldlM_cons, safe_bind_iff, safe_dynSegment_iff hlen, DynamicsFit, and_assoc]
    refine and_congr_right fun hfits => and_congr_right fun hrela => ?_
    rw [dynSegment_ok hlen hfits hrela, ← ih]
    exact ⟨fun h => h _ rfl, fun h mem' hmem => Except.ok.inj hmem ▸ h⟩

theorem dyn_ok {bytes : List UInt8} (hlen : bytes.length < 2 ^ 63) {r : Region} {slide : Nat} {ps : List Phdr} {mem : Mem}
    (hfits : DynamicsFit bytes r slide mem ps) :
    ps.foldlM (dynSegment bytes r slide) mem =
      .ok (ps.foldl (fun mem p => relocatedBy slide (relaOf bytes p) mem) mem) := by
  induction ps generalizing mem with
  | nil => rfl
  | cons p ps ih =>
    obtain ⟨hdyn, hrela, hfits⟩ := hfits
    rw [List.foldlM_cons, dynSegment_ok hlen hdyn hrela, ok_bind, ih hfits, List.foldl_cons]

/-! ## The whole load -/

/-- The pages that are asked for. -/
def pagesOf (v : Span) : Nat := (v.vmax - v.vmin + 0xFFF) >>> 12

/-- The memory that the region is cleared to. -/
def cleared (r : Region) (mem : Mem) : Mem := place r.base (List.replicate r.size 0) mem

/-- From the region on: the segments fit, and if none is refused, so do the dynamic sections and the entry point. -/
def RegionFits (bytes : List UInt8) (h : Ehdr) (v : Span) (r : Region) (mem : Mem) : Prop :=
  SegmentsFit bytes r (loadSlide r.base v.vmin) (loads bytes h) ∧
    (InFile bytes (loads bytes h) →
      DynamicsFit bytes r (loadSlide r.base v.vmin)
        (copied bytes (loadSlide r.base v.vmin) (cleared r mem) (loads bytes h)) (dynamics bytes h) ∧
      loadSlide r.base v.vmin + h.entry < 2 ^ 64)

/-- **What a file and a region have to meet**, stage by stage: the header table ends below `2^64`, and so does every segment
and the size of the image, rounded up; and what is copied and relocated fits the region.  A stage counts only for a file that
the stages before it do not refuse. -/
def LoadFits (bytes : List UInt8) (alloc : Nat → Option Nat) (mem : Mem) : Prop :=
  Recognised bytes →
    let h := ehdr bytes
    let v := spanOf (loads bytes h)
    h.phoff + h.phnum * h.phentsize < 2 ^ 64 ∧
      (h.phoff + h.phnum * h.phentsize ≤ bytes.length →
        (∀ p ∈ loads bytes h, p.vaddr + p.memsz < 2 ^ 64) ∧
          (v.vmax ≠ 0 → v.vmin ≠ 2 ^ 64 - 1 →
            v.vmax - v.vmin + 0xFFF < 2 ^ 64 ∧
              ∀ base, alloc (pagesOf v) = some base → RegionFits bytes h v ⟨base, pagesOf v * 0x1000⟩ mem))

theorem safe_fillRegion_iff {bytes : List UInt8} (hlen : bytes.length < 2 ^ 63) {h : Ehdr} (hfits : TableFits bytes h)
    (v : Span) (r : Region) (mem : Mem) : Safe (fillRegion bytes h v r mem) ↔ RegionFits bytes h v r mem := by
  rw [fillRegion, safe_bind_iff, copy_eq hfits, safe_copy_iff, RegionFits]
  refine and_congr_right fun hsegments => ?_
  have hrest : ∀ mem', Safe ((List.range h.phnum).foldlM (dynStep bytes h r (loadSlide r.base v.vmin)) mem' >>= fun mem' =>
      add64 (loadSlide r.base v.vmin) h.entry >>= fun entry =>
        .ok (({ entry, base := r.base, size := v.vmax - v.vmin } : RelocatedImage), mem')) ↔
      DynamicsFit bytes r (loadSlide r.base v.vmin) mem' (dynamics bytes h) ∧ loadSlide r.base v.vmin + h.entry < 2 ^ 64 := by
    intro mem'
    rw [safe_bind_iff, dyn_eq hfits, safe_dyn_iff hlen]
    refine and_congr_right fun hdyn => ?_
    rw [dyn_ok hlen hdyn]
    constructor
    · intro hsafe
      exact (safe_add64_bind.1 (hsafe _ rfl)).1
    · intro hentry mem'' _
      exact safe_add64_bind.2 ⟨hentry, safe_ok _⟩
  constructor
  · intro hsafe hfile
    exact (hrest _).1 (hsafe _ (copy_ok hsegments hfile))
  · intro hdyn mem' hcopy
    have hfile := copy_inFile hcopy
    obtain rfl := Except.ok.inj ((copy_ok hsegments hfile).symm.trans hcopy)
    exact (hrest _).2 (hdyn hfile)

theorem pages_mul_lt {v : Span} (h : v.vmax - v.vmin + 0xFFF < 2 ^ 64) : pagesOf v * 0x1000 < 2 ^ 64 := by
  rw [pagesOf, Nat.shiftRight_eq_div_pow]
  omega

/-- The region, when one is allocated. -/
theorem allocateRegion_some {bytes : List UInt8} {h : Ehdr} {v : Span} (hmax : v.vmax ≠ 0) (hmin : v.vmin ≠ 2 ^ 64 - 1)
    (hordered : v.vmin ≤ v.vmax) (hpad : v.vmax - v.vmin + 0xFFF < 2 ^ 64) {alloc : Nat → Option Nat} {base : Nat}
    (halloc : alloc (pagesOf v) = some base) (mem : Mem) :
    allocateRegion bytes h v alloc mem = fillRegion bytes h v ⟨base, pagesOf v * 0x1000⟩ mem := by
  rw [pagesOf] at halloc
  rw [allocateRegion, if_neg (not_or.2 ⟨hmax, hmin⟩), sub64_ok hordered, ok_bind, add64_ok hpad, ok_bind]
  dsimp only
  rw [halloc]
  exact congrArg (· >>= _) (mul64_ok (pages_mul_lt hpad))

theorem safe_allocateRegion_iff {bytes : List UInt8} (hlen : bytes.length < 2 ^ 63) {h : Ehdr}
    (hfits : TableFits bytes h) {v : Span} (hordered : v.vmax ≠ 0 → v.vmin ≤ v.vmax) (alloc : Nat → Option Nat) (mem : Mem) :
    Safe (allocateRegion bytes h v alloc mem) ↔
      (v.vmax ≠ 0 → v.vmin ≠ 2 ^ 64 - 1 →
        v.vmax - v.vmin + 0xFFF < 2 ^ 64 ∧
          ∀ base, alloc (pagesOf v) = some base → RegionFits bytes h v ⟨base, pagesOf v * 0x1000⟩ mem) := by
  by_cases hspan : v.vmax = 0 ∨ v.vmin = 2 ^ 64 - 1
  · rw [allocateRegion, if_pos hspan]
    exact iff_of_true (safe_fail _) fun hmax hmin => absurd hspan (not_or.2 ⟨hmax, hmin⟩)
  obtain ⟨hmax, hmin⟩ := not_or.1 hspan
  rw [imp_iff_right hmax, imp_iff_right hmin]
  by_cases hpad : v.vmax - v.vmin + 0xFFF < 2 ^ 64
  · rw [and_iff_right hpad]
    cases halloc : alloc (pagesOf v) with
    | none =>
      rw [pagesOf] at halloc
      rw [allocateRegion, if_neg hspan, sub64_ok (hordered hmax), ok_bind, add64_ok hpad, ok_bind]
      dsimp only
      rw [halloc]
      exact iff_of_true (safe_fail _) fun base hbase => by cases hbase
    | some base =>
      rw [allocateRegion_some hmax hmin (hordered hmax) hpad halloc, safe_fillRegion_iff hlen hfits]
      exact ⟨fun h base' hbase => Option.some.inj hbase ▸ h, fun h => h base rfl⟩
  · rw [allocateRegion, if_neg hspan, sub64_ok (hordered hmax), ok_bind, safe_add64_bind]
    exact iff_of_false (fun h => hpad h.1) fun h => hpad h.1

/-- **The loader stays inside its buffers exactly when the file and the region fit.** -/
theorem loads_in_bounds_iff {bytes : List UInt8} (hlen : bytes.length < 2 ^ 63) (alloc : Nat → Option Nat) (mem : Mem) :
    Safe (loadAndRelocate bytes alloc mem) ↔ LoadFits bytes alloc mem := by
  by_cases hrec : Recognised bytes
  · rw [LoadFits, imp_iff_right hrec, loadAndRelocate, readEhdr_recognised hrec, bind_assoc, safe_add64_bind]
    refine and_congr_right fun hword => ?_
    by_cases hfile : (ehdr bytes).phoff + (ehdr bytes).phnum * (ehdr bytes).phentsize ≤ bytes.length
    · have hfits : TableFits bytes (ehdr bytes) := ⟨hrec.2.2, hfile, hword⟩
      rw [if_neg (Nat.not_lt.2 hfile), ok_bind, imp_iff_right hfile, safe_bind_iff, scan_eq hfits, safe_scan_iff]
      refine and_congr_right fun hsums => ?_
      rw [scan_ok hsums]
      refine Iff.trans ⟨fun h => h _ rfl, fun h v hv => Except.ok.inj hv ▸ h⟩ ?_
      exact safe_allocateRegion_iff hlen hfits (spanOf_ordered _) alloc mem
    · rw [if_pos (Nat.not_le.1 hfile)]
      exact iff_of_true (safe_fail _) fun h => absurd h hfile
  · obtain ⟨e, he⟩ := readEhdr_refused hrec
    rw [LoadFits, loadAndRelocate, he]
    exact iff_of_true (safe_fail e) fun h => absurd h hrec

/-- An image of one segment, which is the file itself, linked at 2 MiB. -/
def oneSegment : List UInt8 :=
  elfMagic ++ [2, 1, 1, 0] ++ List.replicate 8 0 ++ [3, 0, 0x3E, 0, 1, 0, 0, 0] ++ [0x40, 0, 0x20, 0, 0, 0, 0, 0] ++
    [0x40, 0, 0, 0, 0, 0, 0, 0] ++ List.replicate 12 0 ++ [0x40, 0, 0x38, 0, 1, 0] ++ List.replicate 6 0 ++
    [1, 0, 0, 0, 5, 0, 0, 0] ++ List.replicate 8 0 ++ [0, 0, 0x20, 0, 0, 0, 0, 0] ++ [0, 0, 0x20, 0, 0, 0, 0, 0] ++
    [0x78, 0, 0, 0, 0, 0, 0, 0] ++ [0x78, 0, 0, 0, 0, 0, 0, 0] ++ [0, 0x10, 0, 0, 0, 0, 0, 0]

/-- At 4 MiB it is loaded. -/
theorem oneSegment_in_bounds :
    (loadAndRelocate oneSegment (fun _ => some 0x400000) (fun _ => 0)).map Prod.fst = .ok ⟨0x400040, 0x400000, 0x78⟩ ∧
      LoadFits oneSegment (fun _ => some 0x400000) (fun _ => 0) := by
  have hload : (loadAndRelocate oneSegment (fun _ => some 0x400000) (fun _ => 0)).map Prod.fst =
      .ok ⟨0x400040, 0x400000, 0x78⟩ := by
    decide +kernel
  refine ⟨hload, (loads_in_bounds_iff (by decide) _ _).1 ?_⟩
  obtain ⟨a, ha, -⟩ := map_eq_ok hload
  rw [ha]
  exact safe_ok a

/-- At 1 MiB, below the address that it is linked at, the copy of its segment panics. -/
theorem linked_above_panics :
    (loadAndRelocate oneSegment (fun _ => some 0x100000) (fun _ => 0)).map Prod.fst = .error .overflow ∧
      ¬ Safe (loadAndRelocate oneSegment (fun _ => some 0x100000) (fun _ => 0)) := by
  have hload : (loadAndRelocate oneSegment (fun _ => some 0x100000) (fun _ => 0)).map Prod.fst = .error .overflow := by
    decide +kernel
  refine ⟨hload, ?_⟩
  cases hrun : loadAndRelocate oneSegment (fun _ => some 0x100000) (fun _ => 0) with
  | ok a =>
    rw [hrun] at hload
    cases hload
  | error f =>
    rw [hrun] at hload
    rw [Except.error.inj hload]
    exact not_safe_overflow

end Elf

end Celium
