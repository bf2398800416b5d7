import Celium.Common
import Celium.Lib.Blocks
/-!
# DiskImage — the files under the image readers, and what every reader offers

A reader gets at its file by `seek` and `read_exact` only.  Files do not change while an image is open, and reads of a
regular file stop at its end and nowhere else.  The CRC-32C of `celimage::util` is here as well.
-/
namespace Celium

open Blocks Bytes Checked

/-- An open file: its path, its content, and the largest offset that its file system seeks to. -/
structure DiskFile where
  path : String
  bytes : List UInt8
  seekMax : Nat
  fits : bytes.length ≤ seekMax
  signed : seekMax < 2 ^ 63

namespace DiskFile

/-- The largest offset a file can have on a 64-bit host. -/
theorem seekMax_lt : 2 ^ 63 - 1 < 2 ^ 63 := by decide

variable (f : DiskFile)

/-- `f.seek(SeekFrom::Start(off))`, an error of it under the tag `what`. -/
def seek (what : String) (off : Nat) : Outcome CelError Unit :=
  if off ≤ f.seekMax then .ok () else .error (.err (.io (what ++ ": Invalid argument (os error 22)")))

/-- `f.read_exact` of `len` bytes at `off`, an error of it wrapped by `wrap` under the tag `what`. -/
def readExact (wrap : String → CelError) (what : String) (off len : Nat) : Outcome CelError (List UInt8) :=
  if len = 0 ∨ off + len ≤ f.bytes.length then .ok (slice f.bytes off len)
  else .error (.err (wrap (what ++ ": failed to fill whole buffer")))

/-- `f.read` into a buffer of `len` bytes at `off`. -/
def read (off len : Nat) : List UInt8 := slice f.bytes off len

/-- The loop that calls `f.read` until the buffer is full or the file ends. -/
def readFill : Nat → Nat → Nat → List UInt8
  | 0, _, _ => []
  | fuel + 1, off, want =>
    if want = 0 then []
    else
      let got := f.read off want
      if got.length = 0 then [] else got ++ readFill fuel (off + got.length) (want - got.length)

/-- The header buffer of `len` zero bytes after one `read` from the start, and how much was read. -/
def readHeader (len : Nat) : List UInt8 × Nat :=
  let got := f.read 0 len
  (got ++ List.replicate (len - got.length) 0, got.length)

/-- A byte of the file. -/
def byte (i : Nat) : UInt8 := f.bytes.getD i default

variable {f}

theorem seek_ok {what : String} {off : Nat} (h : off ≤ f.seekMax) : f.seek what off = .ok () := if_pos h

theorem seek_eq_ok {what : String} {off : Nat} {u : Unit} (h : f.seek what off = .ok u) : off ≤ f.seekMax := by
  unfold seek at h
  split at h
  · assumption
  · cases h

theorem readExact_ok {wrap : String → CelError} {what : String} {off len : Nat} (h : off + len ≤ f.bytes.length) :
    f.readExact wrap what off len = .ok (slice f.bytes off len) := if_pos (.inr h)

theorem readExact_eq_ok {wrap : String → CelError} {what : String} {off len : Nat} {bs : List UInt8}
    (h : f.readExact wrap what off len = .ok bs) : bs = slice f.bytes off len ∧ (0 < len → off + len ≤ f.bytes.length) := by
  unfold readExact at h
  split at h
  · rename_i hin
    exact ⟨(Except.ok.inj h).symm, fun hlen => hin.resolve_left (Nat.ne_of_gt hlen)⟩
  · cases h

theorem seek_noOverflow (what : String) (off : Nat) : NoOverflow (f.seek what off) := by
  unfold seek
  split
  · exact .ok ()
  · exact .err _

theorem readExact_noOverflow (wrap : String → CelError) (what : String) (off len : Nat) :
    NoOverflow (f.readExact wrap what off len) := by
  unfold readExact
  split
  · exact .ok _
  · exact .err _

/-- What is in the file can be seeked to and read, and its offsets do not overflow. -/
theorem seek_ne_invalid (what : String) (off : Nat) (msg : String) : f.seek what off ≠ .error (.err (.invalid msg)) := by
  unfold seek
  split <;> intro h <;> cases h

theorem readExact_ne_invalid (what : String) (off len : Nat) (msg : String) :
    f.readExact .storage what off len ≠ .error (.err (.invalid msg)) := by
  unfold readExact
  split <;> intro h <;> cases h

theorem length_lt : f.bytes.length < 2 ^ 63 := Nat.lt_of_le_of_lt f.fits f.signed

theorem slice_eq_window {off len : Nat} (h : off + len ≤ f.bytes.length) :
    slice f.bytes off len = window f.byte off len := Bytes.slice_eq_window h

theorem readFill_eq {off want : Nat} (h : off + want ≤ f.bytes.length) :
    f.readFill want off want = window f.byte off want := by
  cases want with
  | zero => rfl
  | succ n =>
    have hread : f.read off (n + 1) = window f.byte off (n + 1) := slice_eq_window h
    have hdone : ∀ fuel off, f.readFill fuel off 0 = [] := by
      intro fuel off
      cases fuel <;> rfl
    simp only [readFill, Nat.succ_ne_zero, if_false, hread, length_window]
    rw [Nat.sub_self, hdone, List.append_nil]

theorem readFill_ne_nil {off want : Nat} (h : off < f.bytes.length) (hwant : 0 < want) : f.readFill want off want ≠ [] := by
  obtain ⟨n, rfl⟩ : ∃ n, want = n + 1 := ⟨want - 1, by omega⟩
  have hlen : (f.read off (n + 1)).length ≠ 0 := by
    rw [read, length_slice]
    omega
  simp only [readFill, Nat.succ_ne_zero, if_false, if_neg hlen]
  intro hnil
  exact hlen (List.length_eq_zero_iff.2 (List.append_eq_nil_iff.1 hnil).1)

/-- A table of `n` words of `w` bytes, as it is read and decoded. -/
theorem words_of_readExact {wrap : String → CelError} {what : String} {off w n : Nat} {raw : List UInt8} (hw : 0 < w)
    (hraw : f.readExact wrap what off (n * w) = .ok raw) (decode : List UInt8 → Nat) :
    ((chunksExact w raw).map decode).length = n ∧
      ∀ i, ((chunksExact w raw).map decode)[i]? = if i < n then some (decode (slice f.bytes (off + w * i) w)) else none := by
  obtain ⟨rfl, hin⟩ := readExact_eq_ok hraw
  have hlen : (slice f.bytes off (n * w)).length = n * w := by
    rcases Nat.eq_zero_or_pos (n * w) with hzero | hpos
    · rw [hzero]
      exact Nat.le_zero.1 (length_slice f.bytes _ _ ▸ Nat.min_le_left _ _)
    · exact length_slice_of_le (hin hpos)
  have hcount : (slice f.bytes off (n * w)).length / w = n := by
    rw [hlen, Nat.mul_div_cancel _ hw]
  refine ⟨by rw [List.length_map, length_chunksExact, hcount], fun i => ?_⟩
  rw [List.getElem?_map]
  by_cases hi : i < n
  · have hword : w * i + w ≤ n * w := by
      rw [← Nat.mul_succ, Nat.mul_comm n]
      exact Nat.mul_le_mul_left w hi
    rw [if_pos hi, getElem?_chunksExact (hcount.symm ▸ hi), Option.map_some, slice_slice hword]
  · rw [if_neg hi, List.getElem?_eq_none (by rw [length_chunksExact, hcount]; exact Nat.not_lt.1 hi), Option.map_none]

/-- A read of two neighbouring ranges, at once or one after the other. -/
theorem readExact_append {wrap : String → CelError} {what : String} (off : Nat) {a b : Nat} (ha : 0 < a) (hb : 0 < b) :
    f.readExact wrap what off (a + b) = both (f.readExact wrap what off a) (f.readExact wrap what (off + a) b) := by
  unfold readExact
  by_cases hall : off + (a + b) ≤ f.bytes.length
  · rw [if_pos (.inr hall), if_pos (.inr (by omega)), if_pos (.inr (by omega)), both_ok, slice_append]
  · rw [if_neg (by omega)]
    by_cases hfirst : off + a ≤ f.bytes.length
    · rw [if_pos (.inr hfirst), if_neg (by omega)]
      rfl
    · rw [if_neg (by omega)]
      rfl

/-- The same with the seeks that go before: where the second one would fail, the first read does already. -/
theorem fetch_append {what : String} {wrap : String → CelError} {what' : String} (off : Nat) {a b : Nat} (ha : 0 < a)
    (hb : 0 < b) :
    (f.seek what off >>= fun _ => f.readExact wrap what' off (a + b)) =
      both (f.seek what off >>= fun _ => f.readExact wrap what' off a)
        (f.seek what (off + a) >>= fun _ => f.readExact wrap what' (off + a) b) := by
  have hfits := f.fits
  rw [readExact_append off ha hb]
  by_cases hseek : off ≤ f.seekMax
  · rw [seek_ok hseek, ok_bind, ok_bind]
    by_cases hnext : off + a ≤ f.seekMax
    · rw [seek_ok hnext, ok_bind]
    · rw [readExact, if_neg (by omega), both_error, both_error]
  · rw [seek, if_neg hseek, error_bind, error_bind, both_error]

/-- And with the sums that the offsets are, which may overflow where the file does not go. -/
theorem fetch_add_append {what : String} {wrap : String → CelError} {what' : String} (base intra : Nat) {a b : Nat}
    (ha : 0 < a) (hb : 0 < b) :
    (add64 base intra >>= fun off => f.seek what off >>= fun _ => f.readExact wrap what' off (a + b)) =
      both (add64 base intra >>= fun off => f.seek what off >>= fun _ => f.readExact wrap what' off a)
        (add64 base (intra + a) >>= fun off => f.seek what off >>= fun _ => f.readExact wrap what' off b) := by
  have hlt := f.length_lt
  by_cases hsum : base + intra < 2 ^ 64
  · rw [add64_ok hsum, ok_bind, ok_bind]
    by_cases hnext : base + (intra + a) < 2 ^ 64
    · rw [add64_ok hnext, ok_bind, ← Nat.add_assoc]
      exact fetch_append _ ha hb
    · rw [fetch_append _ ha hb]
      by_cases hseek : base + intra ≤ f.seekMax
      · rw [seek_ok hseek, ok_bind, readExact, if_neg (by omega), both_error, both_error]
      · rw [seek, if_neg hseek, error_bind, both_error, both_error]
  · rw [add64, if_neg hsum, error_bind, error_bind, both_error]

end DiskFile

/-! ## Little-endian fields of a buffer -/

/-- `le_u16`, `le_u32` and `le_u64`: a field of `w` bytes. -/
def leField (name : String) (w : Nat) (buf : List UInt8) (off : Nat) : Outcome CelError Nat :=
  if 2 ^ 64 ≤ off + w then .error (.err (.invalid ("util: " ++ name ++ " overflow")))
  else if off + w ≤ buf.length then .ok (leNat (slice buf off w))
  else .error (.err (.invalid ("util: " ++ name ++ " short read")))

def leU16 : List UInt8 → Nat → Outcome CelError Nat := leField "le_u16" 2
def leU32 : List UInt8 → Nat → Outcome CelError Nat := leField "le_u32" 4
def leU64 : List UInt8 → Nat → Outcome CelError Nat := leField "le_u64" 8

theorem leField_ok {name : String} {w : Nat} {buf : List UInt8} {off : Nat} (h : off + w ≤ buf.length)
    (hlt : buf.length < 2 ^ 64) : leField name w buf off = .ok (leNat (slice buf off w)) := by
  rw [leField, if_neg (by omega), if_pos h]

theorem leField_eq_ok {name : String} {w : Nat} {buf : List UInt8} {off n : Nat} (h : leField name w buf off = .ok n) :
    n = leNat (slice buf off w) ∧ n < 256 ^ w := by
  unfold leField at h
  split at h
  · cases h
  · split at h
    · rename_i hin
      obtain rfl := Except.ok.inj h
      refine ⟨rfl, ?_⟩
      have hlt := leNat_lt (slice buf off w)
      rwa [length_slice_of_le hin] at hlt
    · cases h

theorem leField_noOverflow (name : String) (w : Nat) (buf : List UInt8) (off : Nat) :
    NoOverflow (leField name w buf off) := by
  unfold leField
  split
  · exact .err _
  · split
    · exact .ok _
    · exact .err _

/-! ## Readers -/

/-- `dyn DiskImage`.  A `read_at` is given the length of its buffer, and gives the bytes that it puts there. -/
structure DiskImage where
  virtualSize : Nat
  readAt : Nat → Nat → Outcome CelError (List UInt8)

namespace DiskImage

variable (d : DiskImage)

/-- The loop of `read_exact_at`, with at most `fuel` calls of `read_at`. -/
def readExactLoop : Nat → Nat → Nat → Outcome CelError (List UInt8)
  | 0, _, _ => .ok []
  | fuel + 1, offset, len =>
    if len = 0 then .ok []
    else do
      let got ← d.readAt offset len
      if got.length = 0 then .error (.err (.invalid "disk: short read"))
      else do
        let next ← add64 offset got.length
        let rest ← readExactLoop fuel next (len - got.length)
        .ok (got ++ rest)

/-- Every call reads a byte at least, so as many turns as bytes are enough. -/
def readExactAt (offset len : Nat) : Outcome CelError (List UInt8) := d.readExactLoop len offset len

/-- A range read by calls of `read_at` with buffers of the lengths given, each from where the last one ended. -/
def readPieces : Nat → List Nat → Outcome CelError (List UInt8)
  | _, [] => .ok []
  | offset, m :: ms => do
    let got ← d.readAt offset m
    let rest ← readPieces (offset + got.length) ms
    .ok (got ++ rest)

variable {d}

/-- Where each call gives some of the disk, `read_exact_at` gives all that was asked for. -/
theorem readExactLoop_eq {disk : Nat → UInt8} {fuel offset len : Nat} (hfuel : len ≤ fuel) (hfits : offset + len < 2 ^ 64)
    (h : ∀ o n, offset ≤ o → o + n ≤ offset + len → 0 < n → ∃ m, 0 < m ∧ m ≤ n ∧ d.readAt o n = .ok (window disk o m)) :
    d.readExactLoop fuel offset len = .ok (window disk offset len) := by
  induction fuel generalizing offset len with
  | zero =>
    obtain rfl := Nat.le_zero.1 hfuel
    rfl
  | succ fuel ih =>
    rcases Nat.eq_zero_or_pos len with rfl | hlen
    · rfl
    · obtain ⟨m, hpos, hle, hread⟩ := h offset len (Nat.le_refl offset) (Nat.le_refl _) hlen
      have hnext : (add64 offset m : Outcome CelError Nat) = .ok (offset + m) := add64_ok (by omega)
      have hrest : d.readExactLoop fuel (offset + m) (len - m) = .ok (window disk (offset + m) (len - m)) :=
        ih (by omega) (by omega) fun o n hlo hhi => h o n (by omega) (by omega)
      rw [readExactLoop, if_neg (Nat.ne_of_gt hlen), hread]
      change (if (window disk offset m).length = 0 then _ else _) = _
      rw [length_window, if_neg (Nat.ne_of_gt hpos), hnext]
      change (d.readExactLoop fuel (offset + m) (len - m) >>= fun rest => _) = _
      rw [hrest]
      change Except.ok (window disk offset m ++ window disk (offset + m) (len - m)) = _
      rw [← window_append, Nat.add_sub_cancel' hle]

/-- And calls of any lengths give what is there, in order. -/
theorem readPieces_eq {disk : Nat → UInt8} {offset : Nat} {ms : List Nat}
    (h : ∀ o n, offset ≤ o → o + n ≤ offset + ms.sum → ∃ m, m ≤ n ∧ d.readAt o n = .ok (window disk o m)) :
    ∃ m, m ≤ ms.sum ∧ d.readPieces offset ms = .ok (window disk offset m) := by
  induction ms generalizing offset with
  | nil => exact ⟨0, Nat.le_refl 0, rfl⟩
  | cons n ms ih =>
    rw [List.sum_cons] at h
    obtain ⟨m, hle, hread⟩ := h offset n (Nat.le_refl offset) (by omega)
    obtain ⟨k, hk, hrest⟩ : ∃ k, k ≤ ms.sum ∧ d.readPieces (offset + m) ms = .ok (window disk (offset + m) k) :=
      ih fun o n hlo hhi => h o n (by omega) (by omega)
    refine ⟨m + k, by rw [List.sum_cons]; omega, ?_⟩
    rw [readPieces, hread]
    change (d.readPieces (offset + (window disk offset m).length) ms >>= fun rest => _) = _
    rw [length_window, hrest, window_append]
    rfl

/-- A reader puts no more into its buffer than there is room for. -/
def Bounded (d : DiskImage) : Prop := ∀ offset len bs, d.readAt offset len = .ok bs → bs.length ≤ len

/-! ## Readers that go block by block -/

/-- A reader whose `read_at` fills its buffer block by block, up to the end of the disk. -/
def blockwise (virtualSize block : Nat) (serve : Nat → Nat → Outcome CelError (List UInt8)) : DiskImage where
  virtualSize := virtualSize
  readAt offset len :=
    if len = 0 ∨ virtualSize ≤ offset then .ok []
    else fill block serve (min len (virtualSize - offset)) offset (min len (virtualSize - offset))

section Blockwise

variable {size block : Nat} {serve : Nat → Nat → Outcome CelError (List UInt8)} (hblock : 0 < block) (hsize : size < 2 ^ 64)

/-- How much a call with a buffer of `len` bytes reads. -/
theorem blockwise_readAt (offset len : Nat) :
    (blockwise size block serve).readAt offset len =
      fill block serve (min len (size - offset)) offset (min len (size - offset)) := by
  simp only [blockwise]
  split
  · rename_i hnone
    rw [show min len (size - offset) = 0 by omega, fill_nothing]
  · rfl

include hblock hsize in
theorem blockwise_sound {disk : Nat → UInt8}
    (hserve : ∀ c n bs, 0 < n → c % block + n ≤ block → c + n ≤ size → serve c n = .ok bs → bs = window disk c n)
    {offset len : Nat} {bs : List UInt8} (h : (blockwise size block serve).readAt offset len = .ok bs) :
    bs = window disk offset (min len (size - offset)) := by
  rw [blockwise_readAt] at h
  rcases Nat.lt_or_ge offset size with hoff | hoff
  · exact fill_sound hblock (by omega) (fun c n bs hn hcn hto => hserve c n bs hn hcn (by omega)) h
  · rw [show min len (size - offset) = 0 by omega, fill_nothing] at h
    rw [show min len (size - offset) = 0 by omega, window_zero]
    exact (Except.ok.inj h).symm

include hblock hsize in
theorem blockwise_eq_window {disk : Nat → UInt8} {offset len : Nat}
    (hserve : ∀ c n, offset ≤ c → c + n ≤ offset + min len (size - offset) → 0 < n → c % block + n ≤ block →
      serve c n = .ok (window disk c n)) :
    (blockwise size block serve).readAt offset len = .ok (window disk offset (min len (size - offset))) := by
  rw [blockwise_readAt]
  rcases Nat.lt_or_ge offset size with hoff | hoff
  · exact fill_eq_window hblock (by omega) hserve
  · rw [show min len (size - offset) = 0 by omega, fill_nothing, window_zero]

include hblock hsize in
theorem blockwise_ne_error {e : Fault CelError}
    (hserve : ∀ c n, 0 < n → c % block + n ≤ block → c + n ≤ size → serve c n ≠ .error e) (offset len : Nat) :
    (blockwise size block serve).readAt offset len ≠ .error e := by
  rw [blockwise_readAt]
  rcases Nat.lt_or_ge offset size with hoff | hoff
  · exact fill_ne_error hblock (by omega) fun c n hn hin hto => hserve c n hn hin (by omega)
  · rw [show min len (size - offset) = 0 by omega, fill_nothing]
    intro h
    cases h

include hblock hsize in
/-- **Read in one call or in any pieces, a range gives the same bytes**, or the same failure. -/
theorem blockwise_readPieces {disk : Nat → UInt8}
    (hsound : ∀ c n bs, 0 < n → c % block + n ≤ block → c + n ≤ size → serve c n = .ok bs → bs = window disk c n)
    (hserve : ∀ c a b, 0 < a → 0 < b → c % block + a + b ≤ block → c + a + b ≤ size →
      serve c (a + b) = both (serve c a) (serve (c + a) b))
    (offset : Nat) (ms : List Nat) :
    (blockwise size block serve).readPieces offset ms = (blockwise size block serve).readAt offset ms.sum := by
  induction ms generalizing offset with
  | nil => rfl
  | cons m ms ih =>
    let w := min m (size - offset)
    have hwhole : (blockwise size block serve).readAt offset (m :: ms).sum =
        both ((blockwise size block serve).readAt offset m) ((blockwise size block serve).readAt (offset + w) ms.sum) := by
      rw [blockwise_readAt, blockwise_readAt, blockwise_readAt, List.sum_cons]
      rw [show min (m + ms.sum) (size - offset) = w + min ms.sum (size - (offset + w)) by omega]
      rcases Nat.lt_or_ge offset size with hoff | hoff
      · exact fill_append hblock hsize hserve (by omega)
      · rw [show w = 0 by omega, show min ms.sum (size - (offset + 0)) = 0 by omega]
        simp only [show min m (size - offset) = 0 by omega, Nat.add_zero, fill_nothing, nil_both]
    rw [hwhole, readPieces]
    cases hgot : (blockwise size block serve).readAt offset m with
    | error e => rfl
    | ok got =>
      have hlen : got.length = w := by
        rw [blockwise_sound hblock hsize hsound hgot, length_window]
      rw [ok_bind, hlen, ih]
      rfl

end Blockwise

end DiskImage

/-! ## Raw images -/

namespace RawImage

/-- `RawImage::read_at`. -/
def readAt (f : DiskFile) (offset len : Nat) : Outcome CelError (List UInt8) :=
  if len = 0 then .ok []
  else if f.bytes.length ≤ offset then .ok []
  else
    let take := min len (f.bytes.length - offset)
    f.seek ("seek " ++ f.path) offset >>= fun _ => .ok (f.readFill take offset take)

/-- A raw image: the disk is the file, byte for byte. -/
def disk (f : DiskFile) : DiskImage := ⟨f.bytes.length, readAt f⟩

theorem bounded (f : DiskFile) : (disk f).Bounded := by
  intro offset len bs h
  change readAt f offset len = .ok bs at h
  unfold readAt at h
  split at h
  · rw [← Except.ok.inj h]
    exact Nat.zero_le len
  split at h
  · rw [← Except.ok.inj h]
    exact Nat.zero_le len
  obtain ⟨_, -, h⟩ := bind_eq_ok.1 h
  rw [← Except.ok.inj h, DiskFile.readFill_eq (by omega), length_window]
  exact Nat.min_le_left _ _

end RawImage

/-! ## `celimage::util::crc32c` -/

namespace Util

def crcBit (state : UInt32) : UInt32 := if state &&& 1 ≠ 0 then (state >>> 1) ^^^ 0x82F63B78 else state >>> 1

def crcByte (state : UInt32) (b : UInt8) : UInt32 := (List.range 8).foldl (fun state _ => crcBit state) (state ^^^ b.toUInt32)

def crc32cContinue (state : UInt32) (data : List UInt8) : UInt32 := data.foldl crcByte state

def crc32c (data : List UInt8) : UInt32 := crc32cContinue 0xFFFFFFFF data ^^^ 0xFFFFFFFF

end Util

end Celium
