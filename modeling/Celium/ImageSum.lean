import Celium.Checksum
/-!
# ImageSum — the checksum of a whole image

`celimage::full_image_crc32c` over any reader.  A call of `read_at` may give as little as one byte, and how much may
depend on the calls before it, so a reader has a state of its own; the buffer keeps what earlier calls put there.
-/
namespace Celium

open Bytes Checked

/-- How a call ends without a value. -/
inductive Stop where
  | err (e : CelError)
  | panic
deriving DecidableEq, Repr

/-- `dyn DiskImage`.  A `read_at` is given the buffer; it gives its answer and the buffer after it. -/
structure ImageReader (σ : Type) where
  virtualSize : Nat
  readAt : σ → Nat → List UInt8 → Except Stop Nat × List UInt8 × σ
  size : virtualSize < 2 ^ 64
  keeps : ∀ s offset buf, (readAt s offset buf).2.1.length = buf.length

namespace ImageReader

variable {σ : Type} (r : ImageReader σ)

/-- What the loop holds between two turns. -/
structure Pass (σ : Type) where
  offset : Nat
  crc : UInt32
  buf : List UInt8
  reader : σ

def chunk : Nat := 64 * 1024

/-- How many bytes a turn asks for. -/
def want (at' : Pass σ) : Nat := min chunk (r.virtualSize - at'.offset)

/-- What `read_at` makes of a turn's request. -/
def reply (at' : Pass σ) : Except Stop Nat × List UInt8 × σ :=
  r.readAt at'.reader at'.offset (at'.buf.take (r.want at'))

/-- One turn.  `&buf[..n]` is cut from the whole buffer, not from the part that was handed out. -/
def turn (at' : Pass σ) : Except Stop (Pass σ) :=
  match r.reply at' with
  | (.error e, _, _) => .error e
  | (.ok n, got, reader) =>
    let buf := got ++ at'.buf.drop (r.want at')
    if n = 0 then .error (.err (.invalid "full_image_crc32c: short read before virtual_size"))
    else if buf.length < n then .error .panic
    else if 2 ^ 64 ≤ at'.offset + n then .error .panic
    else .ok ⟨at'.offset + n, Util.crc32cContinue at'.crc (buf.take n), buf, reader⟩

/-- Each turn that goes on has read a byte at least. -/
theorem turn_offset {at' next : Pass σ} (h : r.turn at' = .ok next) : at'.offset < next.offset := by
  unfold turn at h
  split at h
  · cases h
  · dsimp only at h
    split at h
    · cases h
    split at h
    · cases h
    split at h
    · cases h
    rw [← Except.ok.inj h]
    dsimp only
    omega

def loop (at' : Pass σ) : Except Stop UInt32 :=
  if at'.offset < r.virtualSize then
    match _h : r.turn at' with
    | .error e => .error e
    | .ok next => loop next
  else .ok (at'.crc ^^^ 0xFFFFFFFF)
termination_by r.virtualSize - at'.offset
decreasing_by
  have := r.turn_offset _h
  omega

def start (s : σ) : Pass σ := ⟨0, 0xFFFFFFFF, List.replicate chunk 0, s⟩

def fullImageCrc32c (s : σ) : Except Stop UInt32 :=
  if r.virtualSize = 0 then .error (.err (.invalid "full_image_crc32c: virtual size is zero"))
  else r.loop (start s)

/-- Where the loop can be before a turn. -/
inductive Reached (s : σ) : Pass σ → Prop where
  | start : Reached s (start s)
  | turn {at' next : Pass σ} : Reached s at' → at'.offset < r.virtualSize → r.turn at' = .ok next → Reached s next

/-- The contract of `read_at`: inside the image a buffer that is not empty gets one byte at least, from the content. -/
structure Serves (content : List UInt8) : Prop where
  length : content.length = r.virtualSize
  read : ∀ s offset buf, offset < r.virtualSize → buf ≠ [] →
    ∃ n, 1 ≤ n ∧ n ≤ buf.length ∧ (r.readAt s offset buf).1 = .ok n ∧
      (r.readAt s offset buf).2.1.take n = slice content offset n

variable {r}

/-! ## Turns -/

theorem loop_of_turn {at' next : Pass σ} (hin : at'.offset < r.virtualSize) (h : r.turn at' = .ok next) :
    r.loop at' = r.loop next := by
  rw [loop, if_pos hin]
  split
  · rename_i e he
    rw [h] at he
    cases he
  · rename_i next' hnext
    rw [h] at hnext
    rw [Except.ok.inj hnext]

theorem loop_of_error {at' : Pass σ} {e : Stop} (hin : at'.offset < r.virtualSize) (h : r.turn at' = .error e) :
    r.loop at' = .error e := by
  rw [loop, if_pos hin]
  split
  · rename_i e' he
    rw [h] at he
    rw [Except.error.inj he]
  · rename_i next hnext
    rw [h] at hnext
    cases hnext

/-- **What the loop gives is what it gives from any place that it reaches.** -/
theorem Reached.loop_eq {s : σ} {at' : Pass σ} (h : r.Reached s at') : r.loop (ImageReader.start s) = r.loop at' := by
  induction h with
  | start => rfl
  | turn _ hin hturn ih => rw [ih, loop_of_turn hin hturn]

/-- After a turn: the bytes up to `offset` are in the checksum. -/
structure Summed (content : List UInt8) (at' : Pass σ) : Prop where
  inside : at'.offset ≤ content.length
  buf : at'.buf.length = chunk
  crc : at'.crc = Util.crc32cContinue 0xFFFFFFFF (content.take at'.offset)

theorem Summed.turn {content : List UInt8} {at' : Pass σ} (hr : r.Serves content) (h : Summed content at')
    (hin : at'.offset < r.virtualSize) : ∃ next, r.turn at' = .ok next ∧ Summed content next := by
  have hchunk : chunk = 65536 := rfl
  have hwant : r.want at' = min chunk (r.virtualSize - at'.offset) := rfl
  have hgiven : (at'.buf.take (r.want at')).length = r.want at' := by
    rw [List.length_take, h.buf]
    omega
  have hne : at'.buf.take (r.want at') ≠ [] := fun hnil => by
    rw [hnil, List.length_nil] at hgiven
    omega
  obtain ⟨n, hpos, hle, hok, hbytes⟩ := hr.read at'.reader at'.offset _ hin hne
  have hkeeps := r.keeps at'.reader at'.offset (at'.buf.take (r.want at'))
  rcases hreply : r.readAt at'.reader at'.offset (at'.buf.take (r.want at')) with ⟨answer, got, reader⟩
  rw [hreply] at hok hbytes hkeeps
  dsimp only at hok hbytes hkeeps
  subst hok
  have hbuf : (got ++ at'.buf.drop (r.want at')).length = chunk := by
    rw [List.length_append, List.length_drop, hkeeps, hgiven, h.buf]
    omega
  have htake : (got ++ at'.buf.drop (r.want at')).take n = slice content at'.offset n := by
    rw [List.take_append_of_le_length (by omega), hbytes]
  have hlen := hr.length
  have hsize := r.size
  have hroom : at'.offset + n ≤ content.length := by omega
  have hturn : r.turn at' = .ok ⟨at'.offset + n, Util.crc32cContinue at'.crc (slice content at'.offset n),
      got ++ at'.buf.drop (r.want at'), reader⟩ := by
    rw [ImageReader.turn, reply, hreply]
    dsimp only
    rw [if_neg (by omega), if_neg (by omega), if_neg (by omega), htake]
  refine ⟨_, hturn, hroom, hbuf, ?_⟩
  dsimp only
  rw [h.crc, ← Util.crc32cContinue_append, List.take_add, slice]

theorem Summed.loop {content : List UInt8} (hr : r.Serves content) (at' : Pass σ) (h : Summed content at') :
    r.loop at' = .ok (Util.crc32c content) := by
  by_cases hin : at'.offset < r.virtualSize
  · obtain ⟨next, hturn, hnext⟩ := h.turn hr hin
    have hdown := r.turn_offset hturn
    rw [loop_of_turn hin hturn]
    exact hnext.loop hr
  · have hend : content.take at'.offset = content := List.take_of_length_le (by have := hr.length; omega)
    rw [ImageReader.loop, if_neg hin, h.crc, hend]
    rfl
termination_by r.virtualSize - at'.offset

theorem Summed.start (content : List UInt8) (s : σ) : Summed content (start s) :=
  ⟨Nat.zero_le _, List.length_replicate, rfl⟩

/-! ## The checksum -/

theorem fullImageCrc32c_serves {content : List UInt8} (hr : r.Serves content) (s : σ) :
    r.fullImageCrc32c s =
      if content = [] then .error (.err (.invalid "full_image_crc32c: virtual size is zero"))
      else .ok (Util.crc32c content) := by
  have hlen := hr.length
  by_cases hnil : content = []
  · rw [hnil, List.length_nil] at hlen
    rw [fullImageCrc32c, if_pos hlen.symm, if_pos hnil]
  · have hpos := List.length_pos_of_ne_nil hnil
    rw [fullImageCrc32c, if_neg (by omega), if_neg hnil]
    exact (Summed.start content s).loop hr

theorem fullImageCrc32c_fails {s : σ} {at' : Pass σ} {e : Stop} (h : r.Reached s at') (hin : at'.offset < r.virtualSize)
    (hturn : r.turn at' = .error e) : r.fullImageCrc32c s = .error e := by
  rw [fullImageCrc32c, if_neg (by omega), h.loop_eq, loop_of_error hin hturn]

/-- **The checksum of an image is that of its content**, however little each call reads: two readers of one content agree,
and a call that fails or reads nothing before the end makes the answer an error. -/
theorem full_image_crc32c (r : ImageReader σ) (s : σ) (content : List UInt8) :
    (r.Serves content → 0 < r.virtualSize → r.fullImageCrc32c s = .ok (Util.crc32c content)) ∧
    (∀ {τ : Type} (r' : ImageReader τ) (s' : τ), r.Serves content → r'.Serves content →
      r.fullImageCrc32c s = r'.fullImageCrc32c s') ∧
    (∀ at', r.Reached s at' → at'.offset < r.virtualSize →
      (∀ e, (r.reply at').1 = .error e → r.fullImageCrc32c s = .error e) ∧
      ((r.reply at').1 = .ok 0 →
        r.fullImageCrc32c s = .error (.err (.invalid "full_image_crc32c: short read before virtual_size")))) := by
  refine ⟨fun hr hpos => ?_, fun r' s' hr hr' => ?_, fun at' hreached hin => ⟨fun e he => ?_, fun hzero => ?_⟩⟩
  · rw [fullImageCrc32c_serves hr, if_neg]
    rintro rfl
    have := hr.length
    rw [List.length_nil] at this
    omega
  · rw [fullImageCrc32c_serves hr, fullImageCrc32c_serves hr']
  · refine fullImageCrc32c_fails hreached hin ?_
    rcases hreply : r.reply at' with ⟨answer, got, reader⟩
    rw [hreply] at he
    dsimp only at he
    rw [turn, hreply, he]
  · refine fullImageCrc32c_fails hreached hin ?_
    rcases hreply : r.reply at' with ⟨answer, got, reader⟩
    rw [hreply] at hzero
    dsimp only at hzero
    rw [turn, hreply, hzero]
    rfl

end ImageReader

/-! ## The readers of the crate -/

def Stop.ofFault : Fault CelError → Stop
  | .err e => .err e
  | .overflow => .panic
  | .capacity => .panic

namespace DiskImage

/-- A reader without a state. -/
def reader (d : DiskImage) (hsize : d.virtualSize < 2 ^ 64) (hd : d.Bounded) : ImageReader Unit where
  virtualSize := d.virtualSize
  readAt _ offset buf :=
    match d.readAt offset buf.length with
    | .ok bs => (.ok bs.length, bs ++ buf.drop bs.length, ())
    | .error e => (.error (.ofFault e), buf, ())
  size := hsize
  keeps := by
    intro _ offset buf
    cases hread : d.readAt offset buf.length with
    | error e => rfl
    | ok bs =>
      have := hd _ _ _ hread
      dsimp only
      rw [List.length_append, List.length_drop]
      omega

/-- A reader that gives some of its disk at each call keeps the contract. -/
theorem reader_serves {d : DiskImage} {hsize : d.virtualSize < 2 ^ 64} {hd : d.Bounded} {disk : Nat → UInt8}
    (h : ∀ offset len, offset < d.virtualSize → 0 < len →
      ∃ n, 0 < n ∧ n ≤ min len (d.virtualSize - offset) ∧ d.readAt offset len = .ok (window disk offset n)) :
    (d.reader hsize hd).Serves (window disk 0 d.virtualSize) := by
  refine ⟨length_window _ _ _, fun _ offset buf hin hne => ?_⟩
  obtain ⟨n, hpos, hle, hread⟩ := h offset buf.length hin (List.length_pos_of_ne_nil hne)
  have hreply : (d.reader hsize hd).readAt () offset buf =
      (.ok n, window disk offset n ++ buf.drop n, ()) := by
    simp only [reader, hread, length_window]
  have hroom : offset + n ≤ d.virtualSize := by
    have : offset < d.virtualSize := hin
    omega
  refine ⟨n, hpos, by omega, by rw [hreply], ?_⟩
  rw [hreply, slice_window disk (by omega)]
  dsimp only
  rw [List.take_append_of_le_length (Nat.le_of_eq (length_window disk offset n).symm),
    List.take_of_length_le (Nat.le_of_eq (length_window disk offset n))]

end DiskImage

/-- **The checksum of a raw image is that of its file.** -/
theorem RawImage.fullImageCrc32c_eq (f : DiskFile) (hne : f.bytes ≠ []) :
    ((RawImage.disk f).reader (by have := f.length_lt; change f.bytes.length < 2 ^ 64; omega)
      (RawImage.bounded f)).fullImageCrc32c () = .ok (Util.crc32c f.bytes) := by
  have hserves : ((RawImage.disk f).reader (by have := f.length_lt; change f.bytes.length < 2 ^ 64; omega)
      (RawImage.bounded f)).Serves (window f.byte 0 f.bytes.length) := by
    refine DiskImage.reader_serves fun offset len hin hpos => ?_
    change offset < f.bytes.length at hin
    have hfits := f.fits
    refine ⟨min len (f.bytes.length - offset), by omega, Nat.le_refl _, ?_⟩
    change RawImage.readAt f offset len = _
    rw [RawImage.readAt, if_neg (by omega), if_neg (by omega)]
    dsimp only
    rw [DiskFile.seek_ok (by omega), DiskFile.readFill_eq (by omega)]
    rfl
  have hwhole : window f.byte 0 f.bytes.length = f.bytes := by
    rw [← DiskFile.slice_eq_window (by omega), slice, List.drop_zero, List.take_length]
  rw [hwhole] at hserves
  rw [ImageReader.fullImageCrc32c_serves hserves, if_neg hne]

end Celium
