import Celium.Lib.Hex
import Celium.Lib.Runs
import Celium.Wire
/-!
# Boot — boot images and the kernel's staging slot

`celhyper::crc`, `celhyper::image_loader` and the hex reader of `celhyper::wire`.  The slot is one buffer that an upload
overwrites in place; the reader fills the buffer as it goes, so that a bad digit leaves what came before it.  A blob is
at most a page, and an address is a number.
-/
namespace Celium

open Runs

/-! ## CRC32C -/

/-- One bit of the remainder. -/
def crcShift (state : UInt32) : UInt32 :=
  if state &&& 1 ≠ 0 then (state >>> 1) ^^^ 0x82F63B78 else state >>> 1

def crcShifts : Nat → UInt32 → UInt32
  | 0, state     => state
  | n + 1, state => crcShifts n (crcShift state)

def crc32cContinue (state : UInt32) (data : List UInt8) : UInt32 :=
  data.foldl (fun state b => crcShifts 8 (state ^^^ b.toUInt32)) state

def crc32c (data : List UInt8) : UInt32 := crc32cContinue 0xFFFFFFFF data ^^^ 0xFFFFFFFF

example : crc32c (Text.utf8 "123456789") = 0xe3069283 := by decide +kernel

/-! ## The hex reader -/

namespace Wire

def hexNibble (b : UInt8) : HyperResult UInt8 :=
  match Hex.nibble b with
  | some n => .ok n
  | none => .error (.invalid "wire: hex_decode non-hex byte")

/-- The loop of `hex_decode`: the buffer as it leaves it. -/
def hexFill : List UInt8 → List UInt8 → HyperResult Unit × List UInt8
  | hi :: lo :: src, d :: dst =>
    match hexNibble hi with
    | .error e => (.error e, d :: dst)
    | .ok h =>
      match hexNibble lo with
      | .error e => (.error e, d :: dst)
      | .ok l => ((hexFill src dst).1, (h <<< 4 ||| l) :: (hexFill src dst).2)
  | _, dst => (.ok (), dst)

/-- The number of bytes written, and the buffer. -/
def hexDecode (src dst : List UInt8) : HyperResult Nat × List UInt8 :=
  if src.length % 2 ≠ 0 then (.error (.invalid "wire: hex_decode odd input length"), dst)
  else if src.length / 2 > dst.length then (.error (.exhausted "wire: hex_decode dst too small"), dst)
  else ((hexFill src dst).1.map (fun _ => src.length / 2), (hexFill src dst).2)

theorem hexNibble_ok {b n : UInt8} : hexNibble b = .ok n ↔ Hex.nibble b = some n := by
  unfold hexNibble
  split <;> simp [*]

/-- What the loop writes: the bytes of the digits, over the start of the buffer. -/
theorem hexFill_ok : ∀ {src dst : List UInt8}, src.length % 2 = 0 → src.length / 2 ≤ dst.length →
    ((hexFill src dst).1 = .ok () ↔ ∃ bs, Hex.decode src = some bs) ∧
      ∀ bs, Hex.decode src = some bs → (hexFill src dst).2 = bs ++ dst.drop bs.length
  | [], dst, _, _ => by
    refine ⟨iff_of_true rfl ⟨[], rfl⟩, ?_⟩
    rintro bs h
    rw [← Option.some.inj h]
    rfl
  | [_], _, h, _ => by cases h
  | hi :: lo :: src, [], _, h => by
    simp only [List.length_cons, List.length_nil] at h
    omega
  | hi :: lo :: src, d :: dst, hodd, hlen => by
    have hodd' : src.length % 2 = 0 := by
      simp at hodd
      omega
    have hlen' : src.length / 2 ≤ dst.length := by
      simp at hlen
      omega
    have ih := hexFill_ok hodd' hlen'
    rw [hexFill, Hex.decode]
    cases hh : Hex.nibble hi with
    | none => simp [hexNibble, hh]
    | some h =>
      cases hl : Hex.nibble lo with
      | none => simp [hexNibble, hh, hl]
      | some l =>
        rw [hexNibble_ok.2 hh, hexNibble_ok.2 hl]
        simp only [Option.map_eq_some_iff]
        constructor
        · rw [ih.1]
          constructor
          · rintro ⟨bs, hbs⟩
            exact ⟨_, bs, hbs, rfl⟩
          · rintro ⟨_, bs, hbs, -⟩
            exact ⟨bs, hbs⟩
        · rintro _ ⟨bs, hbs, rfl⟩
          rw [ih.2 bs hbs]
          rfl

/-- **`hex_decode` succeeds on the hex of some bytes, and writes those.** -/
theorem hexDecode_ok {src dst : List UInt8} {n : Nat} :
    (hexDecode src dst).1 = .ok n ↔ ∃ bs, Hex.decode src = some bs ∧ bs.length = n ∧ n ≤ dst.length := by
  unfold hexDecode
  split
  · rename_i hodd
    refine iff_of_false (by simp) ?_
    rintro ⟨bs, hbs, -⟩
    have := Hex.decode_length hbs
    omega
  · rename_i hodd
    split
    · rename_i hshort
      refine iff_of_false (by simp) ?_
      rintro ⟨bs, hbs, rfl, hle⟩
      have := Hex.decode_length hbs
      omega
    · rename_i hshort
      have heven : src.length % 2 = 0 := by omega
      have hroom : src.length / 2 ≤ dst.length := by omega
      have hfill := (hexFill_ok heven hroom).1
      constructor
      · intro h
        cases hres : (hexFill src dst).1 with
        | error e => simp [hres, Except.map] at h
        | ok u =>
          rw [hres] at h
          obtain ⟨bs, hbs⟩ := hfill.1 hres
          have hlen := Hex.decode_length hbs
          have hn : src.length / 2 = n := Except.ok.inj h
          exact ⟨bs, hbs, by omega, by omega⟩
      · rintro ⟨bs, hbs, rfl, -⟩
        have hlen := Hex.decode_length hbs
        rw [hfill.2 ⟨bs, hbs⟩]
        simp only [Except.map]
        congr 1
        omega

theorem hexDecode_bytes {src dst : List UInt8} {bs : List UInt8} (h : Hex.decode src = some bs)
    (hle : bs.length ≤ dst.length) : (hexDecode src dst).2 = bs ++ dst.drop bs.length := by
  have hlen := Hex.decode_length h
  unfold hexDecode
  rw [if_neg (by omega), if_neg (by omega)]
  exact (hexFill_ok (by omega) (by omega)).2 bs h

end Wire

/-! ## Boot images -/

/-- `MAX_IMAGE_BYTES`, one page. -/
def maxImageBytes : Nat := 4096

def guestLoadGpa : Nat := 0x1000

def guestMarker : List UInt8 := Text.utf8 "Celium Guest Alive!\n"

/-- `HELLO_BLOB`: each character to the debug port, then `hlt`. -/
def helloBlob : List UInt8 := guestMarker.flatMap (fun c => [0xB0, c, 0xE6, 0xE9]) ++ [0xF4]

def hltFallback : List UInt8 := [0xF4]

structure BootImage where
  blob : List UInt8
  entryRip : Nat
  entryRsp : Nat
  crc32c : Option UInt32
deriving DecidableEq, Repr

namespace BootImage

def fromRawBytes (blob : List UInt8) (entryRip entryRsp : Nat) (crc32c : Option UInt32) : HyperResult BootImage :=
  if blob = [] then .error (.invalid "image_loader: empty blob")
  else if blob.length > maxImageBytes then
    .error (.invalid "image_loader: blob > MAX_IMAGE_BYTES (4 KiB W23-D cap)")
  else if entryRip < guestLoadGpa ∨ entryRip ≥ guestLoadGpa + blob.length then
    .error (.invalid "image_loader: entry_rip outside loaded blob region")
  else .ok { blob, entryRip, entryRsp, crc32c }

def embedded : BootImage :=
  match fromRawBytes helloBlob guestLoadGpa 0 none with
  | .ok img => img
  | .error _ => { blob := hltFallback, entryRip := guestLoadGpa, entryRsp := 0, crc32c := none }

theorem fromRawBytes_ok {blob : List UInt8} (hne : blob ≠ []) (hle : blob.length ≤ maxImageBytes)
    (crc32c : Option UInt32) :
    fromRawBytes blob guestLoadGpa 0 crc32c = .ok ⟨blob, guestLoadGpa, 0, crc32c⟩ := by
  have hpos : 0 < blob.length := List.length_pos_iff.2 hne
  unfold fromRawBytes
  rw [if_neg hne, if_neg (by omega), if_neg (by omega)]

theorem embedded_eq : embedded = ⟨helloBlob, guestLoadGpa, 0, none⟩ := by
  rw [embedded, fromRawBytes_ok (by decide +kernel) (by decide +kernel)]

end BootImage

/-! ## The staging slot -/

structure StagedImage where
  bytes : List UInt8
  len : Nat
  crc32c : UInt32
  present : Bool
  bytes_length : bytes.length = maxImageBytes

namespace StagedImage

def empty : StagedImage := ⟨List.replicate maxImageBytes 0, 0, 0, false, List.length_replicate⟩

variable (slot : StagedImage)

/-- The start of the buffer overwritten. -/
def fill (bs : List UInt8) : StagedImage :=
  { slot with
    bytes := bs.take maxImageBytes ++ slot.bytes.drop bs.length
    bytes_length := by
      rw [List.length_append, List.length_take, List.length_drop, slot.bytes_length]
      omega }

def discard : StagedImage := { slot with present := false, len := 0, crc32c := 0 }

def stageFromHex (hex : List UInt8) (expectedLen expectedCrc : UInt32) : HyperResult Unit × StagedImage :=
  let len := expectedLen.toNat
  if len = 0 then (.error (.invalid "image_loader: stage len == 0"), slot)
  else if len > maxImageBytes then (.error (.invalid "image_loader: stage len > MAX_IMAGE_BYTES"), slot)
  else if hex.length ≠ 2 * len then (.error (.invalid "image_loader: stage hex len mismatch"), slot)
  else
    -- From here on nothing is staged until the upload is known to be good.
    let (res, bytes) := Wire.hexDecode hex (slot.bytes.take len)
    let filled := slot.discard.fill bytes
    match res with
    | .error e => (.error e, filled)
    | .ok _ =>
      let actual := Celium.crc32c (filled.bytes.take len)
      if actual ≠ expectedCrc then
        (.error (.invalid "image_loader: stage CRC mismatch"), filled.fill (List.replicate len 0))
      else (.ok (), { filled with len, crc32c := actual, present := true })

/-- `staged_meta`. -/
def stagedMeta : Option (Nat × UInt32) := if slot.present then some (slot.len, slot.crc32c) else none

end StagedImage

/-- `BootImage::from_staged_or_embedded`. -/
def BootImage.fromStagedOrEmbedded (slot : StagedImage) (expectedCrc : Option UInt32) : BootImage :=
  match expectedCrc with
  | none => embedded
  | some want =>
    if slot.present ∧ slot.crc32c = want then
      match fromRawBytes (slot.bytes.take slot.len) guestLoadGpa 0 (some want) with
      | .ok img => img
      | .error _ => embedded
    else embedded

namespace StagedImage

/-- What is staged is an image of its length and its CRC. -/
def Sound (slot : StagedImage) : Prop :=
  slot.present = true → 1 ≤ slot.len ∧ slot.len ≤ maxImageBytes ∧ Celium.crc32c (slot.bytes.take slot.len) = slot.crc32c

/-- An upload that is in order: the hex of `len` bytes, a page at most, with their CRC. -/
def Upload (hex : List UInt8) (len crc : UInt32) : Prop :=
  ∃ bs, Hex.decode hex = some bs ∧ bs ≠ [] ∧ bs.length ≤ maxImageBytes ∧ len.toNat = bs.length ∧ Celium.crc32c bs = crc

/-- What the buffer holds once the hex of `bs` is read. -/
theorem fill_hexDecode (slot : StagedImage) {hex bs : List UInt8} (h : Hex.decode hex = some bs)
    (hle : bs.length ≤ maxImageBytes) :
    (Wire.hexDecode hex (slot.bytes.take bs.length)).1 = .ok bs.length ∧
      (slot.discard.fill (Wire.hexDecode hex (slot.bytes.take bs.length)).2).bytes.take bs.length = bs := by
  have hroom : (slot.bytes.take bs.length).length = bs.length := by
    rw [List.length_take, slot.bytes_length]
    omega
  refine ⟨Wire.hexDecode_ok.2 ⟨bs, h, rfl, hroom.ge⟩, ?_⟩
  rw [Wire.hexDecode_bytes h hroom.ge, List.drop_of_length_le hroom.le, List.append_nil]
  change (bs.take maxImageBytes ++ _).take bs.length = bs
  rw [List.take_of_length_le hle, List.take_left]

/-- The upload of some bytes under their own length and CRC. -/
theorem stageFromHex_ok (slot : StagedImage) {hex bs : List UInt8} {len : UInt32} (hex_bs : Hex.decode hex = some bs)
    (hne : bs ≠ []) (hle : bs.length ≤ maxImageBytes) (hlen : len.toNat = bs.length) :
    (slot.stageFromHex hex len (Celium.crc32c bs)).1 = .ok () ∧
      (slot.stageFromHex hex len (Celium.crc32c bs)).2.present = true ∧
      (slot.stageFromHex hex len (Celium.crc32c bs)).2.len = bs.length ∧
      (slot.stageFromHex hex len (Celium.crc32c bs)).2.crc32c = Celium.crc32c bs ∧
      (slot.stageFromHex hex len (Celium.crc32c bs)).2.bytes.take bs.length = bs := by
  have hpos : 0 < bs.length := List.length_pos_iff.2 hne
  have hhex := Hex.decode_length hex_bs
  obtain ⟨hok, hfill⟩ := slot.fill_hexDecode hex_bs hle
  have heq : slot.stageFromHex hex len (Celium.crc32c bs) =
      (.ok (), { slot.discard.fill (Wire.hexDecode hex (slot.bytes.take bs.length)).2 with
        len := bs.length, crc32c := Celium.crc32c bs, present := true }) := by
    simp only [stageFromHex, hlen, hok, hfill]
    rw [if_neg (by omega), if_neg (by omega), if_neg (by omega), if_neg (by simp)]
  rw [heq]
  exact ⟨rfl, rfl, rfl, rfl, hfill⟩

/-- **An upload is accepted exactly when it is in order**, whatever the slot held. -/
theorem stageFromHex_ok_iff (slot : StagedImage) (hex : List UInt8) (len crc : UInt32) :
    (slot.stageFromHex hex len crc).1 = .ok () ↔ Upload hex len crc := by
  constructor
  · intro h
    simp only [stageFromHex] at h
    split at h
    · cases h
    · split at h
      · cases h
      · split at h
        · cases h
        · rename_i hpos hmax hhex
          split at h
          · cases h
          · rename_i n hn
            obtain ⟨bs, hbs, -⟩ := Wire.hexDecode_ok.1 hn
            have hlen := Hex.decode_length hbs
            have hbslen : len.toNat = bs.length := by omega
            have hle : bs.length ≤ maxImageBytes := by omega
            split at h
            · cases h
            · rename_i hcrc
              rw [hbslen, (slot.fill_hexDecode hbs hle).2, not_not] at hcrc
              exact ⟨bs, hbs, List.length_pos_iff.1 (by omega), hle, hbslen, hcrc⟩
  · rintro ⟨bs, hbs, hne, hle, hlen, rfl⟩
    exact (slot.stageFromHex_ok hbs hne hle hlen).1

end StagedImage

namespace BootImage

theorem fromRawBytes_length {blob : List UInt8} {rip rsp : Nat} {crc : Option UInt32} {img : BootImage}
    (h : fromRawBytes blob rip rsp crc = .ok img) : img.blob.length ≤ maxImageBytes := by
  unfold fromRawBytes at h
  split at h
  · cases h
  · split at h
    · cases h
    · split at h
      · cases h
      · rw [← Except.ok.inj h]
        exact Nat.not_lt.1 ‹_›

/-- A boot image fits a page, whatever is staged. -/
theorem fromStagedOrEmbedded_length (slot : StagedImage) (c : Option UInt32) :
    (fromStagedOrEmbedded slot c).blob.length ≤ maxImageBytes := by
  have hembedded : embedded.blob.length ≤ maxImageBytes := by
    rw [embedded_eq]
    decide +kernel
  unfold fromStagedOrEmbedded
  split
  · exact hembedded
  · split
    · split
      · exact fromRawBytes_length ‹_›
      · exact hembedded
    · exact hembedded

/-- A staged image is what is booted under its own CRC. -/
theorem fromStagedOrEmbedded_staged {slot : StagedImage} {bs : List UInt8} {crc : UInt32} (hp : slot.present = true)
    (hlen : slot.len = bs.length) (hcrc : slot.crc32c = crc) (hbs : slot.bytes.take bs.length = bs) (hne : bs ≠ [])
    (hle : bs.length ≤ maxImageBytes) :
    fromStagedOrEmbedded slot (some crc) = ⟨bs, guestLoadGpa, 0, some crc⟩ := by
  unfold fromStagedOrEmbedded
  simp only [if_pos (And.intro hp hcrc), hlen, hbs, fromRawBytes_ok hne hle (some crc)]

end BootImage

end Celium
