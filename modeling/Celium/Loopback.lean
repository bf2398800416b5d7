import Celium.HyperWire
import Celium.Manager
/-!
# Loopback — the host's stand-in for the kernel, and the upload of a boot image

`celmesh::hyper_host`: `LoopbackHyperLink::apply`, which answers a request from a table of four slots, and
`CelhyperVmHost::stage_image`, which sends an image over a link and checks the reply.
-/
namespace Celium

def hyperHltExitCode : UInt32 := 12

def maxStagedImageBytes : Nat := 4096

/-! ## Hex and CRC of the host -/

def hexEncode (bytes : List UInt8) : String := String.ofList ((Hex.encode bytes).map (fun b => Char.ofNat b.toNat))

def hexNibble (b : UInt8) : CelResult UInt8 :=
  match Hex.nibble b with
  | some n => .ok n
  | none => .error (.invalid "hyper: image_load: non-hex byte (lowercase required)")

/-- The decoding loop of `apply`, on an even number of digits. -/
def hexBytes : List UInt8 → CelResult (List UInt8)
  | hi :: lo :: rest =>
    match hexNibble hi with
    | .error e => .error e
    | .ok h =>
      match hexNibble lo with
      | .error e => .error e
      | .ok l => (hexBytes rest).map ((h <<< 4 ||| l) :: ·)
  | _ => .ok []

def crc32cBytes (data : List UInt8) : UInt32 :=
  data.foldl (fun state b => crcShifts 8 (state ^^^ b.toUInt32)) 0xFFFFFFFF ^^^ 0xFFFFFFFF

/-! ## The stand-in -/

structure LoopSlot where
  label : String
  state : VmState
  lastExit : Option UInt32
  imagePath : Option String
  cpuCount : Option UInt32
  memoryMib : Option UInt64
  bootBlobCrc32c : Option UInt32
deriving DecidableEq, Repr

structure LoopbackHyperLink where
  slots : Fin maxVms → Option LoopSlot
deriving DecidableEq

namespace LoopbackHyperLink

def new : LoopbackHyperLink := ⟨fun _ => none⟩

variable (link : LoopbackHyperLink)

def setSlot (i : Fin maxVms) (s : Option LoopSlot) : LoopbackHyperLink := ⟨Function.update link.slots i s⟩

/-- `slot_mut`, and the same two checks in the `Delete` arm. -/
def slot (vmId : UInt32) : CelResult (Fin maxVms × LoopSlot) :=
  slotAt link.slots vmId (.invalid "hyper: vm not allocated") (.invalid "hyper: vm id out of range")

/-- The first free slot. -/
def freeSlot : Option (Fin maxVms) := (List.finRange maxVms).find? (fun i => (link.slots i).isNone)

/-- The `ImageLoad` arm: the image is checked, and not kept. -/
def imageLoad (len crc32c : UInt32) (bytesHex : String) : CelResult HyperReply :=
  if (Text.utf8 bytesHex).length ≠ 2 * len.toNat then .error (.invalid "hyper: image_load: bytes_hex.len() != 2*len")
  else if len = 0 then .error (.invalid "hyper: image_load: len == 0")
  else if len > 4096 then .error (.invalid "hyper: image_load: len > MAX_IMAGE_BYTES")
  else match hexBytes (Text.utf8 bytesHex) with
    | .error e => .error e
    | .ok decoded =>
      if crc32cBytes decoded ≠ crc32c then .error (.invalid "hyper: image_load: crc32c mismatch")
      else .ok (.imageLoaded len crc32c)

def apply : HyperRequest → CelResult HyperReply × LoopbackHyperLink
  | .create label imagePath cpuCount memoryMib bootBlobCrc32c =>
    if label.utf8ByteSize > 32 then (.error (.invalid "hyper: label > 32 chars"), link)
    else if imagePath.any (fun p => p.utf8ByteSize > 128) then (.error (.invalid "hyper: image_path > 128 chars"), link)
    else match link.freeSlot with
      | none => (.error (.invalid "hyper: vm registry full"), link)
      | some i =>
        (.ok (.created (UInt32.ofNat i)), link.setSlot i (some
          { label, state := .created, lastExit := none, imagePath, cpuCount, memoryMib, bootBlobCrc32c }))
  | .start vmId =>
    match link.slot vmId with
    | .error e => (.error e, link)
    | .ok (i, s) =>
      if s.state.isTerminal then (.error (.invalid "hyper: vm already terminal"), link)
      else if s.state = .running then (.error (.invalid "hyper: vm already running"), link)
      else
        (.ok (.state vmId VmState.halted.tag (some hyperHltExitCode)),
          link.setSlot i (some { s with state := .halted, lastExit := some hyperHltExitCode }))
  | .stop vmId =>
    match link.slot vmId with
    | .error e => (.error e, link)
    | .ok (i, s) =>
      let s := if s.state.isTerminal then s else { s with state := .stopped }
      (.ok (.state vmId s.state.tag s.lastExit), link.setSlot i (some s))
  | .delete vmId =>
    match link.slot vmId with
    | .error e => (.error e, link)
    | .ok (i, s) =>
      if !s.state.isTerminal then (.error (.invalid "hyper: vm not terminal"), link)
      else (.ok (.deleted vmId), link.setSlot i none)
  | .list =>
    (.ok (.listed ((List.finRange maxVms).filterMap (fun i => (link.slots i).map (fun s =>
      { vmId := UInt32.ofNat i, label := s.label, state := s.state.tag, lastExit := s.lastExit,
        imagePath := s.imagePath, cpuCount := s.cpuCount, memoryMib := s.memoryMib,
        bootBlobCrc32c := s.bootBlobCrc32c })))), link)
  | .imageLoad len crc32c bytesHex => (imageLoad len crc32c bytesHex, link)

/-- What the stand-in does within the limits. -/
theorem apply_create (label : String) (imagePath : Option String) (cpu : Option UInt32)
    (mem : Option UInt64) (crc : Option UInt32) (hlabel : label.utf8ByteSize ≤ 32)
    (hpath : ∀ p ∈ imagePath, p.utf8ByteSize ≤ 128) :
    link.apply (.create label imagePath cpu mem crc) =
      match link.freeSlot with
      | none => (.error (.invalid "hyper: vm registry full"), link)
      | some i =>
        (.ok (.created (UInt32.ofNat i)), link.setSlot i (some ⟨label, .created, none, imagePath, cpu, mem, crc⟩)) := by
  have hany : imagePath.any (fun p => decide (p.utf8ByteSize > 128)) = false := by
    cases imagePath with
    | none => rfl
    | some p => simpa using hpath p rfl
  simp only [apply, if_neg (Nat.not_lt.2 hlabel), hany, Bool.false_eq_true, if_false]

end LoopbackHyperLink

/-! ## The upload -/

/-- A number as `0x` and eight hex digits. -/
def hex32 (n : UInt32) : String :=
  "0x" ++ hexEncode [(n >>> 24).toUInt8, (n >>> 16).toUInt8, (n >>> 8).toUInt8, n.toUInt8]

/-- `CelhyperVmHost::stage_image`, over a link; `debug` is the derived `Debug` of a reply. -/
def stageImage (debug : HyperReply → String) (call : HyperRequest → CelResult HyperReply) (bytes : List UInt8) :
    Except String UInt32 :=
  if bytes = [] then .error "hyper: stage_image: bytes is empty"
  else if bytes.length > maxStagedImageBytes then
    .error ("hyper: stage_image: " ++ toString bytes.length ++ " bytes exceeds MAX_STAGED_IMAGE_BYTES (" ++
      toString maxStagedImageBytes ++ ")")
  else
    let crc := crc32cBytes bytes
    let len := UInt32.ofNat bytes.length
    match call (.imageLoad len crc (hexEncode bytes)) with
    | .error e => .error ("hyper: " ++ e.debug)
    | .ok (.error message) => .error ("hyper: kernel: " ++ message)
    | .ok (.imageLoaded rlen rcrc) =>
      if rlen ≠ len ∨ rcrc ≠ crc then
        .error ("hyper: stage_image: kernel echoed (len=" ++ toString rlen ++ ", crc=" ++ hex32 rcrc ++
          "); expected (len=" ++ toString len ++ ", crc=" ++ hex32 crc ++ ")")
      else .ok crc
    | .ok reply => .error ("hyper: unexpected reply " ++ debug reply)

end Celium
