import Celium.MeshConverge
import Celium.MemHost
import Celium.Lib.Json
/-!
# FrameSize — what an envelope that carries volume bytes takes on the wire

`celmesh::proto::Envelope::encode` and `decode`.  `serde_json` writes a `Vec<u8>` as an array of decimal numbers, so a
byte takes two to four bytes of the frame and not the four thirds of base64 that the cap on one IO allows for.  Only the
two payloads that carry volume bytes are written out here; how the others are written is a parameter, and so is
`from_slice`.
-/
namespace Celium

def maxFrameBytes : Nat := 64 * 1024

/-! ## The JSON of an envelope -/

/-- The derived writers of what carries no volume bytes. -/
structure OtherJson where
  op : VmOp → List UInt8
  reply : VmOpReply → List UInt8
  payload : Payload → List UInt8

namespace FrameSize

def text (s : String) : List UInt8 := Json.string (Text.utf8 s)

def byteArray (bytes : List UInt8) : List UInt8 := Json.array (bytes.map (fun b => Json.decimal b.toNat))

/-- `#[serde(tag = "op", rename_all = "snake_case")]`. -/
def op (w : OtherJson) : VmOp → List UInt8
  | .writeVolume volumeId offset bytes =>
    Json.object [
      Json.member "op" (text "write_volume"),
      Json.member "volume_id" (text volumeId.raw),
      Json.member "offset" (Json.decimal offset.toNat),
      Json.member "bytes" (byteArray bytes)]
  | o => w.op o

/-- `#[serde(tag = "reply", rename_all = "snake_case")]`. -/
def reply (w : OtherJson) : VmOpReply → List UInt8
  | .volumeData volumeId bytes =>
    Json.object [
      Json.member "reply" (text "volume_data"),
      Json.member "volume_id" (text volumeId.raw),
      Json.member "bytes" (byteArray bytes)]
  | r => w.reply r

/-- `VmOpResult`. -/
def result (w : OtherJson) : HostResult → List UInt8
  | .ok r => Json.object [Json.member "ok" (reply w r)]
  | .error e => Json.object [Json.member "err" (text e)]

/-- `#[serde(tag = "kind", rename_all = "snake_case")]`. -/
def payload (w : OtherJson) : Payload → List UInt8
  | .request reqId target o =>
    Json.object [
      Json.member "kind" (text "request"),
      Json.member "req_id" (Json.decimal reqId.toNat),
      Json.member "target" (text target),
      Json.member "op" (op w o)]
  | .response reqId r =>
    Json.object [
      Json.member "kind" (text "response"),
      Json.member "req_id" (Json.decimal reqId.toNat),
      Json.member "result" (result w r)]
  | p => w.payload p

end FrameSize

namespace Envelope

def encode (w : OtherJson) (env : Envelope) : List UInt8 :=
  Json.object [
    Json.member "magic" (FrameSize.text env.magic),
    Json.member "version" (Json.decimal env.version.toNat),
    Json.member "from" (FrameSize.text env.sender),
    Json.member "cluster" (FrameSize.text env.cluster),
    Json.member "hlc" (Json.decimal env.hlc.toNat),
    Json.member "payload" (FrameSize.payload w env.payload)]

end Envelope

inductive DecodeError where
  | tooLarge | malformed | badMagic | versionMismatch
deriving DecidableEq, Repr

def Envelope.decode (fromSlice : List UInt8 → Option Envelope) (bytes : List UInt8) : Except DecodeError Envelope :=
  if bytes.length > maxFrameBytes then .error .tooLarge
  else match fromSlice bytes with
    | none => .error .malformed
    | some env =>
      if env.magic ≠ Celium.magic then .error .badMagic
      else if env.version ≠ protoVersion then .error .versionMismatch
      else .ok env

namespace FrameSize

/-- The frame is within the limit, and its receiver does not drop it for its size. -/
def Fits (w : OtherJson) (fromSlice : List UInt8 → Option Envelope) (env : Envelope) : Prop :=
  (env.encode w).length ≤ maxFrameBytes ∧ Envelope.decode fromSlice (env.encode w) ≠ .error .tooLarge

theorem decode_tooLarge {fromSlice : List UInt8 → Option Envelope} {bytes : List UInt8} :
    Envelope.decode fromSlice bytes = .error .tooLarge ↔ maxFrameBytes < bytes.length := by
  unfold Envelope.decode
  constructor
  · intro h
    by_contra hle
    rw [if_neg hle] at h
    cases hs : fromSlice bytes with
    | none => simp [hs] at h
    | some env =>
      simp only [hs] at h
      split_ifs at h
      all_goals simp at h
  · intro h
    rw [if_pos h]

theorem fits_iff {w : OtherJson} {fromSlice : List UInt8 → Option Envelope} {env : Envelope} :
    Fits w fromSlice env ↔ (env.encode w).length ≤ maxFrameBytes := by
  rw [Fits, Ne, decode_tooLarge, Nat.not_lt, and_self]

/-! ## Lengths -/

/-- A text that stands in a JSON string as it is. -/
def Unescaped (s : String) : Prop := ∀ b ∈ Text.utf8 s, Json.Plain b

theorem text_length {s : String} (h : Unescaped s) : (text s).length = s.utf8ByteSize + 2 := by
  rw [text, Json.string_length_of_plain h, Text.utf8_length]

/-- The decimal digits of a byte. -/
def byteDigits (b : UInt8) : Nat := if b < 10 then 1 else if b < 100 then 2 else 3

theorem decimal_byte_length (b : UInt8) : (Json.decimal b.toNat).length = byteDigits b := by
  have hb : b.toNat < 256 := b.toNat_lt
  unfold byteDigits
  split_ifs with h1 h2
  · rw [Json.decimal_of_lt (UInt8.lt_iff_toNat_lt.1 h1)]
    rfl
  · have h1 : 10 ≤ b.toNat := UInt8.le_iff_toNat_le.1 (UInt8.not_lt.1 h1)
    have h2 : b.toNat < 100 := UInt8.lt_iff_toNat_lt.1 h2
    rw [Json.decimal_of_ge h1, Json.decimal_of_lt (by omega)]
    rfl
  · have h2 : 100 ≤ b.toNat := UInt8.le_iff_toNat_le.1 (UInt8.not_lt.1 h2)
    rw [Json.decimal_of_ge (by omega), Json.decimal_of_ge (by omega), Json.decimal_of_lt (by omega)]
    rfl

/-- What the array of a payload takes: every byte its digits and a comma or a bracket, and one bracket more. -/
def arraySize (bytes : List UInt8) : Nat := max 1 (bytes.map (fun b => byteDigits b + 1)).sum + 1

theorem byteArray_length (bytes : List UInt8) : (byteArray bytes).length = arraySize bytes := by
  rw [byteArray, Json.array_length, List.map_map, arraySize]
  simp only [Function.comp_def, decimal_byte_length]

/-- A member takes its quoted name, the colon and the value. -/
theorem keyed_length {key : String} {n : Nat} (hkey : (Json.string (Text.utf8 key)).length = n) (value : List UInt8) :
    (Json.member key value).length = n + 1 + value.length := by
  rw [Json.member_length, hkey]

theorem op_length (w : OtherJson) {volumeId : VolumeId} (h : Unescaped volumeId.raw) (offset : UInt64)
    (bytes : List UInt8) :
    (op w (.writeVolume volumeId offset bytes)).length =
      55 + volumeId.raw.utf8ByteSize + (Json.decimal offset.toNat).length + arraySize bytes := by
  have hop : (text "write_volume").length = 14 := by decide
  simp only [op, Json.object_length_cons, List.map_cons, List.map_nil, List.sum_cons, List.sum_nil,
    keyed_length (by decide : (Json.string (Text.utf8 "op")).length = 4),
    keyed_length (by decide : (Json.string (Text.utf8 "volume_id")).length = 11),
    keyed_length (by decide : (Json.string (Text.utf8 "offset")).length = 8),
    keyed_length (by decide : (Json.string (Text.utf8 "bytes")).length = 7),
    hop, text_length h, byteArray_length]
  omega

theorem reply_length (w : OtherJson) {volumeId : VolumeId} (h : Unescaped volumeId.raw) (bytes : List UInt8) :
    (reply w (.volumeData volumeId bytes)).length = 47 + volumeId.raw.utf8ByteSize + arraySize bytes := by
  have hreply : (text "volume_data").length = 13 := by decide
  simp only [reply, Json.object_length_cons, List.map_cons, List.map_nil, List.sum_cons, List.sum_nil,
    keyed_length (by decide : (Json.string (Text.utf8 "reply")).length = 7),
    keyed_length (by decide : (Json.string (Text.utf8 "volume_id")).length = 11),
    keyed_length (by decide : (Json.string (Text.utf8 "bytes")).length = 7),
    hreply, text_length h, byteArray_length]
  omega

theorem request_length (w : OtherJson) {target : String} (h : Unescaped target) (reqId : UInt64) (o : VmOp) :
    (payload w (.request reqId target o)).length =
      46 + (Json.decimal reqId.toNat).length + target.utf8ByteSize + (op w o).length := by
  have hkind : (text "request").length = 9 := by decide
  simp only [payload, Json.object_length_cons, List.map_cons, List.map_nil, List.sum_cons, List.sum_nil,
    keyed_length (by decide : (Json.string (Text.utf8 "kind")).length = 6),
    keyed_length (by decide : (Json.string (Text.utf8 "req_id")).length = 8),
    keyed_length (by decide : (Json.string (Text.utf8 "target")).length = 8),
    keyed_length (by decide : (Json.string (Text.utf8 "op")).length = 4), hkind, text_length h]
  omega

theorem response_length (w : OtherJson) (reqId : UInt64) (r : VmOpReply) :
    (payload w (.response reqId (.ok r))).length = 46 + (Json.decimal reqId.toNat).length + (reply w r).length := by
  have hkind : (text "response").length = 10 := by decide
  simp only [payload, result, Json.object_length_cons, List.map_cons, List.map_nil, List.sum_cons, List.sum_nil,
    keyed_length (by decide : (Json.string (Text.utf8 "kind")).length = 6),
    keyed_length (by decide : (Json.string (Text.utf8 "req_id")).length = 8),
    keyed_length (by decide : (Json.string (Text.utf8 "result")).length = 8),
    keyed_length (by decide : (Json.string (Text.utf8 "ok")).length = 4), hkind]
  omega

/-- What a node puts around a payload. -/
theorem envelope_length (w : OtherJson) {g : Inner} (hnode : Unescaped g.config.nodeId.raw)
    (hcluster : Unescaped g.config.cluster) (p : Payload) :
    ((g.envelope p).encode w).length =
      74 + g.config.nodeId.raw.utf8ByteSize + g.config.cluster.utf8ByteSize + (Json.decimal g.hlc.toNat).length +
        (payload w p).length := by
  have hmagic : (text Celium.magic).length = 11 := by decide
  have hversion : (Json.decimal protoVersion.toNat).length = 1 := by decide
  simp only [Inner.envelope, Envelope.encode, Json.object_length_cons, List.map_cons, List.map_nil, List.sum_cons,
    List.sum_nil,
    keyed_length (by decide : (Json.string (Text.utf8 "magic")).length = 7),
    keyed_length (by decide : (Json.string (Text.utf8 "version")).length = 9),
    keyed_length (by decide : (Json.string (Text.utf8 "from")).length = 6),
    keyed_length (by decide : (Json.string (Text.utf8 "cluster")).length = 9),
    keyed_length (by decide : (Json.string (Text.utf8 "hlc")).length = 5),
    keyed_length (by decide : (Json.string (Text.utf8 "payload")).length = 9),
    hmagic, hversion, text_length hnode, text_length hcluster]
  omega

/-! ## The two frames that carry volume bytes -/

/-- The bytes around the payload of a write, on top of the array of its bytes. -/
def writeOverhead (g : Inner) (reqId : UInt64) (target : String) (volumeId : VolumeId) (offset : UInt64) : Nat :=
  175 + g.config.nodeId.raw.utf8ByteSize + g.config.cluster.utf8ByteSize + target.utf8ByteSize +
    volumeId.raw.utf8ByteSize + (Json.decimal g.nextHlc.toNat).length + (Json.decimal reqId.toNat).length +
    (Json.decimal offset.toNat).length

def dataOverhead (g : Inner) (reqId : UInt64) (volumeId : VolumeId) : Nat :=
  167 + g.config.nodeId.raw.utf8ByteSize + g.config.cluster.utf8ByteSize + volumeId.raw.utf8ByteSize +
    (Json.decimal g.nextHlc.toNat).length + (Json.decimal reqId.toNat).length

theorem write_length (w : OtherJson) {g : Inner} {target : String} {volumeId : VolumeId}
    (hnode : Unescaped g.config.nodeId.raw) (hcluster : Unescaped g.config.cluster) (htarget : Unescaped target)
    (hvolume : Unescaped volumeId.raw) (reqId offset : UInt64) (bytes : List UInt8) :
    ((g.sendRequest reqId target (.writeVolume volumeId offset bytes)).1.encode w).length =
      writeOverhead g reqId target volumeId offset + arraySize bytes := by
  have h := envelope_length w (g := g.tickHlc) hnode hcluster (.request reqId target (.writeVolume volumeId offset bytes))
  rw [request_length w htarget, op_length w hvolume] at h
  have hhlc : g.tickHlc.hlc = g.nextHlc := rfl
  have hconfig : g.tickHlc.config = g.config := rfl
  rw [hhlc, hconfig] at h
  rw [Inner.sendRequest, h, writeOverhead]
  omega

theorem data_length (w : OtherJson) {g : Inner} {volumeId : VolumeId} (hnode : Unescaped g.config.nodeId.raw)
    (hcluster : Unescaped g.config.cluster) (hvolume : Unescaped volumeId.raw) (reqId : UInt64) (bytes : List UInt8) :
    ((g.sendResponse reqId (.ok (.volumeData volumeId bytes))).1.encode w).length =
      dataOverhead g reqId volumeId + arraySize bytes := by
  have h := envelope_length w (g := g.tickHlc) hnode hcluster (.response reqId (.ok (.volumeData volumeId bytes)))
  rw [response_length, reply_length w hvolume] at h
  have hhlc : g.tickHlc.hlc = g.nextHlc := rfl
  have hconfig : g.tickHlc.config = g.config := rfl
  rw [hhlc, hconfig] at h
  rw [Inner.sendResponse, h, dataOverhead]
  omega

/-- **The two frames of a volume IO fit exactly when the ids, the counters and the decimal digits of the bytes add up
to no more than a frame.** -/
theorem volumeIo_fits (w : OtherJson) (fromSlice : List UInt8 → Option Envelope) {caller owner : Inner}
    {volumeId : VolumeId} (hcaller : Unescaped caller.config.nodeId.raw) (hcluster : Unescaped caller.config.cluster)
    (howner : Unescaped owner.config.nodeId.raw) (hsame : owner.config.cluster = caller.config.cluster)
    (hvolume : Unescaped volumeId.raw) (reqId offset : UInt64) (bytes : List UInt8) :
    (Fits w fromSlice (caller.sendRequest reqId owner.config.nodeId.raw (.writeVolume volumeId offset bytes)).1 ↔
      writeOverhead caller reqId owner.config.nodeId.raw volumeId offset + arraySize bytes ≤ maxFrameBytes) ∧
    (Fits w fromSlice (owner.sendResponse reqId (.ok (.volumeData volumeId bytes))).1 ↔
      dataOverhead owner reqId volumeId + arraySize bytes ≤ maxFrameBytes) := by
  constructor
  · rw [fits_iff, write_length w hcaller hcluster howner hvolume]
  · rw [fits_iff, data_length w howner (hsame ▸ hcluster) hvolume]

def noOther : OtherJson := ⟨fun _ => [], fun _ => [], fun _ => []⟩
def nodeA : Inner := .start (defaultsFor "a") 0
def nodeB : Inner := .start (defaultsFor "b") 0

theorem unescaped_of_all {s : String} (h : (Text.utf8 s).all (fun b => decide (Json.Plain b)) = true) : Unescaped s :=
  fun b hb => of_decide_eq_true (List.all_eq_true.1 h b hb)

/-- Three bytes of a volume of `b`, written by `a` and read back. -/
def threeWritten : Envelope := (nodeA.sendRequest 1 nodeB.config.nodeId.raw (.writeVolume ⟨"b/v1"⟩ 0 [7, 42, 255])).1
def threeRead : Envelope := (nodeB.sendResponse 1 (.ok (.volumeData ⟨"b/v1"⟩ [7, 42, 255]))).1

/-- A reader that knows the frames of these two. -/
def readThree (bytes : List UInt8) : Option Envelope :=
  [threeWritten, threeRead].find? fun env => env.encode noOther = bytes

set_option maxRecDepth 10000 in
theorem readThree_encode :
    readThree (threeWritten.encode noOther) = some threeWritten ∧ readThree (threeRead.encode noOther) = some threeRead := by
  have hne : threeWritten.encode noOther ≠ threeRead.encode noOther := by decide
  refine ⟨List.find?_cons_of_pos (decide_eq_true rfl), ?_⟩
  rw [readThree, List.find?_cons_of_neg (by simpa using hne)]
  exact List.find?_cons_of_pos (decide_eq_true rfl)

theorem volumeIo_fits_three :
    (readThree (threeWritten.encode noOther) = some threeWritten ∧ readThree (threeRead.encode noOther) = some threeRead) ∧
    (Fits noOther readThree threeWritten ↔
      writeOverhead nodeA 1 nodeB.config.nodeId.raw ⟨"b/v1"⟩ 0 + arraySize [7, 42, 255] ≤ maxFrameBytes) ∧
    (Fits noOther readThree threeRead ↔ dataOverhead nodeB 1 ⟨"b/v1"⟩ + arraySize [7, 42, 255] ≤ maxFrameBytes) :=
  ⟨readThree_encode, @volumeIo_fits noOther readThree nodeA nodeB ⟨"b/v1"⟩ (unescaped_of_all (s := "a") (by decide))
    (unescaped_of_all (s := "celium") (by decide)) (unescaped_of_all (s := "b") (by decide)) rfl
    (unescaped_of_all (s := "b/v1") (by decide)) 1 0 [7, 42, 255]⟩

theorem arraySize_replicate (n : Nat) : arraySize (List.replicate (n + 1) 255) = 4 * (n + 1) + 1 := by
  have hbyte : byteDigits 255 = 3 := by decide
  rw [arraySize, List.map_replicate, hbyte, List.sum_replicate_nat]
  omega

/-- **A chunk of the size the cap allows, all bytes 255, makes frames of twice the limit, which their receivers drop.** -/
theorem full_chunk_too_large :
    let chunk := List.replicate maxVolumeIoBytes 255
    chunk.length ≤ maxVolumeIoBytes ∧
    Envelope.decode (fun _ => none)
        ((nodeA.sendRequest 1 nodeB.config.nodeId.raw (.writeVolume ⟨"b/v1"⟩ 0 chunk)).1.encode noOther) =
      .error .tooLarge ∧
    Envelope.decode (fun _ => none) ((nodeB.sendResponse 1 (.ok (.volumeData ⟨"b/v1"⟩ chunk))).1.encode noOther) =
      .error .tooLarge := by
  have ha : Unescaped nodeA.config.nodeId.raw := unescaped_of_all (s := "a") (by decide)
  have hb : Unescaped nodeB.config.nodeId.raw := unescaped_of_all (s := "b") (by decide)
  have hcluster : Unescaped nodeA.config.cluster := unescaped_of_all (s := "celium") (by decide)
  have hvolume : Unescaped (VolumeId.mk "b/v1").raw := unescaped_of_all (s := "b/v1") (by decide)
  have hsize : arraySize (List.replicate maxVolumeIoBytes 255) = 131073 := arraySize_replicate 32767
  intro chunk
  refine ⟨Nat.le_of_eq List.length_replicate, decode_tooLarge.2 ?_, decode_tooLarge.2 ?_⟩
  · rw [write_length noOther ha hcluster hb hvolume, hsize, maxFrameBytes]
    omega
  · rw [data_length noOther hb hcluster hvolume, hsize, maxFrameBytes]
    omega

/-! ## What fits whatever the bytes are -/

theorem arraySize_le (bytes : List UInt8) : arraySize bytes ≤ 4 * bytes.length + 2 := by
  have hsum : (bytes.map (fun b => byteDigits b + 1)).sum ≤ 4 * bytes.length := by
    induction bytes with
    | nil => exact Nat.le_refl 0
    | cons b bs ih =>
      have hb : byteDigits b ≤ 3 := by
        unfold byteDigits
        split_ifs <;> decide
      rw [List.map_cons, List.sum_cons, List.length_cons]
      omega
  rw [arraySize]
  omega

theorem decimal_length_le_20 (n : UInt64) : (Json.decimal n.toNat).length ≤ 20 :=
  Json.decimal_length_le (by decide) (Nat.lt_trans n.toNat_lt (by decide))

/-- Half the cap fits a frame, with ids of up to 64 bytes and whatever the bytes and the counters are. -/
theorem half_cap_fits (w : OtherJson) (fromSlice : List UInt8 → Option Envelope) {caller : Inner} {target : String}
    {volumeId : VolumeId} (hcaller : Unescaped caller.config.nodeId.raw) (hcluster : Unescaped caller.config.cluster)
    (htarget : Unescaped target) (hvolume : Unescaped volumeId.raw)
    (hids : caller.config.nodeId.raw.utf8ByteSize ≤ 64 ∧ caller.config.cluster.utf8ByteSize ≤ 64 ∧
      target.utf8ByteSize ≤ 64 ∧ volumeId.raw.utf8ByteSize ≤ 64)
    (reqId offset : UInt64) {bytes : List UInt8} (hlen : 2 * bytes.length ≤ maxVolumeIoBytes - 256) :
    Fits w fromSlice (caller.sendRequest reqId target (.writeVolume volumeId offset bytes)).1 := by
  have harray := arraySize_le bytes
  have hhlc := decimal_length_le_20 caller.nextHlc
  have hreq := decimal_length_le_20 reqId
  have hoff := decimal_length_le_20 offset
  rw [fits_iff, write_length w hcaller hcluster htarget hvolume, writeOverhead]
  simp only [maxVolumeIoBytes, maxFrameBytes] at hlen ⊢
  omega

end FrameSize
end Celium
