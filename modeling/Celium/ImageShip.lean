import Celium.KernelRows
import Celium.Loopback
import Celium.SerialLink
import Celium.Staging
/-!
# ImageShip — a boot image on its way to a VM

`stage_image` writes the image in hex into an `image_load`, the kernel reads the line, checks length and CRC, keeps the
bytes and says so, and a `Create` that names the CRC boots them.  The chain goes through two JSON codecs, the two hex
codecs and the two CRC routines, for every image of one byte up to a page and from every state the kernel can be in.
-/
namespace Celium

open Runs

/-! ## The line of a request -/

set_option maxRecDepth 10000 in
theorem escape_ge (b : UInt8) : ∀ c ∈ Json.escape b, 32 ≤ c := by
  have hall : ∀ b : UInt8, (Json.escape b).all (fun c => decide (32 ≤ c)) = true := Hex.forall_byte (by decide)
  exact fun c hc => of_decide_eq_true (List.all_eq_true.1 (hall b) c hc)

theorem string_ge (bs : List UInt8) : ∀ b ∈ Json.string bs, 32 ≤ b := by
  intro b hb
  simp only [Json.string, List.mem_cons, List.mem_append, List.not_mem_nil, or_false, List.mem_flatMap] at hb
  rcases hb with rfl | ⟨c, -, hc⟩ | rfl
  · decide
  · exact escape_ge c b hc
  · decide

theorem memberJson_ge (m : Wire.Key × Wire.Value) : ∀ b ∈ Wire.memberJson m, 32 ≤ b := by
  intro b hb
  simp only [Wire.memberJson, Json.member, List.mem_append, List.mem_cons] at hb
  rcases hb with hb | rfl | hb
  · exact string_ge _ b hb
  · decide
  · cases hv : m.2 with
    | text bs =>
      rw [hv] at hb
      exact string_ge bs b hb
    | num n =>
      rw [hv] at hb
      exact Wire.decimal_ge n b hb

theorem object_ge (ms : List (Wire.Key × Wire.Value)) : ∀ b ∈ Json.object (ms.map Wire.memberJson), 32 ≤ b := by
  intro b hb
  rw [Json.object, List.mem_cons, List.mem_append, List.mem_singleton] at hb
  rcases hb with rfl | hb | rfl
  · decide
  · cases ms with
    | nil => cases hb
    | cons m ms =>
      simp only [List.map_cons, Json.members, List.mem_append, List.mem_flatMap, List.mem_map, List.mem_cons] at hb
      rcases hb with hb | ⟨_, ⟨m', -, rfl⟩, rfl | hb⟩
      · exact memberJson_ge m b hb
      · decide
      · exact memberJson_ge m' b hb
  · decide

/-- A request is written without a control byte, so that it is one line. -/
theorem HyperRequest.toJson_ge (r : HyperRequest) : ∀ b ∈ r.toJson, 32 ≤ b := by
  rw [r.toJson_eq]
  exact object_ge r.members

def HyperRequest.line (r : HyperRequest) : Kernel.Line := ⟨r.toJson, fun h => absurd (r.toJson_ge _ h) (by decide)⟩

theorem HyperRequest.readLine_line {r : HyperRequest} (h : r.toJson.length ≤ Wire.maxFrameBytes) :
    Kernel.readLine r.line = .ok r.toJson := by
  have hframe : r.line.val.filter (· ≠ '\r'.toUInt8) = r.toJson := by
    refine List.filter_eq_self.2 (fun b hb => decide_eq_true ?_)
    rintro rfl
    exact absurd (r.toJson_ge _ hb) (by decide)
  simp only [Kernel.readLine, hframe, if_neg (Nat.not_lt.2 h)]

/-! ## The `image_load` of an image -/

theorem encode_digits (bs : List UInt8) : ∀ b ∈ Hex.encode bs, 48 ≤ b ∧ b < 128 ∧ b ≠ '\\'.toUInt8 := by
  intro b hb
  obtain ⟨c, -, hc⟩ := List.mem_flatMap.1 hb
  obtain ⟨hhi, hlo, -⟩ := Hex.halves c
  simp only [List.mem_cons, List.not_mem_nil, or_false] at hc
  rcases hc with rfl | rfl
  · exact Hex.digit_ascii _ hhi
  · exact Hex.digit_ascii _ hlo

theorem encode_plain (bs : List UInt8) : ∀ b ∈ Hex.encode bs, Json.Plain b := by
  intro b hb
  obtain ⟨hge, -, hslash⟩ := encode_digits bs b hb
  refine ⟨?_, hslash, UInt8.le_trans (by decide) hge⟩
  rintro rfl
  exact absurd hge (by decide)

set_option maxRecDepth 10000 in
/-- The digits the host writes are those of the hex library, a byte each. -/
theorem utf8_hexEncode (bs : List UInt8) : Text.utf8 (hexEncode bs) = Hex.encode bs := by
  have hchar : ∀ b : UInt8, b < 128 → (Char.ofNat b.toNat).toNat < 128 ∧ (Char.ofNat b.toNat).toUInt8 = b :=
    Hex.forall_byte (by decide)
  rw [hexEncode, Text.utf8_ascii, List.map_map]
  · refine (List.map_congr_left fun b hb => ?_).trans (List.map_id _)
    exact (hchar b (encode_digits bs b hb).2.1).2
  · intro c hc
    obtain ⟨b, hb, rfl⟩ := List.mem_map.1 hc
    exact (hchar b (encode_digits bs b hb).2.1).1

namespace HyperRequest

/-- The request that `stage_image` sends. -/
def upload (bs : List UInt8) : HyperRequest := .imageLoad (UInt32.ofNat bs.length) (crc32cBytes bs) (hexEncode bs)

theorem upload_plain (bs : List UInt8) : ∀ m ∈ (upload bs).members, m.2.Plain := by
  simp only [upload, members, List.forall_mem_cons]
  refine ⟨op_plain _, trivial, trivial, ?_, fun m hm => by cases hm⟩
  rw [utf8_hexEncode]
  exact encode_plain bs

/-- **The kernel reads the upload as it was.** -/
theorem decodeRequest_upload {bs : List UInt8} (hle : bs.length ≤ maxImageBytes) :
    Wire.decodeRequest (upload bs).toJson =
      .ok (.imageLoad (UInt32.ofNat bs.length) (crc32c bs) (Text.utf8 (hexEncode bs))) := by
  have hlen : (UInt32.ofNat bs.length).toNat = bs.length :=
    UInt32.toNat_ofNat_of_lt' (Nat.lt_of_le_of_lt hle (by decide))
  have hop : Wire.Op.ofBytes (Text.utf8 "image_load") = some .imageLoad := by decide
  have hhex : (Text.utf8 (hexEncode bs)).length = 2 * bs.length := by rw [utf8_hexEncode, Hex.encode_length]
  rw [toJson_eq, Wire.decodeRequest_object (members_takes _), if_pos (upload_plain bs)]
  have hput : (upload bs).members.foldl Wire.Fields.put {} =
      { op := some (Text.utf8 "image_load"), len := some (UInt32.ofNat bs.length), crc32c := some (crc32c bs),
        bytesHex := some (Text.utf8 (hexEncode bs)) } := by
    simp only [upload, members, op, List.foldl_cons, List.foldl_nil, Wire.Fields.put, UInt32.ofNat_toNat]
    rfl
  rw [hput]
  simp only [Wire.Fields.request, hop, Wire.Fields.imageLoad, Wire.Fields.orMissing]
  change (if (Text.utf8 (hexEncode bs)).length ≠ 2 * (UInt32.ofNat bs.length).toNat then _ else _) = _
  rw [hlen, if_neg (not_not.2 hhex)]

/-- It fits a frame, newline included. -/
theorem upload_length {bs : List UInt8} (hle : bs.length ≤ maxImageBytes) :
    ((upload bs).toJson ++ ['\n'.toUInt8]).length ≤ Wire.maxFrameBytes := by
  have hhex : (Json.string (Text.utf8 (hexEncode bs))).length = 2 * bs.length + 2 := by
    rw [utf8_hexEncode, Json.string_length_of_plain (encode_plain bs), Hex.encode_length]
  have hkey : (Json.string (Text.utf8 "bytes_hex")).length ≤ 100 := by decide
  have hop := textField_length "op" (by decide) (v := some "image_load") (n := 10) (by decide)
  have hlen := num32Field_length "len" (by decide) (some (UInt32.ofNat bs.length))
  have hcrc := num32Field_length "crc32c" (by decide) (some (crc32cBytes bs))
  simp only [textField, numField, Option.map_some, Option.toList_some, List.map_cons, List.map_nil, List.flatMap_cons,
    List.flatMap_nil, List.append_nil, List.length_cons] at hop hlen hcrc
  simp only [toJson, op, upload, fields, Json.object, textField, numField, Option.toList_some, List.map_cons, List.map_nil,
    List.cons_append, List.nil_append, Json.members, List.flatMap_cons, List.flatMap_nil,
    List.length_append, List.length_cons, List.length_nil, Wire.maxFrameBytes, Json.member, maxImageBytes, hhex] at *
  omega

end HyperRequest

/-! ## Over the line and back -/

/-- `serde_json::from_str`, with its error. -/
def HyperReply.fromStrResult (s : String) : Except String HyperReply :=
  match HyperReply.fromStr s with
  | some reply => .ok reply
  | none => .error "invalid reply"

namespace Kernel

/-- A call over the port to the kernel in state `k`: the host writes its line and decodes the line that comes back. -/
def call (k : Kernel) (hw : Hardware) (req : HyperRequest) : CelResult HyperReply :=
  match ((k.turn (hw, req.line)).1).bind transmit with
  | none => .error (.timeout "hyper-serial: no reply in 1s")
  | some bytes => SerialInner.decode HyperReply.fromStrResult bytes

variable (k : Kernel)

/-- **The kernel takes an upload**: it keeps the bytes and answers with their length and CRC. -/
theorem turn_upload (hw : Hardware) {bs : List UInt8} (hne : bs ≠ []) (hle : bs.length ≤ maxImageBytes) :
    k.turn (hw, (HyperRequest.upload bs).line) =
      (some (.imageLoaded (UInt32.ofNat bs.length) (crc32c bs)),
        { k with staged := (k.staged.stageFromHex (Text.utf8 (hexEncode bs)) (UInt32.ofNat bs.length) (crc32c bs)).2 }) := by
  have hlen : (UInt32.ofNat bs.length).toNat = bs.length :=
    UInt32.toNat_ofNat_of_lt' (Nat.lt_of_le_of_lt hle (by decide))
  have hdecode : Hex.decode (Text.utf8 (hexEncode bs)) = some bs := by rw [utf8_hexEncode, Hex.decode_encode]
  have hstage := (k.staged.stageFromHex_ok hdecode hne hle hlen).1
  have hfits := HyperRequest.upload_length hle
  rw [List.length_append] at hfits
  have hblank : (HyperRequest.upload bs).toJson.all (fun b => b == ' '.toUInt8 || b == '\t'.toUInt8) = false := by
    rw [HyperRequest.toJson, Json.object, List.all_cons]
    rfl
  simp only [turn, HyperRequest.readLine_line (Nat.le_of_add_right_le hfits), answer, hblank,
    HyperRequest.decodeRequest_upload hle, dispatch]
  rcases hs : k.staged.stageFromHex (Text.utf8 (hexEncode bs)) (UInt32.ofNat bs.length) (crc32c bs) with ⟨_ | _, staged⟩
  · rw [hs] at hstage
    cases hstage
  · rfl

/-- The reply fits the kernel's buffer, and the host reads it. -/
theorem call_upload (hw : Hardware) {bs : List UInt8} (hne : bs ≠ []) (hle : bs.length ≤ maxImageBytes) :
    k.call hw (.upload bs) = .ok (.imageLoaded (UInt32.ofNat bs.length) (crc32c bs)) := by
  obtain ⟨cs, hbytes, hread⟩ := HyperReply.fromStr_imageLoaded (UInt32.ofNat bs.length) (crc32c bs)
  have hlen : (Wire.Reply.imageLoaded (UInt32.ofNat bs.length) (crc32c bs)).puts.flatten.length ≤ 100 := by
    have hd : ∀ n : UInt32, (Json.decimal n.toNat).length ≤ 10 :=
      fun n => Json.decimal_length_le (by decide) (n.toNat_lt.trans (by decide))
    have h1 : (Text.utf8 "\x7b\"reply\":\"image_loaded\",\"len\":").length = 30 := by decide
    have h2 : (Text.utf8 ",\"crc32c\":").length = 10 := by decide
    have h3 : (Text.utf8 "\x7d").length = 1 := by decide
    have := hd (UInt32.ofNat bs.length)
    have := hd (crc32c bs)
    simp only [Wire.Reply.puts, List.flatten_cons, List.flatten_nil, List.append_nil, List.length_append, h1, h2, h3]
    omega
  have hsent : transmit (.imageLoaded (UInt32.ofNat bs.length) (crc32c bs)) =
      some (Text.utf8 (String.ofList (cs ++ ['}']) ++ "\n")) := by
    rw [transmit_eq, if_pos (by simp only [txCap]; omega), hbytes, Text.utf8_append]
    rfl
  rw [hbytes] at hlen
  have hmax : ¬ SerialHyperLink.maxFrameBytes < (Text.utf8 (String.ofList (cs ++ ['}']) ++ "\n")).length := by
    have hlf : (Text.utf8 "\n").length = 1 := by decide
    rw [Text.utf8_append, List.length_append, hlf]
    simp only [SerialHyperLink.maxFrameBytes]
    omega
  rw [call, turn_upload k hw hne hle, Option.bind_some, hsent]
  simp only [SerialInner.decode, Text.ofUtf8_utf8, if_neg hmax, Text.trimEnd_newline (c := '}') (by decide),
    HyperReply.fromStrResult, hread]

theorem stageImage_call (hw : Hardware) (debug : HyperReply → String) {bs : List UInt8} (hne : bs ≠ [])
    (hle : bs.length ≤ maxImageBytes) : stageImage debug (k.call hw) bs = .ok (crc32c bs) := by
  have hcall : k.call hw (.imageLoad (UInt32.ofNat bs.length) (crc32cBytes bs) (hexEncode bs)) =
      .ok (.imageLoaded (UInt32.ofNat bs.length) (crc32cBytes bs)) := k.call_upload hw hne hle
  rw [stageImage, if_neg hne, if_neg (show ¬ bs.length > maxStagedImageBytes from Nat.not_lt.2 hle)]
  simp only [hcall, ne_eq, not_true_eq_false, or_self, if_false]
  rfl

/-! ## The VM that boots it -/

/-- The runtime is up, and a VM sits in a slot that is taken. -/
structure Ready (k : Kernel) : Prop where
  runtime : k.manager.runtimeReady = true
  occupied : ∀ i, (k.manager.registry i).isSome = true → k.manager.occupied i = true

variable {k}

theorem ready_dispatch (h : k.Ready) (hw : Hardware) (req : Wire.Request) : (k.dispatch hw req).2.Ready := by
  cases req with
  | create label imagePath cpuCount memoryMib crc =>
    simp only [dispatch]
    rcases k.create_cases hw label imagePath cpuCount memoryMib crc with
      ⟨e, occupied, hc, -, hocc⟩ | ⟨i, l, p, -, -, -, hc, -⟩
    · rw [hc]
      exact ⟨h.runtime, fun i hi => hocc i (h.occupied i hi)⟩
    · rw [hc]
      refine ⟨h.runtime, fun j hj => ?_⟩
      simp only [withVm, Manager.allocate, Function.update_apply] at hj ⊢
      split
      · rfl
      · rename_i hji
        rw [if_neg hji] at hj
        exact h.occupied j hj
  | start vmId =>
    obtain ⟨hrun, hocc, -, hreg⟩ := k.manager.startVm_slots hw vmId
    simp only [dispatch, stateReply_snd]
    exact ⟨hrun.trans h.runtime, fun i hi => hocc ▸ h.occupied i (hreg i ▸ hi)⟩
  | stop vmId =>
    obtain ⟨hrun, hocc, -, hreg⟩ := k.manager.stopVm_slots vmId
    simp only [dispatch, stateReply_snd]
    exact ⟨hrun.trans h.runtime, fun i hi => hocc ▸ h.occupied i (hreg i ▸ hi)⟩
  | delete vmId =>
    simp only [dispatch]
    rcases k.manager.deleteVm_cases vmId with ⟨e, hd⟩ | ⟨i, vm, -, -, -, hd⟩
    · rw [hd]
      exact h
    · rw [hd]
      exact ⟨h.runtime, h.occupied⟩
  | list => exact h
  | imageLoad len crc32c bytesHex =>
    simp only [dispatch]
    split
    · exact ⟨h.runtime, h.occupied⟩
    · exact ⟨h.runtime, h.occupied⟩

theorem ready_turn (h : k.Ready) (input : Hardware × Line) : (k.turn input).2.Ready := by
  unfold turn
  split
  · exact h
  · unfold answer
    split
    · exact h
    · split
      · exact h
      · rename_i req _
        have hready := ready_dispatch h input.1 req
        rcases hd : k.dispatch input.1 req with ⟨_ | _, k'⟩
        · rw [hd] at hready
          exact hready
        · rw [hd] at hready
          exact hready

theorem ready_init : Ready init := ⟨rfl, fun _ h => by cases h⟩

/-- **A `Create` that names the CRC of the staged image boots it**, if there is a slot and the hardware does its part. -/
theorem create_staged_image (h : k.Ready) {bs : List UInt8} (hne : bs ≠ []) (hle : bs.length ≤ maxImageBytes)
    (hpresent : k.staged.present = true) (hlen : k.staged.len = bs.length) (hbytes : k.staged.bytes.take bs.length = bs)
    {crc : UInt32} (hcrc : k.staged.crc32c = crc) {hw : Hardware} (hhw : hw.create = none) {label : List UInt8}
    (hlabel : label.length ≤ Wire.labelMax) {imagePath : Option (List UInt8)}
    (hpath : ∀ p ∈ imagePath, p.length ≤ Wire.imagePathMax) (cpu : Option UInt32) (mem : Option UInt64)
    {i : Fin maxVms} (hfree : k.manager.freeSlot = some i) :
    ∃ k' vm, k.create hw label imagePath cpu mem (some crc) = (.ok (.created (UInt32.ofNat i)), k') ∧
      k'.manager.registry i = some vm ∧ vm.guest.blob = bs := by
  have himage := BootImage.fromStagedOrEmbedded_staged hpresent hlen hcrc hbytes hne hle
  have hnone : k.manager.registry i = none := by
    have htaken : k.manager.occupied i = false := by simpa using List.find?_some hfree
    cases hreg : k.manager.registry i with
    | none => rfl
    | some vm =>
      have := h.occupied i (by rw [hreg]; rfl)
      rw [htaken] at this
      cases this
  have hok : k.manager.createVm hw (k.bootRequest (some crc)) = _ :=
    k.manager.createVm_fine h.runtime hhw (BootImage.fromStagedOrEmbedded_length k.staged (some crc)) hfree
  rcases k.create_cases hw label imagePath cpu mem (some crc) with
    ⟨e, _, -, hlong | ⟨p, hp, hlong⟩ | hbad, -⟩ | ⟨j, l, p, hj, -, -, hc, -⟩
  · exact absurd hlong (Nat.not_lt.2 hlabel)
  · exact absurd hlong (Nat.not_lt.2 (hpath p hp))
  · rw [hok] at hbad
    cases hbad
  · obtain rfl := Option.some.inj (hfree.symm.trans hj)
    refine ⟨_, Vm.new (k.bootRequest (some crc)), hc, ?_, ?_⟩
    · simp [withVm, Manager.allocate, hnone]
    · simp [Vm.new, bootRequest, CreateVmRequest.fromBootImage, himage]

end Kernel

/-- **An image of one byte up to a page gets to the VM as it was**, from every state the kernel can be in: its upload fits
a frame and is read as it was, the kernel keeps the bytes and their CRC, `stage_image` returns that CRC, and the `Create`
that follows with it boots the bytes.  **And hex has one spelling**: what the kernel decodes is what the host encodes. -/
theorem image_ships :
    (∀ (inputs : List (Hardware × Kernel.Line)), ∀ k ∈ states Kernel.turn Kernel.init inputs,
      ∀ (bs : List UInt8), 1 ≤ bs.length → bs.length ≤ 4096 → ∀ (hw : Hardware) (debug : HyperReply → String),
        ((HyperRequest.upload bs).toJson ++ ['\n'.toUInt8]).length ≤ Wire.maxFrameBytes ∧
        Wire.decodeRequest (HyperRequest.upload bs).toJson =
          .ok (.imageLoad (UInt32.ofNat bs.length) (crc32c bs) (Text.utf8 (hexEncode bs))) ∧
        (k.staged.stageFromHex (Text.utf8 (hexEncode bs)) (UInt32.ofNat bs.length) (crc32c bs)).1 = .ok () ∧
        stageImage debug (k.call hw) bs = .ok (crc32c bs) ∧
        let k' := (k.turn (hw, (HyperRequest.upload bs).line)).2
        k'.staged = (k.staged.stageFromHex (Text.utf8 (hexEncode bs)) (UInt32.ofNat bs.length) (crc32c bs)).2 ∧
        k'.staged.present = true ∧ k'.staged.bytes.take k'.staged.len = bs ∧ k'.staged.crc32c = crc32c bs ∧
        ∀ (hw' : Hardware) (label : List UInt8) (imagePath : Option (List UInt8)) (cpu : Option UInt32)
          (mem : Option UInt64) (i : Fin maxVms), hw'.create = none → label.length ≤ Wire.labelMax →
          (∀ p ∈ imagePath, p.length ≤ Wire.imagePathMax) → k'.manager.freeSlot = some i →
            ∃ k'' vm, k'.create hw' label imagePath cpu mem (some (crc32c bs)) =
                (.ok (.created (UInt32.ofNat i)), k'') ∧
              k''.manager.registry i = some vm ∧ vm.guest.blob = bs) ∧
    ∀ (src dst : List UInt8) (n : Nat), (Wire.hexDecode src dst).1 = .ok n →
      Text.utf8 (hexEncode ((Wire.hexDecode src dst).2.take n)) = src := by
  refine ⟨fun inputs k hk bs hpos hle hw debug => ?_, fun src dst n hok => ?_⟩
  · have hne : bs ≠ [] := List.ne_nil_of_length_pos hpos
    have hlen : (UInt32.ofNat bs.length).toNat = bs.length :=
      UInt32.toNat_ofNat_of_lt' (Nat.lt_of_le_of_lt hle (by decide))
    have hdecode : Hex.decode (Text.utf8 (hexEncode bs)) = some bs := by rw [utf8_hexEncode, Hex.decode_encode]
    have hready : k.Ready :=
      inv_states (I := Kernel.Ready) (fun _ input h => Kernel.ready_turn h input) Kernel.ready_init inputs k hk
    obtain ⟨hok, hpresent, hslen, hcrc, hbytes⟩ := k.staged.stageFromHex_ok hdecode hne hle hlen
    have hnext := congrArg Prod.snd (k.turn_upload hw hne hle)
    refine ⟨HyperRequest.upload_length hle, HyperRequest.decodeRequest_upload hle, hok,
      k.stageImage_call hw debug hne hle, ?_⟩
    rw [hnext]
    refine ⟨rfl, hpresent, ?_, hcrc, fun hw' label imagePath cpu mem i hhw hlabel hpath hfree => ?_⟩
    · rw [hslen]
      exact hbytes
    · have hready' : Kernel.Ready { k with staged := (k.staged.stageFromHex (Text.utf8 (hexEncode bs))
          (UInt32.ofNat bs.length) (crc32c bs)).2 } := ⟨hready.runtime, hready.occupied⟩
      exact Kernel.create_staged_image hready' hne hle hpresent hslen hbytes hcrc hhw hlabel hpath cpu mem hfree
  · obtain ⟨bs, hbs, rfl, hroom⟩ := Wire.hexDecode_ok.1 hok
    rw [utf8_hexEncode, Wire.hexDecode_bytes hbs hroom, List.take_left' rfl, Hex.encode_of_decode hbs]

/-- The shortest image, `hlt`, and the digits `f4`. -/
theorem image_ships_hlt :
    stageImage (fun _ => "") (Kernel.init.call .fine) [0xF4] = .ok (crc32c [0xF4]) ∧
      (Wire.hexDecode (Text.utf8 "f4") [0]).1 = .ok 1 ∧
      Text.utf8 (hexEncode ((Wire.hexDecode (Text.utf8 "f4") [0]).2.take 1)) = Text.utf8 "f4" := by
  have hok : (Wire.hexDecode (Text.utf8 "f4") [0]).1 = .ok 1 := by
    rw [Wire.hexDecode_ok]
    exact ⟨[0xF4], by decide, rfl, Nat.le_refl 1⟩
  exact ⟨(image_ships.1 [] Kernel.init List.mem_cons_self [0xF4] (by decide) (by decide) .fine (fun _ => "")).2.2.2.1,
    hok, image_ships.2 _ _ _ hok⟩

end Celium
