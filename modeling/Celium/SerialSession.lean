import Celium.Lib.JsonWrite
import Celium.ImageShip
import Celium.LoopbackKernel
import Celium.SerialIo
/-!
# SerialSession — calls from the host to the kernel and back, over the wire

The host's link (`celmesh::hyper_serial`) at one end of the line and the bridge (`celhyper::bridge`) at the other.  A
call goes through both JSON codecs and both readers; where each reply comes in time, every call returns what the kernel
made of that very request, in whatever order requests of all kinds follow one another (`calls_dispatch`).

The kernel's error texts are sent cut to 96 bytes and without control characters; those of the bridge are short and
plain, and those of the hardware are taken to be so as well.
-/
namespace Celium

open Runs LineStream

/-! ## What goes through unharmed -/

/-- The text of the error gets into a reply as it is. -/
def HyperError.Told (e : HyperError) : Prop :=
  (Text.utf8 e.message).length ≤ Wire.errorMsgMax ∧ ∀ c ∈ e.message.toList, 32 ≤ c.toNat

instance (e : HyperError) : Decidable e.Told :=
  @instDecidableAnd _ _ inferInstance (List.decidableBAll (fun c => 32 ≤ c.toNat) e.message.toList)

def Hardware.Told (hw : Hardware) : Prop := (∀ e ∈ hw.create, e.Told) ∧ ∀ e ∈ hw.setActive, e.Told

/-- The kernel reads the request as it was: its strings need no escape and are within the limits. -/
def HyperRequest.Deliverable : HyperRequest → Prop
  | .imageLoad len _ bytesHex =>
    len.toNat ≤ maxImageBytes ∧ (Text.utf8 bytesHex).length = 2 * len.toNat ∧ ∀ b ∈ Text.utf8 bytesHex, Json.Plain b
  | r => r.Sendable ∧ r.Plain

/-- What the host gets is what the kernel answered: the same reply, or the text of the error. -/
def Tells : CelResult HyperReply → HyperResult Wire.Reply → Prop
  | .ok (.error msg), .error e => msg = e.message
  | .ok reply, .ok reply' => reply.Same reply'
  | _, _ => False

/-! ## The request -/

namespace HyperRequest

theorem imageLoad_length {len crc32c : UInt32} {bytesHex : String} (h : (imageLoad len crc32c bytesHex).Deliverable) :
    ((imageLoad len crc32c bytesHex).toJson ++ ['\n'.toUInt8]).length ≤ Wire.maxFrameBytes := by
  obtain ⟨hle, hhex, hplain⟩ := h
  have hhex' : (Json.string (Text.utf8 bytesHex)).length = 2 * len.toNat + 2 := by
    rw [Json.string_length_of_plain hplain, hhex]
  have hkey : (Json.string (Text.utf8 "bytes_hex")).length ≤ 100 := by decide
  have hop := textField_length "op" (by decide) (v := some "image_load") (n := 10) (by decide)
  have hlen := num32Field_length "len" (by decide) (some len)
  have hcrc := num32Field_length "crc32c" (by decide) (some crc32c)
  simp only [textField, numField, Option.map_some, Option.toList_some, List.map_cons, List.map_nil, List.flatMap_cons,
    List.flatMap_nil, List.append_nil, List.length_cons] at hop hlen hcrc
  simp only [maxImageBytes] at hle
  simp only [toJson, op, fields, Json.object, textField, numField, Option.toList_some, List.map_cons, List.map_nil,
    List.cons_append, List.nil_append, Json.members, List.flatMap_cons, List.flatMap_nil,
    List.length_append, List.length_cons, List.length_nil, Wire.maxFrameBytes, Json.member, hhex'] at *
  omega

theorem decodeRequest_imageLoad {len crc32c : UInt32} {bytesHex : String}
    (h : (imageLoad len crc32c bytesHex).Deliverable) :
    Wire.decodeRequest (imageLoad len crc32c bytesHex).toJson = .ok (imageLoad len crc32c bytesHex).toKernel := by
  obtain ⟨-, hhex, hplain⟩ := h
  have hop : Wire.Op.ofBytes (Text.utf8 "image_load") = some .imageLoad := by decide
  have hmembers : ∀ m ∈ (imageLoad len crc32c bytesHex).members, m.2.Plain := by
    simp only [members, List.forall_mem_cons]
    exact ⟨op_plain _, trivial, trivial, hplain, fun m hm => by cases hm⟩
  have hput : (imageLoad len crc32c bytesHex).members.foldl Wire.Fields.put {} =
      { op := some (Text.utf8 "image_load"), len := some len, crc32c := some crc32c,
        bytesHex := some (Text.utf8 bytesHex) } := by
    simp only [members, op, List.foldl_cons, List.foldl_nil, Wire.Fields.put, UInt32.ofNat_toNat]
  rw [toJson_eq, Wire.decodeRequest_object (members_takes _), if_pos hmembers, hput]
  simp only [Wire.Fields.request, hop, Wire.Fields.imageLoad, Wire.Fields.orMissing]
  change (if (Text.utf8 bytesHex).length ≠ 2 * len.toNat then _ else _) = _
  rw [if_neg (not_not.2 hhex)]
  rfl

/-- **The request fits a frame, and the kernel reads it as it was.** -/
theorem Deliverable.decode {r : HyperRequest} (h : r.Deliverable) :
    r.toJson.length ≤ Wire.maxFrameBytes ∧ Wire.decodeRequest r.toJson = .ok r.toKernel := by
  have hother : r.Sendable ∧ r.Plain →
      (r.toJson ++ ['\n'.toUInt8]).length ≤ Wire.maxFrameBytes ∧ Wire.decodeRequest r.toJson = .ok r.toKernel := by
    rintro ⟨hsend, hplain⟩
    refine ⟨r.toJson_length hsend, ?_⟩
    rw [r.toJson_eq, Wire.decodeRequest_object r.members_takes, r.request_members hsend,
      if_pos ((r.members_plain hsend).2 hplain)]
  have hboth : (r.toJson ++ ['\n'.toUInt8]).length ≤ Wire.maxFrameBytes ∧
      Wire.decodeRequest r.toJson = .ok r.toKernel := by
    cases r with
    | imageLoad len crc32c bytesHex => exact ⟨imageLoad_length h, decodeRequest_imageLoad h⟩
    | _ => exact hother h
  rw [List.length_append] at hboth
  exact ⟨Nat.le_of_add_right_le hboth.1, hboth.2⟩

end HyperRequest

/-- The reply that goes out for what a dispatch came to. -/
def Kernel.replyTo : HyperResult Wire.Reply → Wire.Reply
  | .ok reply => reply
  | .error e => Kernel.errorReply e

/-- **The turn of a request is its dispatch.** -/
theorem Kernel.turn_line {k : Kernel} {hw : Hardware} {r : HyperRequest} (h : r.Deliverable) :
    k.turn (hw, r.line) = (some (replyTo (k.dispatch hw r.toKernel).1), (k.dispatch hw r.toKernel).2) := by
  obtain ⟨hfits, hdecode⟩ := h.decode
  have hblank : r.toJson.all (fun b => b == ' '.toUInt8 || b == '\t'.toUInt8) = false := by
    rw [HyperRequest.toJson, Json.object, List.all_cons]
    rfl
  simp only [turn, HyperRequest.readLine_line hfits, answer, hblank, hdecode]
  rcases k.dispatch hw r.toKernel with ⟨_ | _, k'⟩ <;> rfl

/-! ## What a dispatch can say -/

namespace Kernel

/-- The texts of the kernel's own errors are short and plain. -/
theorem told_own : ∀ e ∈ [HyperError.denied "manager: runtime not initialised", .exhausted "manager: VM table full",
    .hardware "guest blob > 4 KiB", .invalid "bridge: label > 32 chars", .invalid "bridge: image_path > 128 chars",
    .denied "manager: VmId not allocated", .denied "manager: VmId out of range",
    .denied "Vm::transition: bad source state", .denied "Vm::stop: not in Created/Running",
    .invalid "manager: vm not terminal", .denied "manager: vm already deleted", .invalid "image_loader: stage len == 0",
    .invalid "image_loader: stage len > MAX_IMAGE_BYTES", .invalid "image_loader: stage hex len mismatch",
    .invalid "image_loader: stage CRC mismatch", .invalid "wire: hex_decode non-hex byte",
    .invalid "wire: hex_decode odd input length", .exhausted "wire: hex_decode dst too small"], e.Told := by
  decide

theorem lookup_told {m : Manager} {id : UInt32} {e : HyperError} (h : m.lookup id = .error e) : e.Told := by
  unfold Manager.lookup slotAt at h
  split at h
  · split at h
    · cases h
      exact told_own _ (by simp)
    · cases h
  · cases h
    exact told_own _ (by simp)

theorem transition_told {vm : Vm} {source next : VmState} {e : HyperError} (h : (vm.transition source next).1 = .error e) :
    e.Told := by
  unfold Vm.transition at h
  split at h
  · cases h
  · cases h
    exact told_own _ (by simp)

theorem stateReply_told {k : Kernel} {vmId : UInt32} {r : HyperResult Unit × Manager} {e : HyperError}
    (h : (k.stateReply vmId r).1 = .error e) (hr : ∀ e, r.1 = .error e → e.Told) : e.Told := by
  obtain ⟨e' | _, m⟩ := r
  · cases h
    exact hr _ rfl
  · change (m.lookup vmId).map _ = .error e at h
    cases hl : m.lookup vmId with
    | error e' =>
      rw [hl] at h
      cases h
      exact lookup_told hl
    | ok p =>
      rw [hl] at h
      cases h

theorem hexDecode_told {src dst : List UInt8} {e : HyperError} (h : (Wire.hexDecode src dst).1 = .error e) : e.Told := by
  have hnibble : ∀ {b : UInt8} {e : HyperError}, Wire.hexNibble b = .error e → e.Told := by
    intro b e h
    unfold Wire.hexNibble at h
    split at h
    · cases h
    · cases h
      exact told_own _ (by simp)
  have hfill : ∀ {src dst : List UInt8} {e : HyperError}, (Wire.hexFill src dst).1 = .error e → e.Told := by
    intro src dst
    induction src, dst using Wire.hexFill.induct with
    | case1 hi lo src d dst e' he' =>
      intro e h
      rw [Wire.hexFill, he'] at h
      cases h
      exact hnibble he'
    | case2 hi lo src d dst hd hhd e' he' =>
      intro e h
      rw [Wire.hexFill, hhd] at h
      simp only [he'] at h
      cases h
      exact hnibble he'
    | case3 hi lo src d dst hd hhd l hl ih =>
      intro e h
      rw [Wire.hexFill, hhd] at h
      simp only [hl] at h
      exact ih h
    | case4 dst src hshort =>
      intro e h
      rw [Wire.hexFill] at h
      · cases h
      · exact hshort
  unfold Wire.hexDecode at h
  split at h
  · cases h
    exact told_own _ (by simp)
  · split at h
    · cases h
      exact told_own _ (by simp)
    · cases hf : (Wire.hexFill src dst).1 with
      | error e' =>
        rw [hf] at h
        cases h
        exact hfill hf
      | ok u =>
        rw [hf] at h
        cases h

theorem stageFromHex_told {slot : StagedImage} {hex : List UInt8} {len crc : UInt32} {e : HyperError}
    (h : (slot.stageFromHex hex len crc).1 = .error e) : e.Told := by
  simp only [StagedImage.stageFromHex] at h
  split at h
  · cases h
    exact told_own _ (by simp)
  · split at h
    · cases h
      exact told_own _ (by simp)
    · split at h
      · cases h
        exact told_own _ (by simp)
      · split at h
        · rename_i e' he'
          cases h
          exact hexDecode_told he'
        · split at h
          · cases h
            exact told_own _ (by simp)
          · cases h

variable {k : Kernel} {hw : Hardware}

/-- **Every error of a dispatch gets to the host as it is**, if those of the hardware do. -/
theorem dispatch_told (hhw : hw.Told) {req : Wire.Request} {e : HyperError} (h : (k.dispatch hw req).1 = .error e) :
    e.Told := by
  cases req with
  | create label imagePath cpuCount memoryMib crc =>
    have hcreate : ∀ {m : Manager} {req : CreateVmRequest} {e : HyperError}, (m.createVm hw req).1 = .error e → e.Told := by
      intro m req e h
      unfold Manager.createVm at h
      split at h
      · cases h
        exact told_own _ (by simp)
      · split at h
        · cases h
          exact told_own _ (by simp)
        · dsimp only at h
          split at h
          · cases h
            exact told_own _ (by simp)
          · split at h
            · rename_i e' he'
              cases h
              exact hhw.1 _ he'
            · cases h
    have hlabel : HyperError.Told (.invalid "bridge: label > 32 chars") := told_own _ (by simp)
    have hpath : HyperError.Told (.invalid "bridge: image_path > 128 chars") := told_own _ (by simp)
    simp only [dispatch, create] at h
    split at h
    · cases h
      exact hlabel
    · split at h
      · cases h
        exact hpath
      · cases hc : k.manager.createVm hw (k.bootRequest crc) with
        | mk res m =>
          rw [hc] at h
          cases res with
          | error e' =>
            cases h
            exact hcreate (congrArg Prod.fst hc)
          | ok i =>
            simp only [rememberLabel, rememberExtras] at h
            cases hl : (Wire.Buf.fromSlice label : Option (Wire.Buf Wire.labelMax)) with
            | none =>
              rw [hl] at h
              cases h
              exact hlabel
            | some l =>
              rw [hl] at h
              cases hp : (imagePath.elim (some .empty) Wire.Buf.fromSlice : Option (Wire.Buf Wire.imagePathMax)) with
              | none =>
                rw [hp] at h
                cases h
                exact hpath
              | some p =>
                rw [hp] at h
                cases h
  | start vmId =>
    refine stateReply_told h fun e he => ?_
    unfold Manager.startVm at he
    split at he
    · rename_i e' hl
      cases he
      exact lookup_told hl
    · split at he
      · rename_i e' hs
        cases he
        exact hhw.2 _ hs
      · split at he
        · rename_i e' vm' ht
          cases he
          exact transition_told (congrArg Prod.fst ht)
        · cases he
  | stop vmId =>
    refine stateReply_told h fun e he => ?_
    unfold Manager.stopVm at he
    split at he
    · rename_i e' hl
      cases he
      exact lookup_told hl
    · split at he
      · cases he
      · unfold Vm.stop at he
        split at he
        · cases he
        · cases he
          exact told_own _ (by simp)
  | delete vmId =>
    simp only [dispatch] at h
    split at h
    · rename_i e' m' hd
      cases h
      have hfst := congrArg Prod.fst hd
      unfold Manager.deleteVm at hfst
      split at hfst
      · rename_i hl
        cases hfst
        exact lookup_told hl
      · split at hfst
        · cases hfst
          exact told_own _ (by simp)
        · split at hfst
          · cases hfst
            exact told_own _ (by simp)
          · cases hfst
    · cases h
  | list => cases h
  | imageLoad len crc32c bytesHex =>
    simp only [dispatch] at h
    split at h
    · rename_i e' staged hs
      cases h
      exact stageFromHex_told (congrArg Prod.fst hs)
    · cases h

end Kernel

/-! ## The reply -/

theorem Text.utf8_last {s : String} (h : (Text.utf8 s).getLast? = some '}'.toUInt8) :
    ∃ cs, s = String.ofList (cs ++ ['}']) := by
  rcases List.eq_nil_or_concat s.toList with hnil | ⟨cs, c, hs⟩
  · rw [Text.utf8_eq_flatMap, hnil] at h
    cases h
  · rw [Text.utf8_eq_flatMap, hs, List.concat_eq_append, List.flatMap_append, List.flatMap_singleton,
      List.getLast?_append] at h
    have hc : c = '}' := by
      by_cases hlow : c.toNat < 128
      · rw [Text.utf8EncodeChar_ascii hlow] at h
        have hbyte : c.toUInt8 = '}'.toUInt8 := Option.some.inj h
        have hnat := congrArg UInt8.toNat hbyte
        rw [Text.toNat_toUInt8 hlow, Text.toNat_toUInt8 (by decide)] at hnat
        exact Char.ext (UInt32.toNat_inj.1 hnat)
      · -- Every byte of a wide character is above those of ASCII.
        cases hlast : (String.utf8EncodeChar c).getLast? with
        | none => exact absurd (List.getLast?_eq_none_iff.1 hlast) String.utf8EncodeChar_ne_nil
        | some b =>
          rw [hlast] at h
          have hge := Text.le_of_mem_utf8EncodeChar (Nat.not_lt.1 hlow) (List.mem_of_getLast? hlast)
          obtain rfl : b = '}'.toUInt8 := Option.some.inj h
          exact absurd hge (by decide)
    exact ⟨cs, by rw [← @String.ofList_toList s, hs, hc, List.concat_eq_append]⟩

/-- A reply that can be read, on a line of its own. -/
theorem SerialInner.decode_line {bs : List UInt8} {reply : HyperReply} (h : HyperReply.fromBytes bs = some reply)
    (hlast : bs.getLast? = some '}'.toUInt8) (hlen : bs.length < SerialHyperLink.maxFrameBytes) :
    SerialInner.decode HyperReply.fromStrResult (bs ++ ['\n'.toUInt8]) = .ok reply := by
  obtain ⟨s, hs, hreply⟩ := Option.bind_eq_some_iff.1 h
  obtain rfl := Text.utf8_of_ofUtf8 hs
  obtain ⟨cs, rfl⟩ := Text.utf8_last hlast
  have hline : Text.utf8 (String.ofList (cs ++ ['}'])) ++ ['\n'.toUInt8] =
      Text.utf8 (String.ofList (cs ++ ['}']) ++ "\n") := by
    rw [Text.utf8_append]
    rfl
  have hmax : ¬ SerialHyperLink.maxFrameBytes < (Text.utf8 (String.ofList (cs ++ ['}']) ++ "\n")).length := by
    rw [← hline, List.length_append, List.length_singleton]
    omega
  rw [hline]
  simp only [SerialInner.decode, Text.ofUtf8_utf8, if_neg hmax, Text.trimEnd_newline (c := '}') (by decide),
    HyperReply.fromStrResult, hreply]

namespace Wire.Reply

/-- Every reply ends in a brace. -/
theorem getLast?_puts (reply : Wire.Reply) : reply.puts.flatten.getLast? = some '}'.toUInt8 := by
  have hbrace : (Text.utf8 "\x7d").getLast? = some '}'.toUInt8 := by decide
  have hquote : (Text.utf8 "\"\x7d").getLast? = some '}'.toUInt8 := by decide
  have hbracket : (Text.utf8 "]\x7d").getLast? = some '}'.toUInt8 := by decide
  have hend : ∀ {ps : List (List UInt8)} {last : List UInt8}, last.getLast? = some '}'.toUInt8 →
      (ps ++ [last]).flatten.getLast? = some '}'.toUInt8 := by
    intro ps last h
    rw [List.flatten_append, List.flatten_cons, List.flatten_nil, List.append_nil, List.getLast?_append, h]
    rfl
  cases reply with
  | created vmId | deleted vmId =>
    exact @hend [_, _] _ hbrace
  | state vmId st lastExit => exact hend hbrace
  | listed table => exact @hend (_ :: _) _ hbracket
  | error message => exact @hend (_ :: _) _ hquote
  | imageLoaded len crc32c => exact @hend [_, _, _, _] _ hbrace

/-- A reply that is an object of scalars, as the host reads it. -/
theorem fromBytes_tagged {reply : Wire.Reply} {tag : String} {fs : List (String × Json.Scalar)}
    (hbytes : reply.puts.flatten = (Json.fieldsChars fs).flatMap String.utf8EncodeChar)
    (hplain : ∀ f ∈ fs, (∀ c ∈ f.1.toList, Json.PlainChar c) ∧ f.2.Plain)
    (htag : fs.filter (fun f => f.1 = "reply") = [("reply", .text tag)]) :
    HyperReply.fromBytes reply.puts.flatten = HyperReply.ofTag (Json.fieldsValue fs) tag := by
  rw [hbytes, HyperReply.fromBytes_of_reads (Json.reads_fields hplain), HyperReply.ofValue, Json.required_fields htag,
    Json.readText_value, Option.bind_some]

/-- **The host reads every reply but an error as the kernel meant it**, if the texts of its rows can be read. -/
theorem exists_same (reply : Wire.Reply) (hne : ∀ m, reply ≠ .error m) (hrows : ∀ row ∈ reply.listedRows, row.Readable) :
    ∃ r, HyperReply.fromBytes reply.puts.flatten = some r ∧ r.Same reply := by
  have hkeys : ∀ key ∈ ["reply", "vm_id", "state", "last_exit"], ∀ c ∈ key.toList, Json.PlainChar c := by
    intro key hkey
    refine Json.plain_of_all ?_
    revert key
    decide
  have htags : ∀ tag ∈ ["created", "state", "deleted"], ∀ c ∈ tag.toList, Json.PlainChar c := by
    intro tag htag
    refine Json.plain_of_all ?_
    revert tag
    decide
  cases reply with
  | created vmId =>
    let fs : List (String × Json.Scalar) := [("reply", .text "created"), ("vm_id", .num vmId.toNat)]
    have hid : fs.filter (fun f => f.1 = "vm_id") = [("vm_id", .num vmId.toNat)] := by simp [fs]
    refine ⟨.created vmId, (@fromBytes_tagged _ "created" fs ?_ ?_ (by simp [fs])).trans ?_, rfl⟩
    · simp [Wire.Reply.puts, fs, Json.fieldsChars_cons, Json.moreChars, Text.utf8_eq_flatMap, Json.decimal_eq_flatMap,
        Json.memberChars, Json.Scalar.chars]
    · simp only [fs, List.forall_mem_cons]
      exact ⟨⟨hkeys _ (by simp), htags _ (by simp)⟩, ⟨hkeys _ (by simp), trivial⟩, fun _ h => by cases h⟩
    · simp only [HyperReply.ofTag, Json.required_fields hid, Json.readU32_value, Option.map_some]
  | state vmId st lastExit =>
    let fs : List (String × Json.Scalar) :=
      [("reply", .text "state"), ("vm_id", .num vmId.toNat), ("state", .text st.tag)] ++
        Json.optField "last_exit" (fun n => .num n.toNat) lastExit
    have hid : fs.filter (fun f => f.1 = "vm_id") = [("vm_id", .num vmId.toNat)] := by simp [fs]
    have hstate : fs.filter (fun f => f.1 = "state") = [("state", .text st.tag)] := by simp [fs]
    have hexit : fs.filter (fun f => f.1 = "last_exit") = Json.optField "last_exit" (fun n => .num n.toNat) lastExit := by
      simp [fs]
    refine ⟨.state vmId st.tag lastExit, (@fromBytes_tagged _ "state" fs ?_ ?_ (by simp [fs])).trans ?_, rfl, rfl, rfl⟩
    · rw [Wire.Reply.puts, List.flatten_append, List.flatten_append, Wire.flatten_putOption "last_exit" ",\"last_exit\":" rfl]
      simp [fs, Json.fieldsChars_cons, Json.moreChars, Text.utf8_eq_flatMap, Json.decimal_eq_flatMap,
        Json.memberChars, Json.Scalar.chars]
    · simp only [fs, List.forall_mem_append, List.forall_mem_cons, Json.optField, List.forall_mem_map]
      exact ⟨⟨⟨hkeys _ (by simp), htags _ (by simp)⟩, ⟨hkeys _ (by simp), trivial⟩,
        ⟨hkeys _ (by simp), st.tag_plain⟩, fun _ h => by cases h⟩, fun n _ => ⟨hkeys _ (by simp), trivial⟩⟩
    · simp only [HyperReply.ofTag, Json.required_fields hid, Json.required_fields hstate, Json.readU32_value,
        Json.readText_value, Json.optional_fields hexit Json.readU32_value]
      rfl
  | deleted vmId =>
    let fs : List (String × Json.Scalar) := [("reply", .text "deleted"), ("vm_id", .num vmId.toNat)]
    have hid : fs.filter (fun f => f.1 = "vm_id") = [("vm_id", .num vmId.toNat)] := by simp [fs]
    refine ⟨.deleted vmId, (@fromBytes_tagged _ "deleted" fs ?_ ?_ (by simp [fs])).trans ?_, rfl⟩
    · simp [Wire.Reply.puts, fs, Json.fieldsChars_cons, Json.moreChars, Text.utf8_eq_flatMap, Json.decimal_eq_flatMap,
        Json.memberChars, Json.Scalar.chars]
    · simp only [fs, List.forall_mem_cons]
      exact ⟨⟨hkeys _ (by simp), htags _ (by simp)⟩, ⟨hkeys _ (by simp), trivial⟩, fun _ h => by cases h⟩
    · simp only [HyperReply.ofTag, Json.required_fields hid, Json.readU32_value, Option.map_some]
  | listed table =>
    obtain ⟨rs, hrs⟩ := Wire.exists_same hrows
    exact ⟨.listed rs, HyperReply.fromBytes_listed hrs hrows, hrs⟩
  | error m => exact absurd rfl (hne m)
  | imageLoaded len crc32c =>
    obtain ⟨cs, hbytes, hread⟩ := HyperReply.fromStr_imageLoaded len crc32c
    refine ⟨.imageLoaded len crc32c, ?_, rfl, rfl⟩
    rw [HyperReply.fromBytes, hbytes, Text.ofUtf8_utf8, Option.bind_some, hread]

set_option maxRecDepth 10000 in
/-- The text of an error, escaped by the kernel's writer, is the text the host reads. -/
theorem fromBytes_error {e : HyperError} (h : e.Told) :
    HyperReply.fromBytes (Kernel.errorReply e).puts.flatten = some (.error e.message) := by
  let v : Json.Value := .obj [("reply".toList, .str "error".toList), ("message".toList, .str e.message.toList)]
  have hbyte : ∀ b : UInt8, 32 ≤ b → Wire.errorByte b = Json.escape b := Hex.forall_byte (by decide)
  have hge : ∀ b ∈ Text.utf8 e.message, 32 ≤ b := by
    intro b hb
    rw [Text.utf8_eq_flatMap] at hb
    obtain ⟨c, hc, hb⟩ := List.mem_flatMap.1 hb
    by_cases hlow : c.toNat < 128
    · rw [Text.utf8EncodeChar_ascii hlow, List.mem_singleton] at hb
      rw [hb, UInt8.le_iff_toNat_le, Text.toNat_toUInt8 hlow]
      exact h.2 c hc
    · exact UInt8.le_iff_toNat_le.2 (Nat.le_trans (by decide) (Text.le_of_mem_utf8EncodeChar (Nat.not_lt.1 hlow) hb))
  have hbody : ((Text.utf8 e.message).map Wire.errorByte).flatten = (Text.utf8 e.message).flatMap Json.escape := by
    rw [List.flatMap_def]
    exact congrArg List.flatten (List.map_congr_left fun b hb => hbyte b (hge b hb))
  have hwhole : (Wire.Buf.fromSliceTruncating (Text.utf8 e.message) : Wire.Buf Wire.errorMsgMax).asSlice =
      Text.utf8 e.message := List.take_of_length_le h.1
  have hbytes : (Kernel.errorReply e).puts.flatten = v.bytes := by
    have hstart : Text.utf8 "\x7b\"reply\":\"error\",\"message\":\"" =
        '{'.toUInt8 :: (Json.string (Json.bytesOf "reply".toList) ++ ':'.toUInt8 ::
          Json.string (Json.bytesOf "error".toList)) ++ ','.toUInt8 :: (Json.string (Json.bytesOf "message".toList) ++
            [':'.toUInt8, '"'.toUInt8]) := by decide
    have hend : Text.utf8 "\"\x7d" = ['"'.toUInt8, '}'.toUInt8] := by decide
    have hmessage : Json.string (Json.bytesOf e.message.toList) =
        '"'.toUInt8 :: ((Text.utf8 e.message).flatMap Json.escape ++ ['"'.toUInt8]) := by
      rw [Json.bytesOf_toList]
      rfl
    simp only [Kernel.errorReply, Wire.Reply.puts, hwhole, List.flatten_append, List.flatten_cons, List.flatten_nil,
      List.append_nil, hbody, hend, hstart, v, Json.bytes_obj, List.map_cons, List.map_nil, Json.bytes_str,
      Json.object, Json.members, List.flatMap_cons, List.flatMap_nil]
    rw [hmessage]
    simp only [List.append_assoc, List.cons_append, List.nil_append]
  have hparse : (Text.ofUtf8 v.bytes).bind (fun s => Json.parse s.toList) = some v :=
    Json.parse_bytes ⟨Json.plain_of_all rfl, trivial, Json.plain_of_all rfl, trivial, trivial⟩
  have hfrom : HyperReply.fromBytes v.bytes =
      ((Text.ofUtf8 v.bytes).bind (fun s => Json.parse s.toList)).bind HyperReply.ofValue :=
    (Option.bind_assoc _ _ _).symm
  rw [hbytes, hfrom, hparse, Option.bind_some]
  have hvalue : HyperReply.ofValue v = some (.error (String.ofList e.message.toList)) := rfl
  rw [hvalue, String.ofList_toList]

end Wire.Reply

namespace Kernel

variable {k : Kernel} {hw : Hardware} {book : Book}

/-- A dispatch that succeeds has no error to say, and its rows are those of the tables. -/
theorem dispatch_ok {req : Wire.Request} {reply : Wire.Reply} (h : (k.dispatch hw req).1 = .ok reply) :
    (∀ m, reply ≠ .error m) ∧ ∀ row ∈ reply.listedRows, row ∈ Wire.Reply.rows k.buildRows := by
  cases req with
  | create label imagePath cpuCount memoryMib crc =>
    simp only [dispatch] at h
    rcases k.create_cases hw label imagePath cpuCount memoryMib crc with
      ⟨e, occupied, hc, -⟩ | ⟨i, l, p, -, -, -, hc, -⟩
    · rw [hc] at h
      cases h
    · rw [hc] at h
      cases h
      exact ⟨fun _ h => (by cases h), fun _ h => by cases h⟩
  | start vmId | stop vmId =>
    obtain ⟨st, lastExit, rfl⟩ := stateReply_fst h
    exact ⟨fun _ h => (by cases h), fun _ h => by cases h⟩
  | delete vmId =>
    simp only [dispatch] at h
    split at h
    · cases h
    · cases h
      exact ⟨fun _ h => (by cases h), fun _ h => by cases h⟩
  | list =>
    cases h
    exact ⟨fun _ h => (by cases h), fun _ h => h⟩
  | imageLoad len crc32c bytesHex =>
    simp only [dispatch] at h
    split at h
    · cases h
    · cases h
      exact ⟨fun _ h => (by cases h), fun _ h => by cases h⟩

/-- A deliverable `Create` has texts that are read back. -/
theorem kept_deliverable (h : Kept k book) (hw : Hardware) {r : HyperRequest} (hr : r.Deliverable) :
    ∃ book', Kept (k.dispatch hw r.toKernel).2 book' := by
  refine ⟨_, h.dispatch hw fun c hc _ _ => ?_⟩
  cases r with
  | create label imagePath cpuCount memoryMib crc =>
    cases hc
    obtain ⟨-, hlabel, hpath⟩ := hr
    refine ⟨⟨⟨label, rfl⟩, hlabel⟩, fun p hp => ?_⟩
    obtain ⟨path, hmem, rfl⟩ := Option.map_eq_some_iff.1 hp
    exact ⟨⟨path, rfl⟩, hpath path hmem⟩
  | _ => cases hc

/-- **The host reads what a dispatch came to**, off the line that is sent for it. -/
theorem decode_replyTo (hkept : Kept k book) (hhw : hw.Told) (req : Wire.Request) :
    ∃ r, SerialInner.decode HyperReply.fromStrResult
        ((replyTo (k.dispatch hw req).1).puts.flatten ++ ['\n'.toUInt8]) = .ok r ∧ Tells (.ok r) (k.dispatch hw req).1 := by
  have hlen : ∀ reply : Wire.Reply, reply.puts.flatten.length < SerialHyperLink.maxFrameBytes := fun reply =>
    Nat.lt_of_le_of_lt reply.puts_length (by decide)
  cases hd : (k.dispatch hw req).1 with
  | error e =>
    have hread := Wire.Reply.fromBytes_error (dispatch_told hhw hd)
    exact ⟨_, SerialInner.decode_line hread (Wire.Reply.getLast?_puts _) (hlen _), rfl⟩
  | ok reply =>
    obtain ⟨hne, hrows⟩ := dispatch_ok hd
    obtain ⟨r, hread, hsame⟩ := reply.exists_same hne fun row hrow => by
      obtain ⟨c, -, hreadable, -⟩ := hkept.row (hrows row hrow)
      exact hreadable
    refine ⟨r, SerialInner.decode_line hread (Wire.Reply.getLast?_puts _) (hlen _), ?_⟩
    cases r with
    | error msg => cases reply <;> cases hsame
    | _ => exact hsame

end Kernel

/-! ## Calls -/

/-- Requests with the hardware each one meets, numbered from `n` on. -/
def onHardware (hw : Nat → Hardware) (n : Nat) (reqs : List HyperRequest) : List (Hardware × HyperRequest) :=
  (reqs.zipIdx n).map (fun p => (hw p.2, p.1))

/-- The kernel, asked directly. -/
def Kernel.ask (k : Kernel) (q : Hardware × HyperRequest) : HyperResult Wire.Reply × Kernel := k.dispatch q.1 q.2.toKernel

/-- The bytes the host writes for some requests. -/
def wireBytes (qs : List (Hardware × HyperRequest)) : List (Hardware × UInt8) :=
  qs.flatMap (fun q => (q.2.toJson ++ ['\n'.toUInt8]).map (fun b => (q.1, b)))

/-- The last line the kernel sends to a host that has written some requests since boot. -/
def kernelAnswer (hw : Nat → Hardware) (reqs : List HyperRequest) : SerialHyperLink.Line :=
  ((cut '\n'.toUInt8 (answers Kernel.onByte (.idle, Kernel.init) (wireBytes (onHardware hw 0 reqs))).flatten).1.getLast?).getD
    (.empty _)

theorem lineInputs_wireBytes (qs : List (Hardware × HyperRequest)) :
    Kernel.lineInputs (wireBytes qs) = qs.map (fun q => (q.1, q.2.line)) := by
  induction qs with
  | nil => rfl
  | cons q qs ih =>
    obtain ⟨hlines, -⟩ := lines_line '\n'.toUInt8 (.empty _) q.2.line q.1 (wireBytes qs)
    rw [wireBytes, List.flatMap_cons, Kernel.lineInputs]
    refine hlines.trans ?_
    rw [List.map_cons]
    exact congrArg _ ih

/-- Lines of requests that can be delivered are turned into what the kernel says when asked. -/
theorem turns_ask {qs : List (Hardware × HyperRequest)} (h : ∀ q ∈ qs, q.2.Deliverable) (k : Kernel) :
    answers Kernel.turn k (qs.map (fun q => (q.1, q.2.line))) =
        (answers Kernel.ask k qs).map (fun res => some (Kernel.replyTo res)) ∧
      run Kernel.turn k (qs.map (fun q => (q.1, q.2.line))) = run Kernel.ask k qs := by
  induction qs generalizing k with
  | nil => exact ⟨rfl, rfl⟩
  | cons q qs ih =>
    have hturn : k.turn (q.1, q.2.line) =
        (some (Kernel.replyTo (k.dispatch q.1 q.2.toKernel).1), (k.dispatch q.1 q.2.toKernel).2) :=
      Kernel.turn_line (h q List.mem_cons_self)
    obtain ⟨hanswers, hrun⟩ := ih (fun q' hq' => h q' (List.mem_cons_of_mem _ hq')) (k.ask q).2
    simp only [List.map_cons, answers, run, hturn]
    exact ⟨congrArg _ hanswers, hrun⟩

theorem answers_concat {σ α β : Type} {step : σ → α → β × σ} (s : σ) (as : List α) (a : α) :
    answers step s (as ++ [a]) = answers step s as ++ [(step (run step s as) a).1] := by
  induction as generalizing s with
  | nil => rfl
  | cons b as ih => exact congrArg _ (ih _)

theorem onHardware_cons (hw : Nat → Hardware) (n : Nat) (r : HyperRequest) (reqs : List HyperRequest) :
    onHardware hw n (r :: reqs) = (hw n, r) :: onHardware hw (n + 1) reqs := rfl

theorem onHardware_concat (hw : Nat → Hardware) (n : Nat) (reqs : List HyperRequest) (r : HyperRequest) :
    onHardware hw n (reqs ++ [r]) = onHardware hw n reqs ++ [(hw (n + reqs.length), r)] := by
  simp [onHardware, List.zipIdx_append]

/-- **The last line is the answer to the last request.** -/
theorem kernelAnswer_concat (hw : Nat → Hardware) {reqs : List HyperRequest} {r : HyperRequest}
    (h : ∀ r' ∈ reqs ++ [r], r'.Deliverable) :
    (kernelAnswer hw (reqs ++ [r])).val = (Kernel.replyTo ((run Kernel.ask Kernel.init (onHardware hw 0 reqs)).ask
      (hw reqs.length, r)).1).puts.flatten := by
  have hdeliver : ∀ q ∈ onHardware hw 0 (reqs ++ [r]), q.2.Deliverable := by
    intro q hq
    obtain ⟨p, hp, rfl⟩ := List.mem_map.1 hq
    exact h _ (List.fst_mem_of_mem_zipIdx hp)
  obtain ⟨hlines, -⟩ := Kernel.cut_sent Kernel.unbroken_init (wireBytes (onHardware hw 0 (reqs ++ [r])))
  rw [lineInputs_wireBytes, (turns_ask hdeliver _).1, onHardware_concat, answers_concat, Nat.zero_add] at hlines
  simp only [List.map_append, List.filterMap_append, List.map_cons, List.map_nil, List.filterMap_cons,
    List.filterMap_nil, Option.map_some] at hlines
  have hlast := congrArg List.getLast? hlines
  rw [List.getLast?_map, List.getLast?_concat] at hlast
  obtain ⟨line, hline, hval⟩ := Option.map_eq_some_iff.1 hlast
  rw [kernelAnswer, onHardware_concat, Nat.zero_add, hline, Option.getD_some, hval]

/-- How long the reply to a request takes to arrive. -/
def SerialHyperLink.Pace.total (p : SerialHyperLink.Pace) : Nat := p.ahead.foldl (fun n q => n + q.1) 0 + p.rest

namespace SerialInner

open SerialHyperLink

/-- Nothing is left to be read, and nothing is on its way. -/
structure Settled (s : SerialInner) : Prop where
  unread : s.unread = []
  sentBy : s.sentBy ≤ s.free

variable {s : SerialInner} {c : LinkCall} {pace : Nat → Pace} {fromStr : String → Except String HyperReply}
  {answer : List HyperRequest → SerialHyperLink.Line}

theorem Settled.coming_rest (h : s.Settled) : (s.coming pace c).rest = s.start c + (pace s.requests.length).total := by
  have hfold : ∀ (l : List (Nat × Nat)) (t : Nat), l.foldl (fun n q => n + q.1) t = t + l.foldl (fun n q => n + q.1) 0 := by
    intro l
    induction l with
    | nil => exact fun t => rfl
    | cons q l ih =>
      intro t
      rw [List.foldl_cons, List.foldl_cons, ih (t + q.1), ih (0 + q.1)]
      omega
  have hstart : max s.sentBy (s.start c) = s.start c := Nat.max_eq_right (h.sentBy.trans (Nat.le_max_right _ _))
  simp only [coming, hstart, Pace.total]
  rw [hfold]
  omega

/-- **A call whose reply comes in time** returns what its line says, and leaves nothing behind. -/
theorem Settled.call (h : s.Settled) (hwrite : c.write = .done) (hpace : ∀ n, (pace n).total ≤ callTimeout) :
    (s.call fromStr pace answer c).1 = decode fromStr ((answer (s.requests ++ [c.req])).val ++ ['\n'.toUInt8]) ∧
      (s.call fromStr pace answer c).2.Settled ∧
      (s.call fromStr pace answer c).2.requests = s.requests ++ [c.req] := by
  have hunread : (s.send pace c).unread = [s.coming pace c] := by
    rw [send, h.unread, List.nil_append]
  have hin : (s.coming pace c).rest ≤ s.start c + callTimeout := by
    rw [h.coming_rest]
    exact Nat.add_le_add_left (hpace _) _
  have hread : readLine (s.start c + callTimeout) (s.send pace c).unread = (some (s.coming pace c), []) := by
    rw [hunread, readLine, if_pos hin]
  have hreceived := @received_coming pace answer s c
  unfold SerialInner.call
  rw [hwrite]
  simp only [hread]
  refine ⟨by rw [hreceived], ⟨rfl, ?_⟩, rfl⟩
  exact Nat.le_max_right _ _

end SerialInner

open SerialHyperLink in
/-- From any request on, the calls are answered by the kernel as the requests before them left it. -/
theorem calls_from (hw : Nat → Hardware) (hhw : ∀ n, (hw n).Told) {pace : Nat → Pace}
    (hpace : ∀ n, (pace n).total ≤ callTimeout) :
    ∀ {calls : List LinkCall} {s : SerialInner}, s.Settled → (∀ r ∈ s.requests, r.Deliverable) →
      (∃ book, (run Kernel.ask Kernel.init (onHardware hw 0 s.requests)).Kept book) →
      (∀ c ∈ calls, c.req.Deliverable ∧ c.write = .done) →
      List.Forall₂ Tells (answers (SerialInner.call HyperReply.fromStrResult pace (kernelAnswer hw)) s calls)
        (answers Kernel.ask (run Kernel.ask Kernel.init (onHardware hw 0 s.requests))
          (onHardware hw s.requests.length (calls.map LinkCall.req)))
  | [], _, _, _, _, _ => .nil
  | c :: calls, s, hs, hreqs, ⟨book, hkept⟩, hcalls => by
    obtain ⟨hdeliver, hwrite⟩ := hcalls c List.mem_cons_self
    obtain ⟨hanswer, hsettled, hrequests⟩ := @SerialInner.Settled.call s c pace HyperReply.fromStrResult (kernelAnswer hw)
      hs hwrite hpace
    have hall : ∀ r ∈ s.requests ++ [c.req], r.Deliverable := by
      intro r hr
      rcases List.mem_append.1 hr with hr | hr
      · exact hreqs r hr
      · exact List.mem_singleton.1 hr ▸ hdeliver
    have hnext : run Kernel.ask Kernel.init (onHardware hw 0 (s.requests ++ [c.req])) =
        ((run Kernel.ask Kernel.init (onHardware hw 0 s.requests)).ask (hw s.requests.length, c.req)).2 := by
      rw [onHardware_concat, run_append, Nat.zero_add]
      rfl
    have hrest := @calls_from hw hhw pace hpace calls (s.call HyperReply.fromStrResult pace (kernelAnswer hw) c).2 hsettled
    rw [hrequests, hnext, List.length_append, List.length_singleton] at hrest
    obtain ⟨r, hdecode, htells⟩ := Kernel.decode_replyTo hkept (hhw s.requests.length) c.req.toKernel
    rw [List.map_cons, onHardware_cons, answers, answers, hanswer, kernelAnswer_concat hw hall]
    refine .cons ?_ (hrest hall (Kernel.kept_deliverable hkept _ hdeliver) fun c' hc' => hcalls c' (List.mem_cons_of_mem _ hc'))
    change Tells (SerialInner.decode _ ((Kernel.replyTo (Kernel.dispatch _ _ _).1).puts.flatten ++ _)) _
    rw [hdecode]
    exact htells

open SerialHyperLink in
/-- **Calls over the wire are calls to the kernel.**  Take any run of calls of any kind and at any times, each with
strings that need no escape, on a connection whose writes succeed and whose replies each take no longer than the wait of
a call, in whatever pieces.  Then every call returns what the kernel, asked directly for the same requests in the same
order, says to that one: the reply, or the text of the error. -/
theorem calls_dispatch (hw : Nat → Hardware) (hhw : ∀ n, (hw n).Told) (pace : Nat → Pace)
    (hpace : ∀ n, (pace n).total ≤ callTimeout) (calls : List LinkCall)
    (hcalls : ∀ c ∈ calls, c.req.Deliverable ∧ c.write = .done) :
    List.Forall₂ Tells (answers (SerialInner.call HyperReply.fromStrResult pace (kernelAnswer hw)) .connect calls)
      (answers Kernel.ask Kernel.init (onHardware hw 0 (calls.map LinkCall.req))) :=
  @calls_from hw hhw pace hpace calls .connect ⟨rfl, Nat.le_refl _⟩ (fun _ h => by cases h)
    ⟨_, Kernel.kept_init⟩ hcalls

/-- A VM is made, looked up, and deleted too early. -/
def earlyDelete : List SerialHyperLink.LinkCall :=
  [⟨.create "web" (some "/img/café") (some 2) none none, 0, .done⟩, ⟨.list, 0, .done⟩, ⟨.delete 0, 5, .done⟩]

theorem calls_dispatch_early :
    (∀ c ∈ earlyDelete, c.req.Deliverable ∧ c.write = .done) ∧
      List.Forall₂ Tells
        (answers (SerialInner.call HyperReply.fromStrResult (fun _ => ⟨[(1_000_000, 20)], 1_000_000⟩)
          (kernelAnswer fun _ => .fine)) .connect earlyDelete)
        (answers Kernel.ask Kernel.init (onHardware (fun _ => .fine) 0 (earlyDelete.map SerialHyperLink.LinkCall.req))) := by
  have hcalls : ∀ c ∈ earlyDelete, c.req.Deliverable ∧ c.write = .done := by
    rw [earlyDelete, List.forall_mem_cons, List.forall_mem_cons, List.forall_mem_cons]
    exact ⟨⟨⟨⟨by decide +kernel, by decide +kernel⟩, by decide +kernel, by decide +kernel⟩, rfl⟩,
      ⟨⟨trivial, trivial⟩, rfl⟩, ⟨⟨trivial, trivial⟩, rfl⟩, nofun⟩
  exact ⟨hcalls, calls_dispatch (fun _ => .fine) (fun _ => ⟨nofun, nofun⟩) (fun _ => ⟨[(1_000_000, 20)], 1_000_000⟩)
    (fun _ => by decide) earlyDelete hcalls⟩

end Celium
