import Celium.Lib.JsonRead
import Celium.Bridge
import Celium.HyperWire
/-!
# WireReply — the kernel's replies, as the host reads them

`serde_json::from_str` of a `HyperReply`, and what the kernel's writer puts on the line.  The writer's puts come out one
after the other, and those of a row spell out a JSON object whose members are the row's fields; the host reads the row
back where label and path can stand in a JSON string as they are.
-/
namespace Celium

/-! ## The host's reader -/

def HyperVmRow.ofValue : Json.Value → Option HyperVmRow
  | .obj ms => do
    let vmId ← Json.required Json.readU32 "vm_id" ms
    let label ← Json.required Json.readText "label" ms
    let state ← Json.required Json.readText "state" ms
    let lastExit ← Json.optional Json.readU32 "last_exit" ms
    let imagePath ← Json.optional Json.readText "image_path" ms
    let cpuCount ← Json.optional Json.readU32 "cpu_count" ms
    let memoryMib ← Json.optional Json.readU64 "memory_mib" ms
    let bootBlobCrc32c ← Json.optional Json.readU32 "boot_blob_crc32c" ms
    pure { vmId, label, state, lastExit, imagePath, cpuCount, memoryMib, bootBlobCrc32c }
  | _ => none

def HyperVmRow.ofValues : Json.Value → Option (List HyperVmRow)
  | .arr vs => vs.mapM HyperVmRow.ofValue
  | _ => none

namespace HyperReply

/-- A reply by its tag, `#[serde(tag = "reply", rename_all = "snake_case")]`. -/
def ofTag (ms : List (List Char × Json.Value)) : String → Option HyperReply
  | "created" => (Json.required Json.readU32 "vm_id" ms).map .created
  | "state" => do
    let vmId ← Json.required Json.readU32 "vm_id" ms
    let state ← Json.required Json.readText "state" ms
    let lastExit ← Json.optional Json.readU32 "last_exit" ms
    pure (.state vmId state lastExit)
  | "deleted" => (Json.required Json.readU32 "vm_id" ms).map .deleted
  | "listed" => (Json.required HyperVmRow.ofValues "rows" ms).map .listed
  | "error" => (Json.required Json.readText "message" ms).map .error
  | "image_loaded" => do
    let len ← Json.required Json.readU32 "len" ms
    let crc32c ← Json.required Json.readU32 "crc32c" ms
    pure (.imageLoaded len crc32c)
  | _ => none

def ofValue : Json.Value → Option HyperReply
  | .obj ms => (Json.required Json.readText "reply" ms).bind (ofTag ms)
  | _ => none

/-- `serde_json::from_str`. -/
def fromStr (s : String) : Option HyperReply := (Json.parse s.toList).bind ofValue

end HyperReply

/-! ## The writer's bytes -/

namespace Wire

/-- The puts of a reply come out one after the other, where they fit. -/
theorem foldlM_putStr (puts : List (List UInt8)) (w : Writer) (hpos : w.pos ≤ w.out.length) :
    (w.pos + puts.flatten.length ≤ w.out.length →
      puts.foldlM Writer.putStr w = .ok ⟨w.out.take w.pos ++ puts.flatten ++ w.out.drop (w.pos + puts.flatten.length),
        w.pos + puts.flatten.length⟩) ∧
    (w.out.length < w.pos + puts.flatten.length →
      puts.foldlM Writer.putStr w = .error (.exhausted "wire: reply buffer too small")) := by
  induction puts generalizing w with
  | nil =>
    refine ⟨fun _ => ?_, fun h => ?_⟩
    · simp only [List.flatten_nil, List.append_nil, List.length_nil, Nat.add_zero, List.take_append_drop]
      rfl
    · simp only [List.flatten_nil, List.length_nil, Nat.add_zero] at h
      omega
  | cons s puts ih =>
    rw [List.foldlM_cons]
    by_cases hfit : w.pos + s.length > w.out.length
    · have hput : w.putStr s = .error (.exhausted "wire: reply buffer too small") := if_pos hfit
      rw [List.flatten_cons, List.length_append]
      refine ⟨fun h => ?_, fun _ => ?_⟩
      · omega
      · rw [hput]
        rfl
    · have hput : w.putStr s = .ok ⟨w.out.take w.pos ++ s ++ w.out.drop (w.pos + s.length), w.pos + s.length⟩ :=
        if_neg hfit
      have hlen : (w.out.take w.pos ++ s ++ w.out.drop (w.pos + s.length)).length = w.out.length := by
        simp only [List.length_append, List.length_take, List.length_drop]
        omega
      obtain ⟨hok, herr⟩ := ih ⟨w.out.take w.pos ++ s ++ w.out.drop (w.pos + s.length), w.pos + s.length⟩
        (by simp only [hlen]; omega)
      simp only [hlen] at hok herr
      rw [List.flatten_cons, List.length_append, ← Nat.add_assoc]
      refine ⟨fun h => ?_, fun h => ?_⟩
      · rw [hput]
        refine (hok h).trans ?_
        have htake : (w.out.take w.pos ++ s ++ w.out.drop (w.pos + s.length)).take (w.pos + s.length) =
            w.out.take w.pos ++ s := by
          refine List.take_left' ?_
          simp only [List.length_append, List.length_take]
          omega
        have hdrop : (w.out.take w.pos ++ s ++ w.out.drop (w.pos + s.length)).drop
            (w.pos + s.length + puts.flatten.length) = w.out.drop (w.pos + s.length + puts.flatten.length) := by
          rw [List.drop_append, List.drop_eq_nil_of_le, List.nil_append, List.drop_drop]
          · congr 1
            simp only [List.length_append, List.length_take]
            omega
          · simp only [List.length_append, List.length_take]
            omega
        rw [htake, hdrop, List.append_assoc (w.out.take w.pos)]
      · rw [hput]
        exact herr h

end Wire

/-- **What is sent for a reply**: its puts and a newline, if the buffer holds them. -/
theorem Kernel.transmit_eq (reply : Wire.Reply) :
    Kernel.transmit reply =
      if reply.puts.flatten.length + 1 ≤ Kernel.txCap then some (reply.puts.flatten ++ ['\n'.toUInt8]) else none := by
  obtain ⟨hok, herr⟩ := Wire.foldlM_putStr (reply.puts ++ [['\n'.toUInt8]]) ⟨List.replicate Kernel.txCap 0, 0⟩
    (Nat.zero_le _)
  have hflat : (reply.puts ++ [['\n'.toUInt8]]).flatten = reply.puts.flatten ++ ['\n'.toUInt8] := by simp
  simp only [hflat, List.length_append, List.length_singleton, List.length_replicate, Nat.zero_add, List.take_zero,
    List.nil_append] at hok herr
  rw [Kernel.transmit, Wire.encodeReply]
  by_cases hfit : reply.puts.flatten.length + 1 ≤ Kernel.txCap
  · rw [hok hfit, if_pos hfit]
    simp only
    rw [List.take_left' (by simp)]
  · rw [herr (Nat.not_le.1 hfit), if_neg hfit]

/-! ## A row -/

/-- The fields of a row, in the order the kernel writes them. -/
def HyperVmRow.fields (r : HyperVmRow) : List (String × Json.Scalar) :=
  [("vm_id", .num r.vmId.toNat), ("label", .text r.label), ("state", .text r.state)] ++
    Json.optField "last_exit" (fun n => .num n.toNat) r.lastExit ++ Json.optField "image_path" .text r.imagePath ++
    Json.optField "cpu_count" (fun n => .num n.toNat) r.cpuCount ++
    Json.optField "memory_mib" (fun n => .num n.toNat) r.memoryMib ++
    Json.optField "boot_blob_crc32c" (fun n => .num n.toNat) r.bootBlobCrc32c

/-- **The host reads a row back from its fields.** -/
theorem HyperVmRow.ofValue_fields (r : HyperVmRow) :
    HyperVmRow.ofValue (.obj (Json.fieldsValue r.fields)) = some r := by
  have hvm : r.fields.filter (fun f => f.1 = "vm_id") = [("vm_id", .num r.vmId.toNat)] := by simp [fields]
  have hlabel : r.fields.filter (fun f => f.1 = "label") = [("label", .text r.label)] := by simp [fields]
  have hstate : r.fields.filter (fun f => f.1 = "state") = [("state", .text r.state)] := by simp [fields]
  have hexit : r.fields.filter (fun f => f.1 = "last_exit") =
      Json.optField "last_exit" (fun n => .num n.toNat) r.lastExit := by simp [fields]
  have hpath : r.fields.filter (fun f => f.1 = "image_path") = Json.optField "image_path" .text r.imagePath := by
    simp [fields]
  have hcpu : r.fields.filter (fun f => f.1 = "cpu_count") =
      Json.optField "cpu_count" (fun n => .num n.toNat) r.cpuCount := by simp [fields]
  have hmem : r.fields.filter (fun f => f.1 = "memory_mib") =
      Json.optField "memory_mib" (fun n => .num n.toNat) r.memoryMib := by simp [fields]
  have hcrc : r.fields.filter (fun f => f.1 = "boot_blob_crc32c") =
      Json.optField "boot_blob_crc32c" (fun n => .num n.toNat) r.bootBlobCrc32c := by simp [fields]
  simp only [ofValue, Json.required_fields hvm, Json.required_fields hlabel, Json.required_fields hstate,
    Json.optional_fields hexit Json.readU32_value, Json.optional_fields hpath Json.readText_value,
    Json.optional_fields hcpu Json.readU32_value, Json.optional_fields hmem Json.readU64_value,
    Json.optional_fields hcrc Json.readU32_value, Json.readU32_value, Json.readText_value]
  rfl

/-- A path in a row of the kernel; an empty one is none. -/
def Wire.Buf.shown {max : Nat} (b : Wire.Buf max) : Option (List UInt8) := if b.asSlice = [] then none else some b.asSlice

/-- A row of the host and one of the kernel say the same. -/
structure HyperVmRow.Same (r : HyperVmRow) (row : Wire.Row) : Prop where
  vmId : r.vmId = row.vmId
  label : Text.utf8 r.label = row.label.asSlice
  state : r.state = row.state.tag
  lastExit : r.lastExit = row.lastExit
  imagePath : r.imagePath.map Text.utf8 = row.imagePath.shown
  cpuCount : r.cpuCount = row.cpuCount
  memoryMib : r.memoryMib = row.memoryMib
  bootBlobCrc32c : r.bootBlobCrc32c = row.bootBlobCrc32c

namespace Wire

/-- The characters of an optional member, with the comma before it. -/
theorem flatten_putOption {α : Type} (key name : String) (hname : name.toList = ',' :: '"' :: key.toList ++ ['"', ':'])
    (nat : α → Nat) (v : Option α) :
    (putOption name (v.map nat)).flatten =
      (Json.moreChars (Json.optField key (fun a => .num (nat a)) v)).flatMap String.utf8EncodeChar := by
  cases v with
  | none => rfl
  | some a =>
    simp [putOption, Json.optField, Text.utf8_eq_flatMap, Json.decimal_eq_flatMap, Json.moreChars, Json.memberChars,
      Json.Scalar.chars, hname]

/-- **The bytes of a row are those of the object of its fields.** -/
theorem Row.flatten_puts {row : Row} {r : HyperVmRow} (h : r.Same row) :
    row.puts.flatten = (Json.fieldsChars r.fields).flatMap String.utf8EncodeChar := by
  have hpath : (if row.imagePath.asSlice = [] then []
      else [Text.utf8 ",\"image_path\":\"", row.imagePath.asSlice, Text.utf8 "\""]).flatten =
      (Json.moreChars (Json.optField "image_path" .text r.imagePath)).flatMap String.utf8EncodeChar := by
    have hshow := h.imagePath
    rw [Buf.shown] at hshow
    cases hr : r.imagePath with
    | none =>
      rw [hr] at hshow
      split at hshow
      · rename_i hempty
        rw [if_pos hempty]
        rfl
      · cases hshow
    | some path =>
      rw [hr] at hshow
      split at hshow
      · cases hshow
      · rename_i hne
        rw [if_neg hne, ← Option.some.inj hshow]
        simp [Json.optField, Text.utf8_eq_flatMap, Json.moreChars, Json.memberChars, Json.Scalar.chars]
  rw [Row.puts, List.flatten_append, List.flatten_append, List.flatten_append, List.flatten_append, List.flatten_append,
    List.flatten_append, hpath, ← h.lastExit, ← h.cpuCount, ← h.memoryMib, ← h.bootBlobCrc32c, ← h.vmId, ← h.label,
    ← h.state, flatten_putOption "last_exit" _ rfl, flatten_putOption "cpu_count" _ rfl,
    flatten_putOption "memory_mib" _ rfl, flatten_putOption "boot_blob_crc32c" _ rfl]
  simp [HyperVmRow.fields, Json.fieldsChars_cons, Json.moreChars_cons, Json.moreChars_append, Text.utf8_eq_flatMap,
    Json.decimal_eq_flatMap, Json.memberChars, Json.Scalar.chars]

end Wire

/-! ## Texts that are read back -/

/-- A text that can go into a reply as it is: valid UTF-8 without a control character, a quote or a backslash. -/
def Wire.Readable (bs : List UInt8) : Prop := (∃ s, Text.utf8 s = bs) ∧ ∀ b ∈ bs, Json.Plain b

theorem Wire.Readable.plain {s : String} (h : Wire.Readable (Text.utf8 s)) : ∀ c ∈ s.toList, Json.PlainChar c := by
  intro c hc
  have hbyte : c.toNat < 128 → Json.Plain c.toUInt8 := fun hlt => h.2 _ (Text.mem_utf8_of_ascii hc hlt)
  refine ⟨?_, ?_, ?_⟩
  · rintro rfl
    exact (hbyte (by decide)).1 rfl
  · rintro rfl
    exact (hbyte (by decide)).2.1 rfl
  · by_contra hlt
    have hge := (hbyte (by omega)).2.2
    have := UInt8.le_iff_toNat_le.1 hge
    rw [Text.toNat_toUInt8 (by omega)] at this
    exact hlt this

/-- What the host sees of a row, where it can be read. -/
theorem Wire.Row.exists_same {row : Wire.Row} (hlabel : Wire.Readable row.label.asSlice)
    (hpath : Wire.Readable row.imagePath.asSlice) : ∃ r : HyperVmRow, r.Same row := by
  obtain ⟨label, hl⟩ := hlabel.1
  obtain ⟨path, hp⟩ := hpath.1
  refine ⟨{ vmId := row.vmId, label, state := row.state.tag, lastExit := row.lastExit,
            imagePath := if path = "" then none else some path, cpuCount := row.cpuCount, memoryMib := row.memoryMib,
            bootBlobCrc32c := row.bootBlobCrc32c }, ⟨rfl, hl, rfl, rfl, ?_, rfl, rfl, rfl⟩⟩
  rw [Wire.Buf.shown, ← hp]
  by_cases hempty : path = ""
  · rw [if_pos hempty, if_pos (Text.utf8_eq_nil.2 hempty)]
    rfl
  · rw [if_neg hempty, if_neg (fun h => hempty (Text.utf8_eq_nil.1 h))]
    rfl

theorem VmState.tag_plain (st : VmState) : ∀ c ∈ st.tag.toList, Json.PlainChar c := by
  refine Json.plain_of_all ?_
  cases st <;> decide +kernel

theorem HyperVmRow.fields_keys (r : HyperVmRow) : ∀ f ∈ r.fields, ∀ c ∈ f.1.toList, Json.PlainChar c := by
  have hkeys : ∀ key ∈ ["vm_id", "label", "state", "last_exit", "image_path", "cpu_count", "memory_mib",
      "boot_blob_crc32c"], key.toList.all (fun c => decide (Json.PlainChar c)) = true := by decide +kernel
  intro f hf
  refine Json.plain_of_all (hkeys f.1 ?_)
  simp only [fields, Json.optField, List.mem_append, List.mem_cons, List.not_mem_nil, or_false, List.mem_map] at hf
  rcases hf with ((((((rfl | rfl | rfl) | ⟨_, _, rfl⟩) | ⟨_, _, rfl⟩) | ⟨_, _, rfl⟩) | ⟨_, _, rfl⟩) | ⟨_, _, rfl⟩)
  all_goals simp

/-- The object of a row is read wherever it stands. -/
theorem HyperVmRow.Same.reads {row : Wire.Row} {r : HyperVmRow} (h : r.Same row)
    (hlabel : Wire.Readable row.label.asSlice) (hpath : Wire.Readable row.imagePath.asSlice) :
    Json.Reads (Json.fieldsChars r.fields) (.obj (Json.fieldsValue r.fields)) := by
  refine Json.reads_fields (fun f hf => ⟨r.fields_keys f hf, ?_⟩)
  simp only [HyperVmRow.fields, Json.optField, List.mem_append, List.mem_cons, List.not_mem_nil, or_false,
    List.mem_map, Option.mem_toList] at hf
  rcases hf with
    ((((((rfl | rfl | rfl) | ⟨_, _, rfl⟩) | ⟨path, hr, rfl⟩) | ⟨_, _, rfl⟩) | ⟨_, _, rfl⟩) | ⟨_, _, rfl⟩)
  case inl.inl.inl.inl.inl.inr.inl => exact Wire.Readable.plain (h.label ▸ hlabel)
  case inl.inl.inl.inl.inl.inr.inr => exact h.state ▸ row.state.tag_plain
  case inl.inl.inl.inr =>
    have hshow := h.imagePath
    rw [hr, Wire.Buf.shown] at hshow
    split at hshow
    · cases hshow
    · exact Wire.Readable.plain (Option.some.inj hshow ▸ hpath)
  all_goals trivial

/-! ## The two replies -/

/-- What the host makes of the bytes of a line, its newline cut off. -/
def HyperReply.fromBytes (bs : List UInt8) : Option HyperReply := (Text.ofUtf8 bs).bind HyperReply.fromStr

theorem HyperReply.fromBytes_of_reads {cs : List Char} {v : Json.Value} (h : Json.Reads cs v) :
    HyperReply.fromBytes (cs.flatMap String.utf8EncodeChar) = HyperReply.ofValue v := by
  rw [fromBytes, ← Text.utf8_ofList, Text.ofUtf8_utf8, Option.bind_some, fromStr, String.toList_ofList,
    Json.parse_of_reads h, Option.bind_some]

/-- **The host reads an `image_loaded` as the kernel meant it.** -/
theorem HyperReply.fromStr_imageLoaded (len crc : UInt32) :
    ∃ cs, (Wire.Reply.imageLoaded len crc).puts.flatten = Text.utf8 (String.ofList (cs ++ ['}'])) ∧
      HyperReply.fromStr (String.ofList (cs ++ ['}'])) = some (.imageLoaded len crc) := by
  let fs : List (String × Json.Scalar) :=
    [("reply", .text "image_loaded"), ("len", .num len.toNat), ("crc32c", .num crc.toNat)]
  have hreads : Json.Reads (Json.fieldsChars fs) (.obj (Json.fieldsValue fs)) := by
    refine Json.reads_fields ?_
    simp only [fs, List.forall_mem_cons]
    refine ⟨⟨Json.plain_of_all rfl, ?_⟩, ⟨Json.plain_of_all rfl, trivial⟩, ⟨Json.plain_of_all rfl, trivial⟩, by simp⟩
    exact (Json.plain_of_all rfl : ∀ c ∈ "image_loaded".toList, Json.PlainChar c)
  have htag : fs.filter (fun f => f.1 = "reply") = [("reply", .text "image_loaded")] := by simp [fs]
  have hlen : fs.filter (fun f => f.1 = "len") = [("len", .num len.toNat)] := by simp [fs]
  have hcrc : fs.filter (fun f => f.1 = "crc32c") = [("crc32c", .num crc.toNat)] := by simp [fs]
  refine ⟨'{' :: Json.sep (fs.map (fun f => Json.memberChars f.1 f.2.chars)), ?_, ?_⟩
  · change _ = Text.utf8 (String.ofList (Json.fieldsChars fs))
    simp [Wire.Reply.puts, fs, Json.fieldsChars_cons, Json.moreChars, Text.utf8_eq_flatMap, Json.decimal_eq_flatMap,
      Json.memberChars, Json.Scalar.chars]
  · change HyperReply.fromStr (String.ofList (Json.fieldsChars fs)) = _
    rw [fromStr, String.toList_ofList, Json.parse_of_reads hreads, Option.bind_some, ofValue,
      Json.required_fields htag, Json.readText_value, Option.bind_some]
    simp only [ofTag, Json.required_fields hlen, Json.required_fields hcrc, Json.readU32_value]
    rfl

namespace Wire

/-- The characters of a list of rows. -/
def rowsChars (rs : List HyperVmRow) : List Char := Json.sep (rs.map (fun r => Json.fieldsChars r.fields))

theorem flatten_rowsPuts {rows : List Row} {rs : List HyperVmRow} (h : List.Forall₂ HyperVmRow.Same rs rows) :
    (rowsPuts rows).flatten = (rowsChars rs).flatMap String.utf8EncodeChar := by
  cases h with
  | nil => rfl
  | @cons r row rs rows hrow hrows =>
    have hrest : (rows.flatMap (fun r => Text.utf8 "," :: r.puts)).flatten =
        ((rs.map (fun r => Json.fieldsChars r.fields)).flatMap (',' :: ·)).flatMap String.utf8EncodeChar := by
      induction hrows with
      | nil => rfl
      | cons hrow' hrows' ih =>
        rw [List.flatMap_cons, List.flatten_append, List.flatten_cons, ih, Row.flatten_puts hrow', List.map_cons,
          List.flatMap_cons, List.flatMap_append]
        rfl
    rw [rowsPuts, List.flatten_append, Row.flatten_puts hrow, hrest, rowsChars, List.map_cons, Json.sep,
      List.flatMap_append]

/-- Every text in a row can go into a reply as it is. -/
def Row.Readable (row : Row) : Prop := Wire.Readable row.label.asSlice ∧ Wire.Readable row.imagePath.asSlice

theorem exists_same {rows : List Row} (h : ∀ row ∈ rows, row.Readable) :
    ∃ rs, List.Forall₂ HyperVmRow.Same rs rows := by
  induction rows with
  | nil => exact ⟨[], .nil⟩
  | cons row rows ih =>
    obtain ⟨r, hr⟩ := Row.exists_same (h row List.mem_cons_self).1 (h row List.mem_cons_self).2
    obtain ⟨rs, hrs⟩ := ih (fun row' hrow' => h row' (List.mem_cons_of_mem _ hrow'))
    exact ⟨r :: rs, .cons hr hrs⟩

theorem reads_rows {rows : List Row} {rs : List HyperVmRow} (h : List.Forall₂ HyperVmRow.Same rs rows)
    (hread : ∀ row ∈ rows, row.Readable) :
    Json.Reads ('[' :: rowsChars rs ++ [']']) (.arr (rs.map (fun r => .obj (Json.fieldsValue r.fields)))) := by
  refine Json.reads_arr ?_
  induction h with
  | nil => exact .nil
  | @cons r row rs rows hrow hrows ih =>
    obtain ⟨hlabel, hpath⟩ := hread row List.mem_cons_self
    exact .cons (hrow.reads hlabel hpath) (ih (fun row' hrow' => hread row' (List.mem_cons_of_mem _ hrow')))

end Wire

theorem HyperVmRow.ofValues_fields (rs : List HyperVmRow) :
    HyperVmRow.ofValues (.arr (rs.map (fun r => .obj (Json.fieldsValue r.fields)))) = some rs := by
  rw [ofValues]
  induction rs with
  | nil => rfl
  | cons r rs ih => rw [List.map_cons, List.mapM_cons, r.ofValue_fields, ih]; rfl

/-- **The host reads a `listed` whose texts can be read**, row by row. -/
theorem HyperReply.fromBytes_listed {table : Fin Wire.rowsMax → Option Wire.Row} {rs : List HyperVmRow}
    (h : List.Forall₂ HyperVmRow.Same rs (Wire.Reply.rows table))
    (hread : ∀ row ∈ Wire.Reply.rows table, row.Readable) :
    HyperReply.fromBytes (Wire.Reply.listed table).puts.flatten = some (.listed rs) := by
  let ms : List (List Char × Json.Value) :=
    [("reply".toList, .str "listed".toList),
      ("rows".toList, .arr (rs.map (fun r => .obj (Json.fieldsValue r.fields))))]
  let cs : List Char :=
    '{' :: Json.sep [Json.memberChars "reply" ('"' :: "listed".toList ++ ['"']),
      Json.memberChars "rows" ('[' :: Wire.rowsChars rs ++ [']'])] ++ ['}']
  have hbytes : (Wire.Reply.listed table).puts.flatten = cs.flatMap String.utf8EncodeChar := by
    simp [Wire.Reply.puts, Wire.flatten_rowsPuts h, cs, Json.sep, Json.memberChars, Text.utf8_eq_flatMap]
  have hreads : Json.Reads cs (.obj ms) := by
    refine Json.reads_obj (.cons (Json.readsMember (Json.plain_of_all rfl) (Json.reads_str (Json.plain_of_all rfl)))
      (.cons (Json.readsMember (Json.plain_of_all rfl) (Wire.reads_rows h hread)) .nil))
  rw [hbytes, fromBytes_of_reads hreads, ofValue]
  have htag : Json.required Json.readText "reply" ms = some "listed" := rfl
  have hrows : Json.required HyperVmRow.ofValues "rows" ms = some rs := by
    simp [Json.required, Json.named, ms, HyperVmRow.ofValues_fields]
  rw [htag, Option.bind_some]
  simp only [ofTag, hrows, Option.map_some]

end Celium
