import Celium.WireReply
/-!
# ReplySize — every reply fits the transmit buffer

A reply is as long as its puts together.  Numbers are short, labels and paths are bounded by their buffers, and no byte of
an error message takes more than two, so a full listing is the longest reply.
-/
namespace Celium

namespace Wire

/-! ## The parts -/

theorem decimal_length_u32 (n : UInt32) : (Json.decimal n.toNat).length ≤ 10 :=
  Json.decimal_length_le (by decide) (Nat.lt_of_lt_of_le n.toNat_lt (by decide))

theorem decimal_length_u64 (n : UInt64) : (Json.decimal n.toNat).length ≤ 20 :=
  Json.decimal_length_le (by decide) (Nat.lt_of_lt_of_le n.toNat_lt (by decide))

/-- An optional number takes its name and its digits at most. -/
theorem putOption_length {α : Type} {name : String} {k digits : Nat} (hname : (Text.utf8 name).length = k)
    (nat : α → Nat) (hdigits : ∀ a, (Json.decimal (nat a)).length ≤ digits) (v : Option α) :
    (putOption name (v.map nat)).flatten.length ≤ k + digits := by
  cases v with
  | none => exact Nat.zero_le _
  | some a =>
    have hlen := hdigits a
    simp only [putOption, Option.map_some, Option.toList_some, List.flatMap_cons, List.flatMap_nil, List.append_nil,
      List.flatten_cons, List.flatten_nil, List.length_append, hname]
    omega

theorem tag_length (st : VmState) : (Text.utf8 st.tag).length ≤ 7 := by
  cases st <;> decide

theorem errorByte_length (b : UInt8) : (errorByte b).length ≤ 2 := by
  unfold errorByte
  split
  · decide
  · split
    · decide
    · split
      · exact Nat.zero_le _
      · exact Nat.le_succ 1

/-- Lists that are each at most `k` long. -/
theorem length_flatten_le {α : Type} {k : Nat} {ls : List (List α)} (h : ∀ l ∈ ls, l.length ≤ k) :
    ls.flatten.length ≤ k * ls.length := by
  induction ls with
  | nil => exact Nat.zero_le _
  | cons l ls ih =>
    obtain ⟨hfirst, hrest⟩ := List.forall_mem_cons.1 h
    have hlen := ih hrest
    rw [List.flatten_cons, List.length_append, List.length_cons, Nat.mul_succ]
    omega

/-! ## A row -/

/-- The longest row: ten digits for each of its four small numbers, twenty for the memory, and a label and a path that
fill their buffers. -/
def maxRowBytes : Nat := 335

theorem Row.puts_length (row : Row) : row.puts.flatten.length ≤ maxRowBytes := by
  have hid := decimal_length_u32 row.vmId
  have hlabel : row.label.asSlice.length ≤ 32 := row.label.property
  have hstate := tag_length row.state
  have hexit := putOption_length (by decide : (Text.utf8 ",\"last_exit\":").length = 13) UInt32.toNat decimal_length_u32
    row.lastExit
  have hpath : (if row.imagePath.asSlice = [] then []
      else [Text.utf8 ",\"image_path\":\"", row.imagePath.asSlice, Text.utf8 "\""]).flatten.length ≤ 144 := by
    have hbuf : row.imagePath.asSlice.length ≤ 128 := row.imagePath.property
    split
    · exact Nat.zero_le _
    · simp only [List.flatten_cons, List.flatten_nil, List.append_nil, List.length_append,
        (by decide : (Text.utf8 ",\"image_path\":\"").length = 15), (by decide : (Text.utf8 "\"").length = 1)]
      omega
  have hcpu := putOption_length (by decide : (Text.utf8 ",\"cpu_count\":").length = 13) UInt32.toNat decimal_length_u32
    row.cpuCount
  have hmem := putOption_length (by decide : (Text.utf8 ",\"memory_mib\":").length = 14) UInt64.toNat decimal_length_u64
    row.memoryMib
  have hcrc := putOption_length (by decide : (Text.utf8 ",\"boot_blob_crc32c\":").length = 20) UInt32.toNat
    decimal_length_u32 row.bootBlobCrc32c
  simp only [Row.puts, List.flatten_append, List.length_append, List.flatten_cons, List.flatten_nil, List.append_nil,
    (by decide : (Text.utf8 "\x7b\"vm_id\":").length = 9), (by decide : (Text.utf8 ",\"label\":\"").length = 10),
    (by decide : (Text.utf8 "\",\"state\":\"").length = 11), (by decide : (Text.utf8 "\"").length = 1),
    (by decide : (Text.utf8 "\x7d").length = 1), maxRowBytes]
  omega

/-- The rows, with a comma before each but the first. -/
theorem rowsPuts_length (rows : List Row) : (rowsPuts rows).flatten.length ≤ (maxRowBytes + 1) * rows.length := by
  cases rows with
  | nil => exact Nat.zero_le _
  | cons row rows =>
    have hfirst := row.puts_length
    have hrest : ((rows.map (fun r : Row => (Text.utf8 "," :: r.puts).flatten)).flatten).length ≤
        (maxRowBytes + 1) * rows.length := by
      rw [← List.length_map (fun r : Row => (Text.utf8 "," :: r.puts).flatten)]
      refine length_flatten_le fun l hl => ?_
      obtain ⟨r, -, rfl⟩ := List.mem_map.1 hl
      have hrow := r.puts_length
      simp only [List.flatten_cons, List.length_append, (by decide : (Text.utf8 ",").length = 1)]
      omega
    have hflat : (rows.flatMap (fun r : Row => Text.utf8 "," :: r.puts)).flatten =
        (rows.map (fun r : Row => (Text.utf8 "," :: r.puts).flatten)).flatten := by
      rw [List.flatMap, List.flatten_flatten, List.map_map]
      rfl
    rw [rowsPuts, List.flatten_append, List.length_append, hflat, List.length_cons, Nat.mul_succ]
    omega

theorem rows_length (rows : Fin rowsMax → Option Row) : (Reply.rows rows).length ≤ 4 := by
  refine Nat.le_trans (List.length_filterMap_le _ _) ?_
  rw [List.length_finRange]
  decide

/-! ## A reply -/

/-- No reply is longer without its newline; a listing of four full rows comes to one byte less. -/
def maxReplyBytes : Nat := 1372

theorem Reply.puts_length (reply : Reply) : reply.puts.flatten.length ≤ maxReplyBytes := by
  unfold maxReplyBytes
  cases reply with
  | created vmId =>
    have hid := decimal_length_u32 vmId
    simp only [Reply.puts, List.flatten_cons, List.flatten_nil, List.append_nil, List.length_append,
      (by decide : (Text.utf8 "\x7b\"reply\":\"created\",\"vm_id\":").length = 27), (by decide : (Text.utf8 "\x7d").length = 1)]
    omega
  | deleted vmId =>
    have hid := decimal_length_u32 vmId
    simp only [Reply.puts, List.flatten_cons, List.flatten_nil, List.append_nil, List.length_append,
      (by decide : (Text.utf8 "\x7b\"reply\":\"deleted\",\"vm_id\":").length = 27), (by decide : (Text.utf8 "\x7d").length = 1)]
    omega
  | state vmId st lastExit =>
    have hid := decimal_length_u32 vmId
    have hstate := tag_length st
    have hexit := putOption_length (by decide : (Text.utf8 ",\"last_exit\":").length = 13) UInt32.toNat decimal_length_u32
      lastExit
    simp only [Reply.puts, List.flatten_append, List.flatten_cons, List.flatten_nil, List.append_nil, List.length_append,
      (by decide : (Text.utf8 "\x7b\"reply\":\"state\",\"vm_id\":").length = 25),
      (by decide : (Text.utf8 ",\"state\":\"").length = 10),
      (by decide : (Text.utf8 "\"").length = 1), (by decide : (Text.utf8 "\x7d").length = 1)]
    omega
  | listed rows =>
    have hrows := rowsPuts_length (Reply.rows rows)
    have hcount := rows_length rows
    unfold maxRowBytes at hrows
    simp only [Reply.puts, List.flatten_append, List.flatten_cons, List.flatten_nil, List.append_nil, List.length_append,
      (by decide : (Text.utf8 "\x7b\"reply\":\"listed\",\"rows\":[").length = 26), (by decide : (Text.utf8 "]\x7d").length = 2)]
    omega
  | error message =>
    have hbuf : message.asSlice.length ≤ 96 := message.property
    have hmessage : ((message.asSlice.map errorByte).flatten).length ≤ 2 * message.asSlice.length := by
      have hbytes : ∀ l ∈ message.asSlice.map errorByte, l.length ≤ 2 := by
        intro l hl
        obtain ⟨b, -, rfl⟩ := List.mem_map.1 hl
        exact errorByte_length b
      have hflat := length_flatten_le hbytes
      rwa [List.length_map] at hflat
    simp only [Reply.puts, List.flatten_append, List.flatten_cons, List.flatten_nil, List.append_nil, List.length_append,
      (by decide : (Text.utf8 "\x7b\"reply\":\"error\",\"message\":\"").length = 28),
      (by decide : (Text.utf8 "\"\x7d").length = 2)]
    omega
  | imageLoaded len crc32c =>
    have hlen := decimal_length_u32 len
    have hcrc := decimal_length_u32 crc32c
    simp only [Reply.puts, List.flatten_cons, List.flatten_nil, List.append_nil, List.length_append,
      (by decide : (Text.utf8 "\x7b\"reply\":\"image_loaded\",\"len\":").length = 30),
      (by decide : (Text.utf8 ",\"crc32c\":").length = 10), (by decide : (Text.utf8 "\x7d").length = 1)]
    omega

/-- **Every reply fits the transmit buffer**: it is written whole, ends its line, and leaves the rest of the buffer as it
was; the bridge sends it. -/
theorem reply_fits (reply : Reply) (out : Vector UInt8 Kernel.txCap) :
    (∃ w, encodeReply reply out.toList = .ok w ∧ w.pos ≤ Kernel.txCap ∧
      (w.out.take w.pos).getLast? = some '\n'.toUInt8 ∧ w.out.length = Kernel.txCap ∧
      w.out.drop w.pos = out.toList.drop w.pos) ∧ (Kernel.transmit reply).isSome = true := by
  have hlen := reply.puts_length
  have hroom : reply.puts.flatten.length + 1 ≤ Kernel.txCap := by
    unfold maxReplyBytes at hlen
    unfold Kernel.txCap
    omega
  constructor
  · have hflat : (reply.puts ++ [['\n'.toUInt8]]).flatten = reply.puts.flatten ++ ['\n'.toUInt8] := by simp
    have hwritten := (foldlM_putStr (reply.puts ++ [['\n'.toUInt8]]) ⟨out.toList, 0⟩ (Nat.zero_le _)).1
    simp only [hflat, List.length_append, List.length_singleton, Vector.length_toList, Nat.zero_add, List.take_zero,
      List.nil_append] at hwritten
    refine ⟨_, hwritten hroom, hroom, ?_, ?_, ?_⟩
    · rw [List.take_left' (by simp), List.getLast?_append]
      rfl
    · simp only [List.length_append, List.length_singleton, List.length_drop, Vector.length_toList]
      omega
    · rw [List.drop_left' (by simp)]
  · rw [Kernel.transmit_eq, if_pos hroom]
    rfl

end Wire

end Celium
