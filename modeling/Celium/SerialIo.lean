import Celium.Lib.LineStream
import Celium.ReplySize
import Celium.KernelRows
/-!
# SerialIo — the bridge, byte by byte

`celhyper::serial_io::read_line` and the loop of `bridge::run` as the port drives them: bytes come in one at a time, with
whatever the hardware does when a request is carried out, and bytes go out.  A line that does not fit the buffer is read
to its end and forgotten.  Whatever comes in, what goes out is one line for each line the bridge answers, in order, and
the kernel is where those lines bring it (`replies_line_by_line`).

The port itself (baud rate, FIFO, the busy waiting for its ready bits) and the log on the other port are left out.
-/
namespace Celium

open Runs LineStream

/-- A newline ends a line, carriage returns are dropped, and `RX_BUF` is the buffer. -/
def SerialIo.format : Format UInt8 := ⟨'\n'.toUInt8, fun b => b == '\r'.toUInt8, Wire.maxFrameBytes⟩

namespace Kernel

/-- A round of `run`, after its `read_line`. -/
def onLine (k : Kernel) (hw : Hardware) : Option (List UInt8) → List UInt8 × Kernel
  | none => ([], k)
  | some frame => (((k.answer hw frame).1.bind transmit).getD [], (k.answer hw frame).2)

/-- A byte on the port. -/
def onByte (s : Reader UInt8 × Kernel) (input : Hardware × UInt8) : List UInt8 × (Reader UInt8 × Kernel) :=
  serve SerialIo.format onLine s input

/-- The lines that some bytes complete; a line meets the hardware of its newline. -/
def lineInputs (bytes : List (Hardware × UInt8)) : List (Hardware × Line) := lines '\n'.toUInt8 (.empty _) bytes

/-! ## Lines for bytes -/

/-- The reader finds in a line what `readLine` says. -/
theorem content_readLine (line : Line) : SerialIo.format.content line.val = (readLine line).toOption := by
  have hfilter : line.val.filter (fun b => !(b == '\r'.toUInt8)) = line.val.filter (· ≠ '\r'.toUInt8) :=
    List.filter_congr fun b _ => by rw [decide_not]; rfl
  simp only [SerialIo.format, Format.content, readLine, hfilter]
  split
  · rename_i hle
    rw [if_neg (Nat.not_lt.2 hle)]
    rfl
  · rename_i hgt
    rw [if_pos (Nat.not_le.1 hgt)]
    rfl

theorem serveLine_turn (k : Kernel) (input : Hardware × Line) :
    serveLine SerialIo.format onLine k input = (((k.turn input).1.bind transmit).getD [], (k.turn input).2) := by
  have hcontent := content_readLine input.2
  change onLine k input.1 (SerialIo.format.content input.2.val) = _
  rw [turn]
  cases hread : readLine input.2 with
  | error e =>
    rw [hread] at hcontent
    rw [hcontent]
    rfl
  | ok frame =>
    rw [hread] at hcontent
    rw [hcontent]
    rfl

theorem answers_serveLine (k : Kernel) (inputs : List (Hardware × Line)) :
    answers (serveLine SerialIo.format onLine) k inputs = (answers turn k inputs).map (fun r => (r.bind transmit).getD []) ∧
      run (serveLine SerialIo.format onLine) k inputs = run turn k inputs := by
  induction inputs generalizing k with
  | nil => exact ⟨rfl, rfl⟩
  | cons input inputs ih =>
    simp only [answers, run, serveLine_turn, List.map_cons]
    exact ⟨congrArg _ (ih _).1, (ih _).2⟩

/-- **The loop on bytes is the loop on lines.** -/
theorem onByte_eq_turns (k : Kernel) (bytes : List (Hardware × UInt8)) :
    (answers onByte (.idle, k) bytes).flatten =
        (answers turn k (lineInputs bytes)).flatMap (fun r => (r.bind transmit).getD []) ∧
      (run onByte (.idle, k) bytes).2 = run turn k (lineInputs bytes) := by
  obtain ⟨hanswers, hrun⟩ := serve_eq_lines SerialIo.format onLine k (.empty _) bytes
  obtain ⟨hlines, hstate⟩ := k.answers_serveLine (lineInputs bytes)
  refine ⟨hanswers.trans ?_, (congrArg Prod.snd hrun).trans hstate⟩
  rw [List.flatMap_def, ← hlines]
  rfl

end Kernel

/-! ## No newline inside a reply -/

namespace Wire

theorem mem_members {ls : List (List UInt8)} {l : List UInt8} (hl : l ∈ ls) {b : UInt8} (hb : b ∈ l) :
    b ∈ Json.members ls := by
  cases ls with
  | nil => cases hl
  | cons l' ls =>
    rw [Json.members, List.mem_append]
    rcases List.mem_cons.1 hl with rfl | hl
    · exact .inl hb
    · exact .inr (List.mem_flatMap.2 ⟨l, hl, List.mem_cons_of_mem _ hb⟩)

/-- **The texts of a `Create` are made of bytes of the frame.** -/
theorem mem_frame {frame label : List UInt8} {imagePath : Option (List UInt8)} {cpuCount : Option UInt32}
    {memoryMib : Option UInt64} {crc : Option UInt32}
    (h : decodeRequest frame = .ok (.create label imagePath cpuCount memoryMib crc)) :
    (∀ b ∈ label, b ∈ frame) ∧ ∀ p ∈ imagePath, ∀ b ∈ p, b ∈ frame := by
  obtain ⟨t, -, rfl, hrequest⟩ := FrameText.decodeRequest_ok_iff.1 h
  obtain ⟨-, hlabel, rfl, -⟩ := of_request hrequest
  have hvalue : ∀ {key : Key} {v : List UInt8}, texts t.members key = some v → ∀ b ∈ content v, b ∈ t.bytes := by
    intro key v hv b hb
    obtain ⟨m, hm, -, rfl⟩ := of_texts hv
    have hin : b ∈ m.bytes := by
      have hb' : b ∈ m.value := List.mem_of_mem_drop (List.mem_of_mem_dropLast hb)
      simp [JsonText.Member.bytes, hb']
    rw [FrameText.bytes]
    exact List.mem_cons_of_mem _ (List.mem_append_left _ (mem_members (List.mem_map_of_mem hm) hin))
  constructor
  · intro b hb
    obtain ⟨v, hv, rfl⟩ := Option.map_eq_some_iff.1 hlabel
    exact hvalue hv b hb
  · intro p hp b hb
    obtain ⟨v, hv, hcontent⟩ := Option.bind_eq_some_iff.1 hp
    rw [unlessNull] at hcontent
    split at hcontent
    · cases hcontent
    · cases hcontent
      exact hvalue hv b hb

set_option maxRecDepth 10000 in
/-- A put of a row is one of its texts, or has no control byte. -/
theorem Row.of_puts {row : Row} {l : List UInt8} (h : l ∈ row.puts) :
    l = row.label.asSlice ∨ l = row.imagePath.asSlice ∨ ∀ b ∈ l, 32 ≤ b := by
  have hlits : ∀ s ∈ ["\x7b\"vm_id\":", ",\"label\":\"", "\",\"state\":\"", "\"", ",\"image_path\":\"", "\x7d"],
      ∀ b ∈ Text.utf8 s, 32 ≤ b := by decide
  have htag : ∀ b ∈ Text.utf8 row.state.tag, 32 ≤ b := by cases row.state <;> decide
  have hoption : ∀ {name : String} {n : Option Nat}, (∀ b ∈ Text.utf8 name, 32 ≤ b) → l ∈ putOption name n →
      ∀ b ∈ l, 32 ≤ b := fun hname hl b hb => putOption_ge hname _ b (List.mem_flatten.2 ⟨l, hl, hb⟩)
  simp only [Row.puts, List.mem_append] at h
  rcases h with ((((((h | h) | h) | h) | h) | h) | h)
  · simp only [List.mem_cons, List.not_mem_nil, or_false] at h
    rcases h with rfl | rfl | rfl | rfl | rfl | rfl | rfl
    · exact .inr (.inr (hlits _ (by simp)))
    · exact .inr (.inr (decimal_ge _))
    · exact .inr (.inr (hlits _ (by simp)))
    · exact .inl rfl
    · exact .inr (.inr (hlits _ (by simp)))
    · exact .inr (.inr htag)
    · exact .inr (.inr (hlits _ (by simp)))
  · exact .inr (.inr (hoption (by decide) h))
  · split at h
    · cases h
    · simp only [List.mem_cons, List.not_mem_nil, or_false] at h
      rcases h with rfl | rfl | rfl
      · exact .inr (.inr (hlits _ (by simp)))
      · exact .inr (.inl rfl)
      · exact .inr (.inr (hlits _ (by simp)))
  · exact .inr (.inr (hoption (by decide) h))
  · exact .inr (.inr (hoption (by decide) h))
  · exact .inr (.inr (hoption (by decide) h))
  · rw [List.mem_singleton] at h
    exact .inr (.inr (h ▸ hlits _ (by simp)))

set_option maxRecDepth 10000 in
theorem errorByte_ge (b : UInt8) : ∀ c ∈ errorByte b, 32 ≤ c := by
  have hall : ∀ b : UInt8, (errorByte b).all (fun c => decide (32 ≤ c)) = true := Hex.forall_byte (by decide)
  exact fun c hc => of_decide_eq_true (List.all_eq_true.1 (hall b) c hc)

/-- The rows of a reply, if it has any. -/
def Reply.listedRows : Reply → List Row
  | .listed table => Reply.rows table
  | _ => []

set_option maxRecDepth 10000 in
/-- **A put of a reply is a text of one of its rows, or has no control byte.** -/
theorem Reply.of_puts {reply : Reply} {l : List UInt8} (h : l ∈ reply.puts) :
    (∃ row ∈ reply.listedRows, l = row.label.asSlice ∨ l = row.imagePath.asSlice) ∨ ∀ b ∈ l, 32 ≤ b := by
  have hlits : ∀ s ∈ ["\x7b\"reply\":\"created\",\"vm_id\":", "\x7d", "\x7b\"reply\":\"state\",\"vm_id\":",
      ",\"state\":\"", "\"", "\x7b\"reply\":\"deleted\",\"vm_id\":", "\x7b\"reply\":\"listed\",\"rows\":[", "]\x7d",
      "\x7b\"reply\":\"error\",\"message\":\"", "\"\x7d", "\x7b\"reply\":\"image_loaded\",\"len\":", ",\"crc32c\":", ","],
      ∀ b ∈ Text.utf8 s, 32 ≤ b := by decide
  cases reply with
  | created vmId | deleted vmId =>
    simp only [Reply.puts, List.mem_cons, List.not_mem_nil, or_false] at h
    rcases h with rfl | rfl | rfl
    · exact .inr (hlits _ (by simp))
    · exact .inr (decimal_ge _)
    · exact .inr (hlits _ (by simp))
  | state vmId st lastExit =>
    have htag : ∀ b ∈ Text.utf8 st.tag, 32 ≤ b := by cases st <;> decide
    simp only [Reply.puts, List.mem_append, List.mem_cons, List.not_mem_nil, or_false] at h
    rcases h with ((rfl | rfl | rfl | rfl | rfl) | h) | rfl
    · exact .inr (hlits _ (by simp))
    · exact .inr (decimal_ge _)
    · exact .inr (hlits _ (by simp))
    · exact .inr htag
    · exact .inr (hlits _ (by simp))
    · exact .inr fun b hb => putOption_ge (by decide) _ b (List.mem_flatten.2 ⟨l, h, hb⟩)
    · exact .inr (hlits _ (by simp))
  | listed table =>
    have hrows : l ∈ rowsPuts (Reply.rows table) → l = Text.utf8 "," ∨ ∃ row ∈ Reply.rows table, l ∈ row.puts := by
      intro hl
      cases hr : Reply.rows table with
      | nil =>
        rw [hr] at hl
        cases hl
      | cons row rows =>
        rw [hr, rowsPuts, List.mem_append] at hl
        rcases hl with hl | hl
        · exact .inr ⟨row, List.mem_cons_self, hl⟩
        · obtain ⟨row', hrow', hl⟩ := List.mem_flatMap.1 hl
          rcases List.mem_cons.1 hl with rfl | hl
          · exact .inl rfl
          · exact .inr ⟨row', List.mem_cons_of_mem _ hrow', hl⟩
    simp only [Reply.puts, List.mem_append, List.mem_cons, List.not_mem_nil, or_false] at h
    rcases h with (rfl | h) | rfl
    · exact .inr (hlits _ (by simp))
    · rcases hrows h with rfl | ⟨row, hrow, hl⟩
      · exact .inr (hlits _ (by simp))
      · rcases Row.of_puts hl with htext | htext | hge
        · exact .inl ⟨row, hrow, .inl htext⟩
        · exact .inl ⟨row, hrow, .inr htext⟩
        · exact .inr hge
    · exact .inr (hlits _ (by simp))
  | error message =>
    simp only [Reply.puts, List.mem_append, List.mem_cons, List.mem_map, List.not_mem_nil, or_false] at h
    rcases h with (rfl | ⟨b, -, rfl⟩) | rfl
    · exact .inr (hlits _ (by simp))
    · exact .inr (errorByte_ge b)
    · exact .inr (hlits _ (by simp))
  | imageLoaded len crc32c =>
    simp only [Reply.puts, List.mem_cons, List.not_mem_nil, or_false] at h
    rcases h with rfl | rfl | rfl | rfl | rfl
    · exact .inr (hlits _ (by simp))
    · exact .inr (decimal_ge _)
    · exact .inr (hlits _ (by simp))
    · exact .inr (decimal_ge _)
    · exact .inr (hlits _ (by simp))

end Wire

namespace Kernel

/-- No text beside the table holds a newline. -/
def Unbroken (k : Kernel) : Prop :=
  ∀ i, '\n'.toUInt8 ∉ (k.labels i).asSlice ∧ '\n'.toUInt8 ∉ (k.extras i).imagePath.asSlice

variable {k : Kernel}

theorem unbroken_init : Unbroken init := fun _ => ⟨List.not_mem_nil, List.not_mem_nil⟩

theorem Unbroken.dispatch (h : k.Unbroken) (hw : Hardware) {req : Wire.Request}
    (hreq : ∀ c ∈ Creation.ofRequest req, '\n'.toUInt8 ∉ c.label ∧ ∀ p ∈ c.imagePath, '\n'.toUInt8 ∉ p) :
    (k.dispatch hw req).2.Unbroken := by
  cases req with
  | create label imagePath cpuCount memoryMib crc =>
    simp only [Kernel.dispatch]
    rcases k.create_cases hw label imagePath cpuCount memoryMib crc with
      ⟨e, occupied, hc, -⟩ | ⟨i, l, p, -, hl, hp, hc, -⟩
    · rw [hc]
      exact h
    · rw [hc]
      obtain ⟨hlabel, hpath⟩ := hreq _ rfl
      intro j
      simp only [withVm, Function.update_apply]
      split
      · refine ⟨hl ▸ hlabel, hp ▸ ?_⟩
        cases imagePath with
        | none => exact List.not_mem_nil
        | some path => exact hpath path rfl
      · exact h j
  | start vmId | stop vmId =>
    simp only [Kernel.dispatch, stateReply_snd]
    exact h
  | delete vmId =>
    simp only [Kernel.dispatch]
    split
    · exact h
    · rename_i i _ _
      intro j
      simp only [forget, Function.update_apply]
      split
      · exact ⟨List.not_mem_nil, List.not_mem_nil⟩
      · exact h j
  | list => exact h
  | imageLoad len crc32c bytesHex =>
    simp only [Kernel.dispatch]
    split <;> exact h

/-- **No reply of a turn holds a newline**, and none gets into the tables. -/
theorem Unbroken.turn (h : k.Unbroken) (input : Hardware × Line) :
    (k.turn input).2.Unbroken ∧ ∀ reply ∈ (k.turn input).1, '\n'.toUInt8 ∉ reply.puts.flatten := by
  refine ⟨?_, fun reply hreply hmem => ?_⟩
  · unfold Kernel.turn
    cases hframe : readLine input.2 with
    | error e => exact h
    | ok frame =>
      simp only [answer]
      split
      · exact h
      · split
        · exact h
        · rename_i req hdecode
          have hnext : (k.dispatch input.1 req).2.Unbroken := h.dispatch input.1 ?_
          · rcases hd : k.dispatch input.1 req with ⟨_ | _, k'⟩
            · rw [hd] at hnext
              exact hnext
            · rw [hd] at hnext
              exact hnext
          · have hline : '\n'.toUInt8 ∉ frame := by
              simp only [readLine] at hframe
              split at hframe
              · cases hframe
              · cases hframe
                exact fun hin => input.2.property (List.mem_of_mem_filter hin)
            rintro c hc
            cases req with
            | create label imagePath cpuCount memoryMib crc =>
              cases hc
              obtain ⟨hlabel, hpath⟩ := Wire.mem_frame hdecode
              exact ⟨fun hin => hline (hlabel _ hin), fun p hp hin => hline (hpath p hp _ hin)⟩
            | _ => cases hc
  · obtain ⟨l, hl, hin⟩ := List.mem_flatten.1 hmem
    rcases Wire.Reply.of_puts hl with ⟨row, hrow, htext⟩ | hge
    · cases reply with
      | listed table =>
        obtain rfl := turn_listed (Option.mem_def.1 hreply)
        obtain ⟨i, hpres, hi⟩ := mem_rows.1 hrow
        obtain ⟨row', hrow', -, hlabel, hpath, -⟩ := buildRows_present hpres
        obtain rfl : row = row' := Option.some.inj (hi.symm.trans hrow')
        rcases htext with rfl | rfl
        · exact (h i).1 (hlabel ▸ hin)
        · exact (h i).2 (hpath ▸ hin)
      | _ => cases hrow
    · exact absurd (hge _ hin) (by decide)

/-- What is sent for a reply is one line, the last byte its only newline. -/
theorem transmit_line (reply : Wire.Reply) : transmit reply = some (reply.puts.flatten ++ ['\n'.toUInt8]) := by
  have hlen := reply.puts_length
  rw [transmit_eq, if_pos]
  unfold Wire.maxReplyBytes at hlen
  unfold txCap
  omega

/-- What is sent for some replies, cut into lines. -/
theorem cut_replies {replies : List (Option Wire.Reply)}
    (h : ∀ reply, some reply ∈ replies → '\n'.toUInt8 ∉ reply.puts.flatten) :
    ((cut '\n'.toUInt8 (replies.flatMap (fun r => (r.bind transmit).getD []))).1.map (fun l => l.val) =
        replies.filterMap (Option.map fun reply => reply.puts.flatten)) ∧
      (cut '\n'.toUInt8 (replies.flatMap (fun r => (r.bind transmit).getD []))).2 = .empty _ := by
  induction replies with
  | nil => exact ⟨rfl, rfl⟩
  | cons r replies ih =>
    obtain ⟨hlines, hend⟩ := ih fun reply hreply => h reply (List.mem_cons_of_mem _ hreply)
    cases r with
    | none => exact ⟨hlines, hend⟩
    | some reply =>
      rw [List.flatMap_cons, Option.bind_some, transmit_line, Option.getD_some, List.append_assoc,
        List.singleton_append, cut_line _ ⟨reply.puts.flatten, h reply List.mem_cons_self⟩]
      exact ⟨congrArg _ hlines, hend⟩

/-- From a kernel whose texts hold no newline, each reply goes out as a line. -/
theorem cut_sent (h : k.Unbroken) (bytes : List (Hardware × UInt8)) :
    (cut '\n'.toUInt8 (answers onByte (.idle, k) bytes).flatten).1.map (fun l => l.val) =
        (answers turn k (lineInputs bytes)).filterMap (Option.map fun reply => reply.puts.flatten) ∧
      (cut '\n'.toUInt8 (answers onByte (.idle, k) bytes).flatten).2 = .empty _ := by
  have hquiet : ∀ reply, some reply ∈ answers turn k (lineInputs bytes) → '\n'.toUInt8 ∉ reply.puts.flatten := by
    intro reply hmem
    obtain ⟨pre, input, post, -, hreply⟩ := (mem_answers_iff _ _ _).1 hmem
    have hunbroken : (run turn k pre).Unbroken := inv_run (fun k a hk => (hk.turn a).1) h pre
    exact (hunbroken.turn input).2 reply hreply
  rw [(onByte_eq_turns k bytes).1]
  exact cut_replies hquiet

/-- **One line out for each line that is answered.**  Whatever bytes come in after boot, the bytes that go out are
whole lines, the replies to the lines that came in, each one once and in order; a blank line or one that does not fit has
none; and the kernel is where the lines bring it, whatever was in the bytes between and after them. -/
theorem replies_line_by_line (bytes : List (Hardware × UInt8)) :
    (cut '\n'.toUInt8 (answers onByte (.idle, init) bytes).flatten).1.map (fun l => l.val) =
        (answers turn init (lineInputs bytes)).filterMap (Option.map fun reply => reply.puts.flatten) ∧
      (cut '\n'.toUInt8 (answers onByte (.idle, init) bytes).flatten).2 = .empty _ ∧
      (run onByte (.idle, init) bytes).2 = run turn init (lineInputs bytes) :=
  ⟨(cut_sent unbroken_init bytes).1, (cut_sent unbroken_init bytes).2, (onByte_eq_turns init bytes).2⟩

end Kernel

end Celium
