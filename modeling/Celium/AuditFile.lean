import Celium.Lib.Lines
import Celium.Lib.Runs
import Celium.Runtime
/-!
# AuditFile — the audit log on disk

`FileAuditSink` of `celtenancy`.  A call appends the event's line and looks at nothing; the readers take the file line by
line and pass over a line that is no event.  So the start of a line that a killed process leaves behind is passed over as
long as nothing is appended to it.
-/
namespace Celium

open Runs Text

/-- `serde_json` on audit events. -/
structure EventCodec where
  encode : AuditEvent → String
  fromStr : String → Option AuditEvent

/-- One call of `record`: its event, and how many bytes of the event's line reach the file.  With fewer bytes than the line
has the call was cut off, and its process ended. -/
structure RecordCall where
  event : AuditEvent
  written : Nat

namespace EventCodec

variable (codec : EventCodec)

/-- What `record` appends. -/
def line (e : AuditEvent) : List UInt8 := Text.utf8 (codec.encode e) ++ [10]

/-- The file after a call. -/
def record (file : List UInt8) (call : RecordCall) : Unit × List UInt8 :=
  ((), file ++ (codec.line call.event).take call.written)

/-- The event of a line, if it has one. -/
def readLine (l : List Char) : Option AuditEvent :=
  if trim l = [] then none else codec.fromStr (String.ofList (trim l))

def readAll (file : List UInt8) : List AuditEvent := (lines (lossy file)).filterMap codec.readLine

def tail (file : List UInt8) (n : Nat) : List AuditEvent :=
  (codec.readAll file).drop ((codec.readAll file).length - n)

/-- The events of the calls that were not cut off, in order. -/
def completed (calls : List RecordCall) : List AuditEvent :=
  (calls.filter (fun call => decide ((codec.line call.event).length ≤ call.written))).map RecordCall.event

/-- The text of an event is one line without blanks at its ends, it is read back, and no proper start of it is read as an
event, as much as there is to see of it. -/
structure Good (e : AuditEvent) : Prop where
  nonempty : codec.encode e ≠ ""
  oneLine : '\n' ∉ (codec.encode e).toList
  trimmed : trim (codec.encode e).toList = (codec.encode e).toList
  decodes : codec.fromStr (codec.encode e) = some e
  torn : ∀ k < (Text.utf8 (codec.encode e)).length,
    codec.fromStr (String.ofList (trim (lossy ((Text.utf8 (codec.encode e)).take k)))) = none

/-- A call that writes anything finds the file at the start of a line, and is not cut off between the event and its
newline. -/
def Clean (file : List UInt8) (call : RecordCall) : Prop :=
  (call.written = 0 ∨ file = [] ∨ file.getLast? = some 10) ∧ call.written ≠ (Text.utf8 (codec.encode call.event)).length

variable {codec}

/-! ## What is read of a file -/

theorem readAll_append {whole : List UInt8} (h : whole = [] ∨ whole.getLast? = some 10) (rest : List UInt8) :
    codec.readAll (whole ++ rest) = codec.readAll whole ++ codec.readAll rest := by
  rcases h with rfl | h
  · rfl
  · obtain ⟨start, rfl⟩ := List.getLast?_eq_some_iff.1 h
    have hnewline : ∀ bs, lossy (start ++ 10 :: bs) = lossy start ++ '\n' :: lossy bs := fun bs =>
      lossy_append (by decide) start bs
    rw [List.append_assoc, List.singleton_append, readAll, hnewline, lines_append, List.filterMap_append, readAll, readAll,
      hnewline]
    rfl

/-- A start of a line that is no event is passed over. -/
theorem readAll_part {part : List UInt8} (hline : (10 : UInt8) ∉ part)
    (hnone : codec.readLine (lossy part) = none) : codec.readAll part = [] := by
  cases part with
  | nil => rfl
  | cons b bs =>
    have hplain : '\n' ∉ lossy (b :: bs) := fun h => hline (newline_of_lossy h)
    have hne : lossy (b :: bs) ≠ [] := by
      rw [lossy_cons]
      exact List.cons_ne_nil _ _
    rw [readAll, lines_plain hplain hne, List.filterMap_cons_none hnone, List.filterMap_nil]

theorem Good.readLine {e : AuditEvent} (h : codec.Good e) : codec.readLine (codec.encode e).toList = some e := by
  have hne : (codec.encode e).toList ≠ [] := fun hnil => h.nonempty (String.toList_eq_nil_iff.1 hnil)
  rw [EventCodec.readLine, h.trimmed, if_neg hne, String.ofList_toList, h.decodes]

/-- **A whole line is read as its event.** -/
theorem Good.readAll_line {e : AuditEvent} (h : codec.Good e) : codec.readAll (codec.line e) = [e] := by
  have hcr : (codec.encode e).toList.getLast? ≠ some '\r' := by
    intro hlast
    rw [← h.trimmed] at hlast
    exact absurd (getLast?_trim hlast) (by decide)
  have hbytes : lossy (codec.line e) = (codec.encode e).toList ++ ['\n'] := by
    rw [line, lossy_append (by decide), lossy_utf8]
    rfl
  rw [readAll, hbytes, lines_newline h.oneLine hcr, List.filterMap_cons_some h.readLine, List.filterMap_nil]

theorem Good.newline_not_mem {e : AuditEvent} (h : codec.Good e) : (10 : UInt8) ∉ Text.utf8 (codec.encode e) := by
  intro hmem
  have hchar := mem_lossy_of_newline hmem
  rw [lossy_utf8] at hchar
  exact h.oneLine hchar

/-! ## Calls -/

/-- The file is a text in whole lines, which reads as `es`, and the start of a line that reads as nothing. -/
def Intact (codec : EventCodec) (file : List UInt8) (es : List AuditEvent) : Prop :=
  ∃ whole part, file = whole ++ part ∧ (whole = [] ∨ whole.getLast? = some 10) ∧ codec.readAll whole = es ∧
    (10 : UInt8) ∉ part ∧ codec.readLine (lossy part) = none

theorem Intact.readAll {file : List UInt8} {es : List AuditEvent} (h : codec.Intact file es) : codec.readAll file = es := by
  obtain ⟨whole, part, rfl, hwhole, hes, hline, hnone⟩ := h
  rw [readAll_append hwhole, readAll_part hline hnone, List.append_nil, hes]

/-- **The step.**  Of an intact file a clean call leaves an intact one, with the event of the call if it was not cut
off. -/
theorem Intact.record {file : List UInt8} {es : List AuditEvent} {call : RecordCall} (h : codec.Intact file es)
    (hgood : codec.Good call.event) (hclean : codec.Clean file call) :
    codec.Intact (codec.record file call).2 (es ++ codec.completed [call]) := by
  obtain ⟨hstart, hcut⟩ := hclean
  have hlength : (codec.line call.event).length = (Text.utf8 (codec.encode call.event)).length + 1 := by
    rw [line, List.length_append]
    rfl
  have hpos : 0 < (Text.utf8 (codec.encode call.event)).length := by
    rw [List.length_pos_iff, Ne, utf8_eq_nil]
    exact hgood.nonempty
  change codec.Intact (file ++ (codec.line call.event).take call.written) _
  rcases Nat.eq_zero_or_pos call.written with hzero | hwritten
  · have hnone : codec.completed [call] = [] := by
      rw [completed, List.filter_cons_of_neg (by simp only [decide_eq_true_eq]; omega)]
      rfl
    rw [hzero, List.take_zero, List.append_nil, hnone, List.append_nil]
    exact h
  have hwhole : file = [] ∨ file.getLast? = some 10 := hstart.resolve_left (Nat.ne_of_gt hwritten)
  have hread : codec.readAll file = es := h.readAll
  by_cases hdone : (codec.line call.event).length ≤ call.written
  · have hsome : codec.completed [call] = [call.event] := by
      rw [completed, List.filter_cons_of_pos (by simpa using hdone)]
      rfl
    have hlast : (file ++ codec.line call.event).getLast? = some 10 := by
      rw [line, ← List.append_assoc, List.getLast?_concat]
    rw [List.take_of_length_le hdone, hsome]
    refine ⟨file ++ codec.line call.event, [], (List.append_nil _).symm, .inr hlast, ?_, List.not_mem_nil, rfl⟩
    rw [readAll_append hwhole, hread, hgood.readAll_line]
  · have hnone : codec.completed [call] = [] := by
      rw [completed, List.filter_cons_of_neg (by simpa using hdone)]
      rfl
    have hshort : call.written < (Text.utf8 (codec.encode call.event)).length := by omega
    have htake : (codec.line call.event).take call.written = (Text.utf8 (codec.encode call.event)).take call.written := by
      rw [line, List.take_append_of_le_length (Nat.le_of_lt hshort)]
    rw [hnone, List.append_nil, htake]
    refine ⟨file, _, rfl, hwhole, hread, fun hmem => hgood.newline_not_mem (List.mem_of_mem_take hmem), ?_⟩
    rw [readLine, hgood.torn _ hshort, ite_self]

theorem completed_append (calls calls' : List RecordCall) :
    codec.completed (calls ++ calls') = codec.completed calls ++ codec.completed calls' := by
  simp only [completed, List.filter_append, List.map_append]

theorem Intact.run {calls : List RecordCall} (hgood : ∀ call ∈ calls, codec.Good call.event) :
    ∀ {file : List UInt8} {es : List AuditEvent}, codec.Intact file es →
      Along codec.record codec.Clean file calls →
        codec.Intact (Runs.run codec.record file calls) (es ++ codec.completed calls) := by
  induction calls with
  | nil =>
    intro file es h _
    rw [show codec.completed [] = [] from rfl, List.append_nil]
    exact h
  | cons call calls ih =>
    intro file es h hclean
    have hstep := h.record (hgood call List.mem_cons_self) hclean.1
    have hrest := ih (fun c hc => hgood c (List.mem_cons_of_mem _ hc)) hstep hclean.2
    rwa [List.append_assoc, ← completed_append, List.singleton_append] at hrest

/-- **The readers give the events of the calls that were not cut off**, after every run of clean calls from an empty file:
all of them, in order, and as many of the last ones as are asked for. -/
theorem readAll_eq_completed {calls : List RecordCall} (hgood : ∀ call ∈ calls, codec.Good call.event)
    (hclean : Along codec.record codec.Clean [] calls) :
    codec.readAll (run codec.record [] calls) = codec.completed calls ∧
      ∀ n, codec.tail (run codec.record [] calls) n = ((codec.completed calls).reverse.take n).reverse := by
  have hintact : codec.Intact [] [] := ⟨[], [], rfl, .inl rfl, rfl, List.not_mem_nil, rfl⟩
  have hread := (Intact.run hgood hintact hclean).readAll
  rw [List.nil_append] at hread
  refine ⟨hread, fun n => ?_⟩
  rw [tail, hread, List.take_reverse, List.reverse_reverse]

/-! ## Two events -/

/-- A charge at `ms`. -/
def chargeAt (ms : UInt64) : AuditEvent := .now ms "acme" .charge

/-- Its text. -/
def chargeText (ms : Nat) : List Char :=
  "\x7b\"timestamp_millis\":".toList ++ Nat.toDigits 10 ms ++ ",\"tenant\":\"acme\",".toList ++
    "\"user\":null,\"action\":".toList ++ "\"charge\",".toList ++ "\"op_capability_tag\":".toList ++
    "null,\"charge\":null,".toList ++ "\"success\":true,".toList ++ "\"error\":null,".toList ++
    "\"note\":null\x7d".toList

/-- `serde_json` as far as two events go. -/
def twoCharges : EventCodec where
  encode e := String.ofList (chargeText e.timestampMillis.toNat)
  fromStr s :=
    if s.toList = chargeText 1 then some (chargeAt 1) else if s.toList = chargeText 2 then some (chargeAt 2) else none

theorem twoCharges_encode (ms : UInt64) : twoCharges.encode (chargeAt ms) = String.ofList (chargeText ms.toNat) := rfl

theorem twoCharges_fromStr (cs : List Char) : twoCharges.fromStr (String.ofList cs) =
    if cs = chargeText 1 then some (chargeAt 1) else if cs = chargeText 2 then some (chargeAt 2) else none := by
  simp only [twoCharges, String.toList_ofList]

theorem chargeText_plain : ∀ ms ∈ [1, 2], '\n' ∉ chargeText ms ∧ trim (chargeText ms) = chargeText ms ∧
    (chargeText ms).length = 147 ∧ (chargeText ms).all (fun c => decide (c.toNat < 128)) = true := by
  decide +kernel

/-- Both texts have the same length, so no proper start of one is either of them. -/
theorem twoCharges_torn {bs : List UInt8} (h : bs.length < 147) :
    twoCharges.fromStr (String.ofList (trim (lossy bs))) = none := by
  have hshort : (trim (lossy bs)).length < 147 :=
    Nat.lt_of_le_of_lt (Nat.le_trans (trim_length_le _) (lossy_length_le _)) h
  have hne : ∀ ms ∈ [1, 2], trim (lossy bs) ≠ chargeText ms := by
    intro ms hms heq
    have hlen := (chargeText_plain ms hms).2.2.1
    rw [← heq] at hlen
    omega
  rw [twoCharges_fromStr, if_neg (hne 1 List.mem_cons_self), if_neg (hne 2 (List.mem_cons_of_mem _ List.mem_cons_self))]

theorem twoCharges_good {ms : UInt64} (hms : ms.toNat ∈ [1, 2])
    (hdecodes : twoCharges.fromStr (twoCharges.encode (chargeAt ms)) = some (chargeAt ms)) :
    twoCharges.Good (chargeAt ms) := by
  obtain ⟨hline, htrim, hlen, hascii⟩ := chargeText_plain _ hms
  have htext : (twoCharges.encode (chargeAt ms)).toList = chargeText ms.toNat := by
    rw [twoCharges_encode, String.toList_ofList]
  have hbytes : (Text.utf8 (twoCharges.encode (chargeAt ms))).length = 147 := by
    rw [twoCharges_encode, utf8_ascii fun c hc => of_decide_eq_true (List.all_eq_true.1 hascii c hc), List.length_map]
    exact hlen
  constructor
  · intro hnil
    rw [hnil] at hbytes
    cases hbytes
  · rw [htext]
    exact hline
  · rw [htext]
    exact htrim
  · exact hdecodes
  · intro k hk
    rw [hbytes] at hk
    refine twoCharges_torn ?_
    rw [List.length_take]
    omega

theorem twoCharges_first : twoCharges.Good (chargeAt 1) := by
  refine twoCharges_good List.mem_cons_self ?_
  rw [twoCharges_encode, twoCharges_fromStr]
  exact if_pos rfl

theorem chargeText_inj : chargeText 2 ≠ chargeText 1 := by decide +kernel

theorem twoCharges_second : twoCharges.Good (chargeAt 2) := by
  refine twoCharges_good (List.mem_cons_of_mem _ List.mem_cons_self) ?_
  rw [twoCharges_encode, twoCharges_fromStr]
  exact (if_neg chargeText_inj).trans (if_pos rfl)

theorem line_length {ms : UInt64} (hms : ms.toNat ∈ [1, 2]) : (twoCharges.line (chargeAt ms)).length = 148 := by
  obtain ⟨-, -, hlen, hascii⟩ := chargeText_plain _ hms
  rw [line, twoCharges_encode, utf8_ascii fun c hc => of_decide_eq_true (List.all_eq_true.1 hascii c hc),
    List.length_append, List.length_map, hlen]
  rfl

/-- A whole line, and then the start of another. -/
def tornLast : List RecordCall := [⟨chargeAt 1, 148⟩, ⟨chargeAt 2, 20⟩]

theorem tornLast_read : twoCharges.readAll (run twoCharges.record [] tornLast) = twoCharges.completed tornLast ∧
    ∀ n, twoCharges.tail (run twoCharges.record [] tornLast) n = ((twoCharges.completed tornLast).reverse.take n).reverse := by
  have hlines : ∀ ms : UInt64, ms.toNat ∈ [1, 2] → (Text.utf8 (twoCharges.encode (chargeAt ms))).length = 147 := by
    intro ms hms
    have hlen := line_length hms
    rw [line, List.length_append] at hlen
    exact Nat.succ.inj hlen
  refine readAll_eq_completed ?_ ⟨⟨.inr (.inl rfl), ?_⟩, ⟨.inr (.inr ?_), ?_⟩, trivial⟩
  · intro call hcall
    rcases List.mem_cons.1 hcall with rfl | hcall
    · exact twoCharges_first
    · rw [List.mem_singleton.1 hcall]
      exact twoCharges_second
  · rw [hlines 1 List.mem_cons_self]
    decide
  · change ([] ++ (twoCharges.line (chargeAt 1)).take 148).getLast? = some 10
    rw [List.nil_append, List.take_of_length_le (Nat.le_of_eq (line_length List.mem_cons_self)), line, List.getLast?_concat]
  · rw [hlines 2 (List.mem_cons_of_mem _ List.mem_cons_self)]
    decide

/-- The start of a line, and then a whole one. -/
def tornFirst : List RecordCall := [⟨chargeAt 2, 1⟩, ⟨chargeAt 1, 148⟩]

/-- The first event after the start of the second. -/
theorem braced_plain : '\n' ∉ '\x7b' :: chargeText 1 ∧ ('\x7b' :: chargeText 1).getLast? = some '\x7d' ∧
    (trim ('\x7b' :: chargeText 1)).take 2 = ['\x7b', '\x7b'] ∧ (chargeText 1).take 2 = ['\x7b', '"'] ∧
    (chargeText 2).take 2 = ['\x7b', '"'] := by decide +kernel

theorem run_tornFirst : run twoCharges.record [] tornFirst = Text.utf8 (String.ofList ('\x7b' :: chargeText 1)) ++ [10] := by
  obtain ⟨cs, hcs⟩ : ∃ cs, chargeText 2 = '\x7b' :: cs := by
    have htake := braced_plain.2.2.2.2
    cases hcs : chargeText 2 with
    | nil =>
      rw [hcs] at htake
      cases htake
    | cons c cs =>
      rw [hcs] at htake
      exact ⟨cs, by rw [(List.cons.inj htake).1]⟩
  have hstart : (twoCharges.line (chargeAt 2)).take 1 = [0x7b] := by
    change (Text.utf8 (String.ofList (chargeText 2)) ++ [10]).take 1 = [0x7b]
    rw [utf8_ofList, hcs, List.flatMap_cons]
    rfl
  have hwhole : (twoCharges.line (chargeAt 1)).take 148 = twoCharges.line (chargeAt 1) :=
    List.take_of_length_le (Nat.le_of_eq (line_length List.mem_cons_self))
  change ([] ++ (twoCharges.line (chargeAt 2)).take 1) ++ (twoCharges.line (chargeAt 1)).take 148 = _
  rw [hstart, hwhole, line, twoCharges_encode, utf8_ofList, utf8_ofList, List.flatMap_cons, List.append_assoc]
  rfl

/-- **A torn line takes the next event with it.** -/
theorem torn_line_swallows_next : twoCharges.Good (chargeAt 1) ∧ twoCharges.Good (chargeAt 2) ∧
    twoCharges.completed tornFirst = [chargeAt 1] ∧ twoCharges.readAll (run twoCharges.record [] tornFirst) = [] := by
  obtain ⟨hline, hlast, htrim, hone, htwo⟩ := braced_plain
  have hcr : ('\x7b' :: chargeText 1).getLast? ≠ some '\r' := by
    rw [hlast]
    decide
  have hne : ∀ cs : List Char, cs.take 2 = ['\x7b', '"'] → trim ('\x7b' :: chargeText 1) ≠ cs := by
    rintro cs hcs rfl
    rw [htrim] at hcs
    exact absurd hcs (by decide)
  have hread : twoCharges.readLine ('\x7b' :: chargeText 1) = none := by
    rw [readLine, twoCharges_fromStr, if_neg (hne _ hone), if_neg (hne _ htwo), ite_self]
  refine ⟨twoCharges_first, twoCharges_second, ?_, ?_⟩
  · have hlong : (twoCharges.line (chargeAt 1)).length = 148 := line_length List.mem_cons_self
    have hshort : (twoCharges.line (chargeAt 2)).length = 148 := line_length (List.mem_cons_of_mem _ List.mem_cons_self)
    simp only [completed, tornFirst, List.filter_cons, hlong, hshort]
    rfl
  · have hlossy : lossy (run twoCharges.record [] tornFirst) = ('\x7b' :: chargeText 1) ++ ['\n'] := by
      rw [run_tornFirst, lossy_append (by decide), lossy_utf8, String.toList_ofList]
      rfl
    rw [readAll, hlossy, lines_newline hline hcr, List.filterMap_cons_none hread, List.filterMap_nil]

end EventCodec

end Celium
