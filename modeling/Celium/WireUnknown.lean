import Celium.WireFrame
/-!
# WireUnknown — JSON values through the scanner

`skip_value` is to pass over a JSON value of any type.  It does, up to the first escape: the bracket it counts is matched
in a value, whatever else is nested in it, and strings are read as a whole, but by the scanner's own `string`, which
refuses the backslash.
-/
namespace Celium
namespace Wire

open JsonText (Blank blank_nil Member quoted IsValue IsBody Bare lastValue members_withComma
  members_length)

def escapesNotAllowed : HyperError := .invalid "wire: escapes not allowed"

theorem stringRest_body {s : List UInt8} (h : IsBody s) (rest : List UInt8) :
    stringRest (s ++ '"'.toUInt8 :: rest) = if '\\'.toUInt8 ∈ s then .error escapesNotAllowed else .ok (s, rest) := by
  have hplain := h.plain
  clear h
  induction s with
  | nil => rfl
  | cons b s ih =>
    by_cases hb : b = '\\'.toUInt8
    · rw [if_pos (hb ▸ List.mem_cons_self), List.cons_append, stringRest, if_neg (hb ▸ by decide), if_pos hb]
      rfl
    · have htake : (b :: s).takeWhile (· ≠ '\\'.toUInt8) = b :: s.takeWhile (· ≠ '\\'.toUInt8) :=
        List.takeWhile_cons_of_pos (decide_eq_true hb)
      rw [htake] at hplain
      obtain ⟨hbyte, hbytes⟩ := List.forall_mem_cons.1 hplain
      rw [List.cons_append, stringRest, if_neg hbyte.1, if_neg hb, ih hbytes]
      by_cases hs : '\\'.toUInt8 ∈ s
      · rw [if_pos hs, if_pos (List.mem_cons_of_mem _ hs)]
      · rw [if_neg hs, if_neg (by rw [List.mem_cons, not_or]; exact ⟨Ne.symm hb, hs⟩)]

theorem mem_between {a o c : UInt8} (ho : a ≠ o) (hc : a ≠ c) {bs : List UInt8} : a ∈ o :: (bs ++ [c]) ↔ a ∈ bs := by
  rw [List.mem_cons, List.mem_append, List.mem_singleton]
  exact ⟨fun h => (h.resolve_left ho).resolve_right hc, fun h => .inr (.inl h)⟩

/-! ## Inside brackets -/

/-- Inside brackets of a kind, the bytes are passed over unless there is an escape among them. -/
def Through (k : Bracket) (bs : List UInt8) : Prop :=
  ∀ d rest, nested k (d + 1) (bs ++ rest) =
    if '\\'.toUInt8 ∈ bs then .error escapesNotAllowed else nested k (d + 1) rest

namespace Through

variable {k : Bracket}

theorem append {as bs : List UInt8} (ha : Through k as) (hb : Through k bs) : Through k (as ++ bs) := by
  intro d rest
  rw [List.append_assoc, ha, hb]
  by_cases h : '\\'.toUInt8 ∈ as
  · rw [if_pos h, if_pos (List.mem_append_left _ h)]
  · simp only [List.mem_append, h, false_or, if_false]

theorem others {bs : List UInt8}
    (h : ∀ b ∈ bs, b ≠ '"'.toUInt8 ∧ b ≠ '\\'.toUInt8 ∧ b ≠ k.opening ∧ b ≠ k.closing) : Through k bs := by
  intro d rest
  rw [if_neg (fun hs => (h _ hs).2.1 rfl)]
  induction bs with
  | nil => rfl
  | cons b bs ih =>
    obtain ⟨⟨hquote, -, ho, hc⟩, hbs⟩ := List.forall_mem_cons.1 h
    rw [List.cons_append, nested_other k d _ hquote ho hc, ih hbs]

theorem other {b : UInt8} (h : b ≠ '"'.toUInt8 ∧ b ≠ '\\'.toUInt8 ∧ b ≠ k.opening ∧ b ≠ k.closing) : Through k [b] :=
  others (List.forall_mem_singleton.2 h)

theorem bare {bs : List UInt8} (h : ∀ b ∈ bs, Bare b) : Through k bs :=
  others (fun b hb => ⟨(h b hb).ne (by decide), (h b hb).ne (by decide), (h b hb).ne (by cases k <;> decide),
    (h b hb).ne (by cases k <;> decide)⟩)

theorem blank {bs : List UInt8} (h : Blank bs) : Through k bs := by
  refine others (fun b hb => ?_)
  have hne : ∀ c : UInt8, JsonText.isBlank c = false → b ≠ c := by
    rintro c hc rfl
    rw [h b hb] at hc
    cases hc
  exact ⟨hne _ (by decide), hne _ (by decide), hne _ (by cases k <;> decide), hne _ (by cases k <;> decide)⟩

theorem string {s : List UInt8} (h : IsBody s) : Through k (quoted s) := by
  intro d rest
  have hmem : '\\'.toUInt8 ∈ quoted s ↔ '\\'.toUInt8 ∈ s := mem_between (by decide) (by decide)
  rw [quoted_append, nested_string, stringRest_body h]
  simp only [hmem]
  by_cases hs : '\\'.toUInt8 ∈ s
  · rw [if_pos hs, if_pos hs]
  · rw [if_neg hs, if_neg hs]

/-- In brackets of the kind that is counted. -/
theorem wrap {bs : List UInt8} (h : Through k bs) : Through k (k.opening :: (bs ++ [k.closing])) := by
  intro d rest
  have hmem : '\\'.toUInt8 ∈ k.opening :: (bs ++ [k.closing]) ↔ '\\'.toUInt8 ∈ bs :=
    mem_between (by cases k <;> decide) (by cases k <;> decide)
  rw [List.cons_append, List.append_assoc, nested_opening, h (d + 1), List.singleton_append, nested_closing]
  simp only [hmem]

/-- In brackets of the other kind. -/
theorem between {bs : List UInt8} (h : Through k bs) {o c : UInt8}
    (ho : o ≠ '"'.toUInt8 ∧ o ≠ '\\'.toUInt8 ∧ o ≠ k.opening ∧ o ≠ k.closing)
    (hc : c ≠ '"'.toUInt8 ∧ c ≠ '\\'.toUInt8 ∧ c ≠ k.opening ∧ c ≠ k.closing) : Through k (o :: (bs ++ [c])) :=
  append (other ho) (append h (other hc))

end Through

/-- **JSON inside brackets.** -/
theorem through_words (k : Bracket) : JsonText.Words (Through k) where
  append := Through.append
  blank := Through.blank
  bare := Through.bare
  string := Through.string
  comma := Through.other (by cases k <;> decide)
  colon := Through.other (by cases k <;> decide)
  array h := by
    cases k with
    | brace => exact h.between (by decide) (by decide)
    | bracket => exact h.wrap
  object h := by
    cases k with
    | brace => exact h.wrap
    | bracket => exact h.between (by decide) (by decide)

/-! ## A whole value -/

/-- **A JSON value is skipped exactly**, unless there is an escape in it. -/
theorem skipValue_value {v : List UInt8} (hv : IsValue v) {lead rest : List UInt8} (hlead : Blank lead)
    (hrest : Stops rest) :
    skipValue (lead ++ (v ++ rest)) = if '\\'.toUInt8 ∈ v then .error escapesNotAllowed else .ok rest := by
  have htoken : (∀ b ∈ v, Bare b) → v ≠ [] →
      skipValue (lead ++ (v ++ rest)) = if '\\'.toUInt8 ∈ v then .error escapesNotAllowed else .ok rest := by
    intro hbare hne
    rw [if_neg (fun h => (hbare _ h).ne (c := '\\'.toUInt8) (by decide) rfl)]
    refine skipValue_skipped hlead (.token (fun b hb => not_delimiter_of_bare (hbare b hb)) (fun b hb => ?_)) hrest
      (fun h => absurd h hne)
    have hb := hbare b (List.mem_of_head? hb)
    exact ⟨hb.ne (by decide), hb.ne (by decide), hb.ne (by decide)⟩
  have hbracket : ∀ (k : Bracket) (bs : List UInt8), Through k bs → v = k.opening :: (bs ++ [k.closing]) →
      skipValue (lead ++ (v ++ rest)) = if '\\'.toUInt8 ∈ v then .error escapesNotAllowed else .ok rest := by
    rintro k bs h rfl
    have hmem : '\\'.toUInt8 ∈ k.opening :: (bs ++ [k.closing]) ↔ '\\'.toUInt8 ∈ bs :=
      mem_between (by cases k <;> decide) (by cases k <;> decide)
    have hskip : skipValue (lead ++ (k.opening :: (bs ++ [k.closing]) ++ rest)) = nested k 1 (bs ++ (k.closing :: rest)) := by
      rw [skipValue, skipWs_blank hlead, List.cons_append, List.append_assoc, List.singleton_append,
        skipWs_of_not (by cases k <;> decide)]
      cases k with
      | brace => rfl
      | bracket => rfl
    rw [hskip, h 0, nested_closing, nested_zero]
    simp only [hmem]
  cases hv with
  | literal h => exact htoken h.bare (by rcases h with rfl | rfl | rfl <;> decide)
  | number h => exact htoken h.bare h.ne_nil
  | @string s h =>
    have hmem : '\\'.toUInt8 ∈ quoted s ↔ '\\'.toUInt8 ∈ s := mem_between (by decide) (by decide)
    rw [skipValue, skipWs_blank hlead, quoted_append, skipWs_of_not (by decide)]
    simp only [if_true, stringRest_body h, hmem]
    by_cases hs : '\\'.toUInt8 ∈ s
    · rw [if_pos hs, if_pos hs]
      rfl
    · rw [if_neg hs, if_neg hs]
      rfl
  | array hinner hes hvs =>
    exact hbracket .bracket _ ((through_words .bracket).elements hinner hes
      (fun e he => (through_words .bracket).value (hvs e he))) (by rw [List.append_assoc]; rfl)
  | object hinner hms hvs =>
    exact hbracket .brace _ ((through_words .brace).pairs hinner hms
      (fun m hm => (through_words .brace).value (hvs m hm))) (by rw [List.append_assoc]; rfl)

/-- **Where a JSON value is skipped**, what is skipped is the value. -/
theorem skipped_unique {v lead rest v' lead' rest' : List UInt8} (hv : IsValue v) (hlead : Blank lead)
    (hrest : Stops rest) (hv' : Skipped v') (hlead' : Blank lead') (hrest' : Stops rest')
    (hnil : v' = [] → skipWs rest' = rest') (h : lead ++ (v ++ rest) = lead' ++ (v' ++ rest')) :
    '\\'.toUInt8 ∉ v ∧ v' = v ∧ rest' = rest := by
  have hskip := skipValue_value hv hlead hrest
  rw [h, skipValue_skipped hlead' hv' hrest' hnil] at hskip
  split at hskip
  · cases hskip
  rename_i hesc
  obtain rfl : rest' = rest := Except.ok.inj hskip
  refine ⟨hesc, ?_, rfl⟩
  -- The blanks before either end at the first byte of the value.
  obtain ⟨b, bs, rfl, hb⟩ := hv.exists_head
  have hws := congrArg skipWs h
  rw [skipWs_blank hlead, skipWs_blank hlead', List.cons_append, skipWs_of_not (show isWs b = false from hb)] at hws
  by_cases hempty : v' = []
  · rw [hempty, List.nil_append, hnil hempty] at hws
    have hlen := congrArg List.length hws
    rw [List.length_cons, List.length_append] at hlen
    omega
  · rw [hv'.skipWs hempty, ← List.cons_append] at hws
    exact (List.append_cancel_right hws).symm

theorem skipped_of_value {v : List UInt8} (hv : IsValue v) (hesc : '\\'.toUInt8 ∉ v) : Skipped v := by
  have hskip := skipValue_value hv blank_nil (stops_comma [])
  rw [if_neg hesc] at hskip
  obtain ⟨lead, v', hlead, hv', h, hnil⟩ := of_skipValue hskip
  obtain ⟨-, rfl, -⟩ := skipped_unique hv blank_nil (stops_comma []) hv' hlead (stops_comma []) hnil h
  exact hv'

/-! ## A member that is not known -/

/-- A member with a JSON value, its key without escapes and not one the reader knows. -/
structure Unknown (m : Member) : Prop where
  spaced : m.Spaced
  key : Unescaped m.key
  unknown : Key.ofBytes m.key = none
  value : IsValue m.value

variable {m : Member}

theorem Unknown.value_ne_nil (h : Unknown m) : m.value ≠ [] := by
  obtain ⟨b, bs, hv, -⟩ := h.value.exists_head
  rw [hv]
  exact List.cons_ne_nil b bs

theorem Unknown.accepted (h : Unknown m) (hesc : '\\'.toUInt8 ∉ m.value) : Accepted m where
  spaced := h.spaced
  key := h.key
  value := by
    rw [Reads, h.unknown]
    exact skipped_of_value h.value hesc
  tight hnil := absurd hnil h.value_ne_nil

theorem Unknown.refused (h : Unknown m) (hesc : '\\'.toUInt8 ∈ m.value) (fuel : Nat) (f : Fields) {rest : List UInt8}
    (hrest : Stops rest) : Fields.readAll (fuel + 1) f (m.bytes ++ rest) = .error escapesNotAllowed := by
  have hread : f.read m.key (m.lead ++ (m.value ++ (m.after ++ rest))) = .error escapesNotAllowed := by
    rw [Fields.read, h.unknown]
    simp only [skipValue_value h.value h.spaced.lead (hrest.blank h.spaced.after), if_pos hesc]
    rfl
  rw [Member.bytes_append, readAll_key fuel f h.spaced.before h.key h.spaced.colon, hread]

theorem Unknown.texts_insert (h : Unknown m) (as bs : List Member) : texts (as ++ m :: bs) = texts (as ++ bs) := by
  funext key
  refine JsonText.lastValue_insert (fun hkey => ?_) as bs
  have hnone := h.unknown
  rw [hkey, ofBytes_name] at hnone
  cases hnone

namespace FrameText

/-- The frame with one more member, after the first `i`. -/
def insert (t : FrameText) (i : Nat) (m : Member) : FrameText :=
  { t with members := t.members.take i ++ m :: t.members.drop i }

variable {t : FrameText}

theorem Accepted.insert (ht : t.Accepted) (i : Nat) (hm : Wire.Accepted m) (hne : m.value ≠ []) :
    (t.insert i m).Accepted where
  members n hn := by
    rcases List.mem_append.1 hn with hn | hn
    · exact ht.members n (List.mem_of_mem_take hn)
    rcases List.mem_cons.1 hn with rfl | hn
    · exact hm
    · exact ht.members n (List.mem_of_mem_drop hn)
  inner := ht.inner
  tail := ht.tail
  comma _ := List.append_ne_nil_of_right_ne_nil _ (List.cons_ne_nil _ _)
  tight hc := by
    refine (ht.tight hc).imp_right (fun hvalues n hn => ?_)
    rcases List.mem_append.1 hn with hn | hn
    · exact hvalues n (List.mem_of_mem_take hn)
    rcases List.mem_cons.1 hn with rfl | hn
    · exact hne
    · exact hvalues n (List.mem_of_mem_drop hn)

/-- **Without an escape in its value**, a member that is not known changes nothing. -/
theorem Accepted.decode_insert (ht : t.Accepted) (i : Nat) (hm : Unknown m) (hesc : '\\'.toUInt8 ∉ m.value) :
    decodeRequest (t.insert i m).bytes = decodeRequest t.bytes := by
  rw [(ht.insert i (hm.accepted hesc) hm.value_ne_nil).decode, ht.decode, fields, fields, FrameText.insert,
    hm.texts_insert, List.take_append_drop]

/-- **With one**, the frame is refused. -/
theorem Accepted.refuse_insert (ht : t.Accepted) (i : Nat) (hm : Unknown m) (hesc : '\\'.toUInt8 ∈ m.value) :
    decodeRequest (t.insert i m).bytes = .error escapesNotAllowed := by
  have hrest : Stops (if t.members.drop i = [] then t.closing
      else ','.toUInt8 :: (Json.members ((t.members.drop i).map Member.bytes) ++ t.closing)) := by
    split
    · exact ht.stops_closing
    · exact stops_comma _
  have hlen : (t.members.take i).length + 1 ≤ (t.insert i m).bytes.length := by
    have hmembers : (t.insert i m).members.length = (t.members.take i).length + ((t.members.drop i).length + 1) := by
      rw [FrameText.insert, List.length_append, List.length_cons]
    have hbytes := members_length (t.insert i m).members
    rw [FrameText.bytes, List.length_cons, List.length_append]
    omega
  obtain ⟨fuel, hfuel⟩ : ∃ fuel, (t.insert i m).bytes.length = fuel + 1 + (t.members.take i).length :=
    ⟨(t.insert i m).bytes.length - (1 + (t.members.take i).length), by omega⟩
  have hprefix := readAll_prefix (fuel + 1) [] (t.members.take i) (fun n hn => ht.members n (List.mem_of_mem_take hn))
    (Json.members ((m :: t.members.drop i).map Member.bytes) ++ t.closing)
  rw [List.map_cons, JsonText.members_append, hm.refused hesc fuel _ (by simpa using hrest)] at hprefix
  have hread : Fields.readAll (t.insert i m).bytes.length {}
      (Json.members ((t.insert i m).members.map Member.bytes) ++ (t.insert i m).closing) = .error escapesNotAllowed := by
    rw [hfuel, FrameText.insert, members_withComma _ (List.cons_ne_nil m _), List.append_assoc, List.map_cons,
      JsonText.members_append]
    exact hprefix
  rw [decodeRequest, FrameText.bytes, expect, if_pos rfl, ← FrameText.bytes]
  simp only [hread]

end FrameText

/-- **A member the reader does not know is ignored exactly if there is no escape in its value**, whatever the value is and
wherever in an accepted frame the member stands. -/
theorem unknown_member_ignored_iff {frame : List UInt8} {r : Request} (h : decodeRequest frame = .ok r) :
    (∃ t : FrameText, t.Accepted ∧ t.bytes = frame) ∧
      ∀ (t : FrameText) (i : Nat) (m : Member), t.Accepted → t.bytes = frame → Unknown m →
        (decodeRequest (t.insert i m).bytes = .ok r ↔ '\\'.toUInt8 ∉ m.value) := by
  refine ⟨FrameText.exists_accepted h, ?_⟩
  rintro t i m ht rfl hm
  constructor
  · intro hr hesc
    rw [ht.refuse_insert i hm hesc] at hr
    cases hr
  · intro hesc
    rw [ht.decode_insert i hm hesc, h]

def listText : FrameText := ⟨[⟨[], Text.utf8 "op", [], [], quoted (Text.utf8 "list"), []⟩], false, [], []⟩

theorem listText_accepted : listText.Accepted where
  members := List.forall_mem_singleton.2
    ⟨⟨blank_nil, blank_nil, blank_nil, blank_nil⟩, by decide, ⟨Text.utf8 "list", by decide, rfl⟩, fun _ => rfl⟩
  inner := blank_nil
  tail := blank_nil
  comma h := by cases h
  tight _ := .inl rfl

/-- A member of a later version, with the value `v`. -/
def laterMember (v : List UInt8) : Member := ⟨[], Text.utf8 "note", [], [], v, []⟩

theorem laterMember_unknown {v : List UInt8} (h : IsValue v) : Unknown (laterMember v) :=
  ⟨⟨blank_nil, blank_nil, blank_nil, blank_nil⟩, show Unescaped (Text.utf8 "note") by decide, rfl, h⟩

theorem unknown_member_ignored_null :
    decodeRequest (listText.insert 0 (laterMember nullText)).bytes = .ok .list ↔ '\\'.toUInt8 ∉ nullText :=
  (@unknown_member_ignored_iff listText.bytes .list rfl).2 listText 0 (laterMember nullText) listText_accepted rfl
    (laterMember_unknown (.literal (.inl rfl)))

/-- The string of a line feed. -/
def newlineText : List UInt8 := quoted ['\\'.toUInt8, 'n'.toUInt8]

theorem escaped_member_refused :
    decodeRequest listText.bytes = .ok .list ∧ listText.Accepted ∧ Unknown (laterMember newlineText) ∧
      decodeRequest (listText.insert 0 (laterMember newlineText)).bytes = .error (.invalid "wire: escapes not allowed") :=
  ⟨rfl, listText_accepted, laterMember_unknown (.string (.escape (by decide) .nil)), rfl⟩

end Wire
end Celium
