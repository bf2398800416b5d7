import Celium.KernelRows
import Celium.WireUnknown
/-!
# WireJson — frames that are JSON

The reader is to accept JSON objects and nothing else, and to refuse the rest as invalid.  What it takes beyond JSON are a
comma before the closing brace, control characters and bytes that are not UTF-8 in strings, zeros in front of a number,
and whatever stands where it skips a value.
-/
namespace Celium
namespace Wire

open JsonText (Blank blank_nil Member quoted IsValue IsBody lastValue IsObjectText)

/-! ## What the reader is to do -/

/-- `v` is what the last member with the key says. -/
def Says (ms : List Member) (key : Key) (v : List UInt8) : Prop := lastValue ms (Text.utf8 key.name) = some v

/-- The same, of a field that may be left out or `null`. -/
def MaySay (ms : List Member) (key : Key) : Option (List UInt8) → Prop
  | some v => Says ms key v
  | none   => lastValue ms (Text.utf8 key.name) = none ∨ Says ms key nullText

/-- The members have the fields the request requires, with its values, within the bounds of the wire. -/
def Carries (ms : List Member) : Request → Prop
  | .create label imagePath cpuCount memoryMib bootBlobCrc32c =>
    Says ms .op (quoted (Text.utf8 "create")) ∧ Says ms .label (quoted label) ∧ MaySay ms .imagePath (imagePath.map quoted) ∧
      MaySay ms .cpuCount (cpuCount.map (fun n => Json.decimal n.toNat)) ∧
      MaySay ms .memoryMib (memoryMib.map (fun n => Json.decimal n.toNat)) ∧
      MaySay ms .bootBlobCrc32c (bootBlobCrc32c.map (fun n => Json.decimal n.toNat)) ∧
      label.length ≤ labelMax ∧ ∀ p ∈ imagePath, p.length ≤ imagePathMax
  | .start vmId => Says ms .op (quoted (Text.utf8 "start")) ∧ Says ms .vmId (Json.decimal vmId.toNat)
  | .stop vmId => Says ms .op (quoted (Text.utf8 "stop")) ∧ Says ms .vmId (Json.decimal vmId.toNat)
  | .delete vmId => Says ms .op (quoted (Text.utf8 "delete")) ∧ Says ms .vmId (Json.decimal vmId.toNat)
  | .list => Says ms .op (quoted (Text.utf8 "list"))
  | .imageLoad len crc32c bytesHex =>
    Says ms .op (quoted (Text.utf8 "image_load")) ∧ Says ms .len (Json.decimal len.toNat) ∧
      Says ms .crc32c (Json.decimal crc32c.toNat) ∧ Says ms .bytesHex (quoted bytesHex) ∧
      bytesHex.length = 2 * len.toNat

/-- What the reader is to make of a frame. -/
def AcceptsOnlyJson (frame : List UInt8) : Prop :=
  match decodeRequest frame with
  | .ok r    => ∃ ms, IsObjectText frame ms ∧ Carries ms r
  | .error e => ∃ msg, e = .invalid msg

/-! ## The frames for which it does -/

/-- The members the reader takes are JSON, and so is the way they are put together. -/
structure FrameText.Clean (t : FrameText) : Prop where
  comma : t.comma = false
  key : ∀ m ∈ t.members, Kernel.Legible m.key
  text : ∀ m ∈ t.members, Key.ofBytes m.key ≠ none → ∀ s, m.value = quoted s → Kernel.Legible s
  number : ∀ m ∈ t.members, Key.ofBytes m.key ≠ none → m.value.head? = some '0'.toUInt8 → m.value = ['0'.toUInt8]
  skipped : ∀ m ∈ t.members, Key.ofBytes m.key = none → IsValue m.value

/-- The frame is one the reader gets through, and its fields make a request. -/
def Taken (frame : List UInt8) : Prop := ∃ t : FrameText, t.Accepted ∧ t.bytes = frame ∧ ∃ r, t.fields.request = .ok r

/-- The frame is one the reader gets through, and clean. -/
def TakenClean (frame : List UInt8) : Prop := ∃ t : FrameText, t.Accepted ∧ t.bytes = frame ∧ t.Clean

/-! ## Refusals -/

/-- The only errors are those of an invalid input. -/
def OnlyInvalid {α : Type} (x : HyperResult α) : Prop := ∀ e, x = .error e → ∃ msg, e = .invalid msg

namespace OnlyInvalid

theorem ok {α : Type} (a : α) : OnlyInvalid (.ok a) := fun e h => by cases h

theorem error {α : Type} (msg : String) : OnlyInvalid (.error (.invalid msg) : HyperResult α) := by
  rintro e ⟨⟩
  exact ⟨msg, rfl⟩

theorem map {α β : Type} {x : HyperResult α} (h : OnlyInvalid x) (f : α → β) : OnlyInvalid (x.map f) := by
  cases x with
  | error e =>
    rintro e' ⟨⟩
    exact h e rfl
  | ok a => exact ok (f a)

theorem bind {α β : Type} {x : HyperResult α} (h : OnlyInvalid x) {f : α → HyperResult β} (hf : ∀ a, OnlyInvalid (f a)) :
    OnlyInvalid (x >>= f) := by
  cases x with
  | error e =>
    rintro e' ⟨⟩
    exact h e rfl
  | ok a => exact hf a

end OnlyInvalid

theorem expect_invalid (want : UInt8) (bs : List UInt8) : OnlyInvalid (expect want bs) := by
  cases bs with
  | nil => exact .error _
  | cons b bs =>
    rw [expect]
    split
    · exact .ok _
    · exact .error _

theorem stringRest_invalid (bs : List UInt8) : OnlyInvalid (stringRest bs) := by
  induction bs with
  | nil => exact .error _
  | cons b bs ih =>
    rw [stringRest]
    split
    · exact .ok _
    split
    · exact .error _
    split
    · rename_i e he
      rintro e' ⟨⟩
      exact ih e he
    · exact .ok _

theorem string_invalid (bs : List UInt8) : OnlyInvalid (string bs) := by
  rw [string]
  split
  · rename_i e he
    rintro e' ⟨⟩
    exact expect_invalid _ _ e he
  · exact stringRest_invalid _

theorem number_invalid (size : Nat) (overflow : String) (bs : List UInt8) : OnlyInvalid (number size overflow bs) := by
  rw [number]
  split
  · exact .error _
  split
  · exact .error _
  · exact .ok _

theorem orNull_invalid {α : Type} {value : List UInt8 → HyperResult (α × List UInt8)} (h : ∀ bs, OnlyInvalid (value bs))
    (bs : List UInt8) : OnlyInvalid (orNull value bs) := by
  rw [orNull]
  split
  · exact .ok _
  · exact (h bs).map _

theorem nested_invalid (k : Bracket) (d : Nat) (bs : List UInt8) : OnlyInvalid (nested k d bs) := by
  induction hn : bs.length using Nat.strongRecOn generalizing d bs with
  | _ n ih =>
    cases d with
    | zero =>
      rw [nested_zero]
      exact .ok _
    | succ d =>
      cases bs with
      | nil => exact .error _
      | cons b bs =>
        rw [List.length_cons] at hn
        by_cases hquote : b = '"'.toUInt8
        · rw [hquote, nested_string]
          split
          · rename_i e he
            rintro e' ⟨⟩
            exact stringRest_invalid _ e he
          · rename_i p hp
            have hbs : bs = p.1 ++ '"'.toUInt8 :: p.2 := (of_stringRest hp).2
            have hlen := congrArg List.length hbs
            rw [List.length_append, List.length_cons] at hlen
            exact ih p.2.length (by omega) (d + 1) p.2 rfl
        by_cases ho : b = k.opening
        · rw [ho, nested_opening]
          exact ih bs.length (by omega) (d + 2) bs rfl
        by_cases hc : b = k.closing
        · rw [hc, nested_closing]
          exact ih bs.length (by omega) d bs rfl
        · rw [nested_other k d bs hquote ho hc]
          exact ih bs.length (by omega) (d + 1) bs rfl

theorem skipValue_invalid (bs : List UInt8) : OnlyInvalid (skipValue bs) := by
  rw [skipValue]
  split
  · exact .error _
  split
  · exact (stringRest_invalid _).map _
  split
  · exact nested_invalid .brace 1 _
  split
  · exact nested_invalid .bracket 1 _
  · exact .ok _

theorem readKnown_invalid (f : Fields) (key : Key) (bs : List UInt8) : OnlyInvalid (f.readKnown key bs) := by
  have h32 : ∀ bs, OnlyInvalid (u32Value bs) := fun bs => (number_invalid _ _ bs).map _
  have h64 : ∀ bs, OnlyInvalid (u64Value bs) := fun bs => (number_invalid _ _ bs).map _
  cases key with
  | op | label | bytesHex => exact (string_invalid bs).map _
  | vmId | len | crc32c => exact (h32 bs).map _
  | imagePath => exact (orNull_invalid string_invalid bs).map _
  | cpuCount | bootBlobCrc32c => exact (orNull_invalid h32 bs).map _
  | memoryMib => exact (orNull_invalid h64 bs).map _

theorem read_invalid (f : Fields) (key bs : List UInt8) : OnlyInvalid (f.read key bs) := by
  rw [Fields.read]
  split
  · exact readKnown_invalid f _ _
  · exact (skipValue_invalid bs).map _

theorem readAll_invalid (fuel : Nat) (f : Fields) (bs : List UInt8) : OnlyInvalid (Fields.readAll fuel f bs) := by
  induction fuel generalizing f bs with
  | zero => exact .error _
  | succ fuel ih =>
    rw [Fields.readAll]
    split
    · exact .error _
    split
    · exact .ok _
    split
    · rename_i e he
      rintro e' ⟨⟩
      exact string_invalid _ e he
    split
    · rename_i e he
      rintro e' ⟨⟩
      exact expect_invalid _ _ e he
    split
    · rename_i e he
      rintro e' ⟨⟩
      exact read_invalid _ _ _ e he
    split
    · exact .error _
    split
    · exact ih _ _
    split
    · exact .ok _
    · exact .error _

theorem request_invalid (f : Fields) : OnlyInvalid f.request := by
  have hmissing : ∀ {α : Type} (v : Option α) (msg : String), OnlyInvalid (Fields.orMissing v msg) := by
    intro α v msg
    cases v with
    | none => exact .error _
    | some a => exact .ok _
  rw [Fields.request]
  split
  · exact .error _
  split
  · rw [Fields.create]
    split
    · exact .error _
    split
    · exact .error _
    split
    · exact .error _
    · exact .ok _
  · exact (hmissing _ _).map _
  · exact (hmissing _ _).map _
  · exact (hmissing _ _).map _
  · exact .ok _
  · refine (hmissing _ _).bind (fun len => (hmissing _ _).bind (fun crc32c => (hmissing _ _).bind (fun bytesHex => ?_)))
    split
    · exact .error _
    · exact .ok _
  · exact .error _

/-- **Every refusal is one of an invalid input.** -/
theorem decodeRequest_invalid (frame : List UInt8) : OnlyInvalid (decodeRequest frame) := by
  rw [decodeRequest]
  split
  · rename_i e he
    rintro e' ⟨⟩
    exact expect_invalid _ _ e he
  split
  · rename_i e he
    rintro e' ⟨⟩
    exact readAll_invalid _ _ _ e he
  split
  · exact .error _
  · exact request_invalid _

/-! ## Numbers as JSON spells them -/

theorem exists_digit {d : UInt8} (h : isDigit d = true) : ∃ k < 10, d = (Nat.digitChar k).toUInt8 := by
  rw [isDigit, Bool.and_eq_true, decide_eq_true_eq, decide_eq_true_eq, UInt8.le_iff_toNat_le, UInt8.le_iff_toNat_le] at h
  have hlo : 48 ≤ d.toNat := h.1
  have hhi : d.toNat ≤ 57 := h.2
  have hspell : ∀ k < 10, (Nat.digitChar k).toUInt8 = UInt8.ofNat (48 + k) := by decide
  refine ⟨d.toNat - 48, by omega, ?_⟩
  rw [hspell _ (by omega), Nat.add_sub_cancel' hlo, UInt8.ofNat_toNat]

theorem decimalValue_concat (w : List UInt8) (d : UInt8) :
    decimalValue (w ++ [d]) = decimalValue w * 10 + (d - '0'.toUInt8).toNat := by
  rw [decimalValue, valueFrom, List.foldl_append]
  rfl

/-- **An integer without a leading zero** is the decimal of its value. -/
theorem decimal_decimalValue {v : List UInt8} (h : JsonText.IsInt v) : Json.decimal (decimalValue v) = v := by
  induction v using List.reverseRecOn with
  | nil => exact absurd rfl h.1.1
  | append_singleton w d ih =>
    obtain ⟨k, hk, rfl⟩ := exists_digit (h.1.2 d (List.mem_append_right _ (List.mem_singleton_self d)))
    rw [decimalValue_concat, digitChar_value k hk]
    rcases w with _ | ⟨b, bs⟩
    · rw [show decimalValue [] * 10 + k = k from Nat.zero_add k, Json.decimal_of_lt hk, List.nil_append]
    · -- The first digit is not a zero, since there are two at least.
      have hb : b ≠ '0'.toUInt8 := by
        rintro rfl
        have hlen := congrArg List.length (h.2 rfl)
        rw [List.length_append, List.length_cons, List.length_singleton, List.length_singleton] at hlen
        omega
      have hdigits : ∀ c ∈ b :: bs, isDigit c = true := fun c hc => h.1.2 c (List.mem_append_left _ hc)
      have hint : JsonText.IsInt (b :: bs) :=
        ⟨⟨List.cons_ne_nil b bs, hdigits⟩, fun hhead => absurd (Option.some.inj hhead) hb⟩
      have hpos : 1 ≤ decimalValue (b :: bs) := by
        obtain ⟨j, hj, rfl⟩ := exists_digit (hdigits b List.mem_cons_self)
        have hle := le_valueFrom (0 * 10 + ((Nat.digitChar j).toUInt8 - '0'.toUInt8).toNat) bs
        rw [digitChar_value j hj] at hle
        have hne : j ≠ 0 := by
          rintro rfl
          exact hb rfl
        rw [decimalValue, valueFrom_cons, digitChar_value j hj]
        omega
      rw [Json.decimal_of_ge (by omega), show (decimalValue (b :: bs) * 10 + k) / 10 = decimalValue (b :: bs) by omega,
        show (decimalValue (b :: bs) * 10 + k) % 10 = k by omega, ih hint]

/-! ## A clean frame is JSON -/

theorem isBody_of_legible {s : List UInt8} (hesc : Unescaped s) (h : Kernel.Legible s) : IsBody s :=
  (JsonText.isBody_iff hesc).2 h

/-- The text of a known field in a clean frame: strings are legible, and there is no leading zero. -/
structure Tidy (v : List UInt8) : Prop where
  text : ∀ s, v = quoted s → Kernel.Legible s
  number : v.head? = some '0'.toUInt8 → v = ['0'.toUInt8]

theorem Numeral.isInt {size : Nat} {v : List UInt8} (h : Numeral size v) (hv : Tidy v) : JsonText.IsInt v :=
  ⟨⟨h.ne_nil, h.digits⟩, hv.number⟩

theorem Key.Reads.isValue {key : Key} {v : List UInt8} (h : key.Reads v) (hv : Tidy v) : IsValue v := by
  rcases h.kind with ⟨s, hs, rfl⟩ | hnull | ⟨size, hnum⟩
  · exact .string (isBody_of_legible hs (hv.text s rfl))
  · exact .literal (.inl hnull)
  · exact .number (hnum.isInt hv).isNumber

theorem Key.Reads.tidy {key : Key} {v : List UInt8} (h : key.Reads v) (hv : IsValue v) : Tidy v := by
  rcases h.kind with ⟨s, hs, rfl⟩ | rfl | ⟨size, hnum⟩
  · refine ⟨fun s' hs' => ?_, fun hzero => absurd (Option.some.inj hzero) (by decide)⟩
    obtain rfl : s = s' := List.append_cancel_right (List.cons.inj hs').2
    exact (JsonText.isBody_iff hs).1 hv.isBody
  · exact ⟨fun s hs => absurd (List.cons.inj hs).1 (by decide), fun hzero => absurd (Option.some.inj hzero) (by decide)⟩
  · refine ⟨fun s hs => ?_, (hv.isInt hnum.digits).2⟩
    have hquote := hnum.digits '"'.toUInt8 (hs ▸ List.mem_cons_self)
    exact absurd hquote (by decide)

theorem quoted_content {v : List UInt8} (h : IsText v) : quoted (content v) = v := by
  obtain ⟨s, -, rfl⟩ := h
  rw [content_quoted]

theorem decimal_number32 {v : List UInt8} (h : Numeral (2 ^ 32) v) (hv : Tidy v) : Json.decimal (number32 v).toNat = v := by
  rw [number32, UInt32.toNat_ofNat_of_lt' h.lt, decimal_decimalValue (h.isInt hv)]

theorem decimal_number64 {v : List UInt8} (h : Numeral (2 ^ 64) v) (hv : Tidy v) : Json.decimal (number64 v).toNat = v := by
  rw [number64, UInt64.toNat_ofNat_of_lt' h.lt, decimal_decimalValue (h.isInt hv)]

section
variable {ms : List Member} (h : ∀ key v, texts ms key = some v → key.Reads v ∧ Tidy v) (key : Key)
include h

theorem says_text (hkey : ∀ v, key.Reads v → IsText v) {s : List UInt8} (hs : (texts ms key).map content = some s) :
    Says ms key (quoted s) := by
  obtain ⟨v, hv, rfl⟩ := Option.map_eq_some_iff.1 hs
  rw [quoted_content (hkey v (h key v hv).1)]
  exact hv

theorem says_number (hkey : ∀ v, key.Reads v → Numeral (2 ^ 32) v) {n : UInt32}
    (hn : (texts ms key).map number32 = some n) : Says ms key (Json.decimal n.toNat) := by
  obtain ⟨v, hv, rfl⟩ := Option.map_eq_some_iff.1 hn
  rw [decimal_number32 (hkey v (h key v hv).1) (h key v hv).2]
  exact hv

/-- A field that may be `null`, as its values are spelled. -/
theorem maySay {α : Type} (value : List UInt8 → α) (spell : α → List UInt8)
    (hspell : ∀ v, key.Reads v → Tidy v → v ≠ nullText → spell (value v) = v) :
    MaySay ms key (((texts ms key).bind (unlessNull value)).map spell) := by
  cases hv : texts ms key with
  | none => exact .inl hv
  | some v =>
    rw [Option.bind_some, unlessNull]
    by_cases hnull : v = nullText
    · rw [if_pos hnull]
      exact .inr (hnull ▸ hv)
    · rw [if_neg hnull, Option.map_some, hspell v (h key v hv).1 (h key v hv).2 hnull]
      exact hv

theorem maySay_number32 (hkey : ∀ v, key.Reads v → v = nullText ∨ Numeral (2 ^ 32) v) :
    MaySay ms key (((texts ms key).bind (unlessNull number32)).map (fun n => Json.decimal n.toNat)) :=
  maySay h key _ _ (fun v hv htidy hnull => decimal_number32 ((hkey v hv).resolve_left hnull) htidy)

end

/-- **The members of a clean frame** have the fields of the request. -/
theorem carries_of_makes {ms : List Member} (h : ∀ key v, texts ms key = some v → key.Reads v ∧ Tidy v) {r : Request}
    (hr : (Fields.ofTexts (texts ms)).Makes r) : Carries ms r := by
  have hop : ∀ {s}, (texts ms .op).map content = some s → Says ms .op (quoted s) := says_text h .op (fun _ hv => hv)
  have hid : ∀ {n}, (texts ms .vmId).map number32 = some n → Says ms .vmId (Json.decimal n.toNat) :=
    says_number h .vmId (fun _ hv => hv)
  cases r with
  | create label imagePath cpuCount memoryMib bootBlobCrc32c =>
    obtain ⟨ho, hl, rfl, rfl, rfl, rfl, hlen, hpath⟩ := hr
    refine ⟨hop ho, says_text h .label (fun _ hv => hv) hl, ?_, maySay_number32 h .cpuCount (fun _ hv => hv), ?_,
      maySay_number32 h .bootBlobCrc32c (fun _ hv => hv), hlen, hpath⟩
    · exact maySay h .imagePath content quoted (fun v hv _ hnull => quoted_content (hv.resolve_left hnull))
    · exact maySay h .memoryMib number64 _ (fun v hv htidy hnull => decimal_number64 (hv.resolve_left hnull) htidy)
  | start vmId => exact ⟨hop hr.1, hid hr.2⟩
  | stop vmId => exact ⟨hop hr.1, hid hr.2⟩
  | delete vmId => exact ⟨hop hr.1, hid hr.2⟩
  | list => exact hop hr
  | imageLoad len crc32c bytesHex =>
    obtain ⟨ho, hl, hc, hb, hsize⟩ := hr
    exact ⟨hop ho, says_number h .len (fun _ hv => hv) hl, says_number h .crc32c (fun _ hv => hv) hc,
      says_text h .bytesHex (fun _ hv => hv) hb, hsize⟩

namespace FrameText

variable {t : FrameText}

theorem Clean.tidy (h : t.Clean) {m : Member} (hm : m ∈ t.members) (hk : Key.ofBytes m.key ≠ none) : Tidy m.value :=
  ⟨h.text m hm hk, h.number m hm hk⟩

/-- **A clean frame** is the text of an object. -/
theorem Clean.isObjectText (h : t.Clean) (ht : t.Accepted) : IsObjectText t.bytes t.members := by
  refine ⟨[], t.inner, t.tail, blank_nil, ht.inner, ht.tail, fun m hm => ?_, ?_⟩
  · have hacc := ht.members m hm
    refine ⟨hacc.spaced, isBody_of_legible hacc.key (h.key m hm), ?_⟩
    cases hk : Key.ofBytes m.key with
    | none => exact h.skipped m hm hk
    | some key =>
      have hvalue := hacc.value
      rw [Reads, hk] at hvalue
      exact Key.Reads.isValue hvalue (h.tidy hm (by rw [hk]; exact Option.some_ne_none key))
  · rw [bytes, closing, h.comma]
    rfl

/-- **It carries the request** its fields make. -/
theorem Clean.carries (h : t.Clean) (ht : t.Accepted) {r : Request} (hr : t.fields.request = .ok r) :
    Carries t.members r := by
  refine carries_of_makes (fun key v hv => ⟨ht.reads hv, ?_⟩) (of_request hr)
  obtain ⟨m, hm, hk, rfl⟩ := of_texts hv
  exact h.tidy hm (by rw [hk]; exact Option.some_ne_none key)

end FrameText

/-! ## JSON that is accepted is a clean frame -/

/-- **A JSON member** the loop gets through is taken as it stands. -/
theorem accepted_of_json {fuel : Nat} {f : Fields} {m : Member} {rest : List UInt8} {p : Fields × List UInt8}
    (hm : m.IsJson) (hrest : Stops rest) (h : Fields.readAll (fuel + 1) f (m.bytes ++ rest) = .ok p) :
    Accepted m ∧ ∃ f₁, next fuel f₁ (m.after ++ rest) = .ok p := by
  have hstart : skipWs (m.bytes ++ rest) = quoted m.key ++ (m.colon ++ ':'.toUInt8 ::
      (m.lead ++ (m.value ++ (m.after ++ rest)))) := by
    rw [Member.bytes_append, skipWs_blank hm.spaced.before, quoted_append]
    exact skipWs_of_not (by decide)
  rcases of_round h with ⟨ws, hws, hbs⟩ | ⟨m', f₁, cs, hm', hafter, hnil, hbs, hnext⟩
  · rw [hbs, skipWs_blank hws, skipWs_of_not (by decide), quoted_append] at hstart
    exact absurd (List.cons.inj hstart).1 (by decide)
  -- The key of the member is the key that was read.
  rw [hbs, Member.bytes_append, skipWs_blank hm'.spaced.before, hafter, List.nil_append] at hstart
  have hkey := congrArg string hstart
  rw [quoted_append, skipWs_of_not (by decide), ← quoted_append, string_quoted hm'.key] at hkey
  have hbody := stringRest_body hm.key (m.colon ++ ':'.toUInt8 :: (m.lead ++ (m.value ++ (m.after ++ rest))))
  rw [quoted_append, string, expect, if_pos rfl] at hkey
  simp only [hbody] at hkey
  split at hkey
  · cases hkey
  rename_i hesc
  obtain ⟨hkey, hcolon⟩ := Prod.mk.inj (Except.ok.inj hkey)
  have hvalue := congrArg skipWs hcolon
  rw [skipWs_blank hm'.spaced.colon, skipWs_blank hm.spaced.colon, skipWs_of_not (by decide), skipWs_of_not (by decide)]
    at hvalue
  -- Its value is the value that was read.
  have hcs : Stops cs := by
    obtain ⟨after, hblank, ⟨ds, rfl, -⟩ | rfl⟩ := of_next hnext
    · exact (stops_comma ds).blank hblank
    · exact Stops.blank hblank ⟨_, rfl, by decide⟩
  obtain ⟨hplain, hv, hrest'⟩ := skipped_unique hm.value hm.spaced.lead (hrest.blank hm.spaced.after) hm'.value.skipped
    hm'.spaced.lead hcs hnil (List.cons.inj hvalue).2.symm
  refine ⟨⟨hm.spaced, hkey ▸ hm'.key, hkey ▸ hv ▸ hm'.value, fun hempty => ?_⟩, f₁, hrest' ▸ hnext⟩
  obtain ⟨b, bs, hcons, -⟩ := hm.value.exists_head
  rw [hempty] at hcons
  cases hcons

theorem accepted_of_members {ms : List Member} (hms : ∀ m ∈ ms, m.IsJson) {fuel : Nat} {f : Fields}
    {closing : List UInt8} (hclosing : Stops closing) {p : Fields × List UInt8}
    (h : Fields.readAll fuel f (Json.members (ms.map Member.bytes) ++ closing) = .ok p) : ∀ m ∈ ms, Accepted m := by
  induction ms generalizing fuel f with
  | nil => exact fun m hm => absurd hm List.not_mem_nil
  | cons m ms ih =>
    obtain ⟨hm, hms⟩ := List.forall_mem_cons.1 hms
    cases fuel with
    | zero => cases h
    | succ fuel =>
      rw [List.map_cons, JsonText.members_append] at h
      rcases Classical.em (ms = []) with rfl | hne
      · exact List.forall_mem_singleton.2 (accepted_of_json hm hclosing h).1
      · rw [if_neg (by simpa using hne)] at h
        obtain ⟨hacc, f₁, hnext⟩ := accepted_of_json hm (stops_comma _) h
        rw [next_comma fuel f₁ hm.spaced.after] at hnext
        exact List.forall_mem_cons.2 ⟨hacc, ih hms hnext⟩

/-- **An object that makes a request** is a clean frame. -/
theorem takenClean_of_json {frame : List UInt8} {r : Request} {ms : List Member} (h : decodeRequest frame = .ok r)
    (hjson : IsObjectText frame ms) : TakenClean frame := by
  obtain ⟨bs, p, hframe, hread, -⟩ := FrameText.of_decodeRequest h
  obtain ⟨lead, inner, tail, hlead, hinner, htail, hms, hbytes⟩ := hjson
  -- The reader takes no blank before the first brace.
  obtain rfl : lead = [] := by
    cases lead with
    | nil => rfl
    | cons b lead =>
      rw [hframe] at hbytes
      have hb := hlead b List.mem_cons_self
      rw [← (List.cons.inj hbytes).1] at hb
      exact absurd hb (by decide)
  rw [hframe, List.nil_append] at hbytes
  rw [(List.cons.inj hbytes).2] at hread
  have hstops : Stops (inner ++ '}'.toUInt8 :: tail) := Stops.blank hinner ⟨_, rfl, by decide⟩
  have hacc := accepted_of_members hms hstops hread
  have htidy : ∀ m ∈ ms, Key.ofBytes m.key ≠ none → Tidy m.value := by
    intro m hm hk
    obtain ⟨key, hkey⟩ := Option.ne_none_iff_exists'.1 hk
    have hvalue := (hacc m hm).value
    rw [Reads, hkey] at hvalue
    exact Key.Reads.tidy hvalue (hms m hm).value
  refine ⟨⟨ms, false, inner, tail⟩, ⟨hacc, hinner, htail, (fun h => by cases h), fun _ => .inr (fun m hm => ?_)⟩, ?_, rfl,
    fun m hm => (JsonText.isBody_iff (hacc m hm).key).1 (hms m hm).key, fun m hm hk => (htidy m hm hk).text,
    fun m hm hk => (htidy m hm hk).number, fun m hm _ => (hms m hm).value⟩
  · obtain ⟨b, bs, hcons, -⟩ := (hms m hm).value.exists_head
    rw [hcons]
    exact List.cons_ne_nil b bs
  · rw [hframe, hbytes]
    rfl

/-- **The reader keeps to JSON exactly on the frames that it refuses or that are clean.** -/
theorem accepts_only_json_iff (frame : List UInt8) : AcceptsOnlyJson frame ↔ (Taken frame → TakenClean frame) := by
  rw [AcceptsOnlyJson]
  cases h : decodeRequest frame with
  | error e =>
    refine iff_of_true (decodeRequest_invalid frame e h) ?_
    rintro ⟨t, ht, rfl, r, hr⟩
    rw [ht.decode, hr] at h
    cases h
  | ok r =>
    constructor
    · rintro ⟨ms, hjson, -⟩ -
      exact takenClean_of_json h hjson
    · intro hclean
      obtain ⟨t, ht, hbytes, hr⟩ := FrameText.decodeRequest_ok_iff.1 h
      obtain ⟨t, ht, rfl, hc⟩ := hclean ⟨t, ht, hbytes, r, hr⟩
      rw [ht.decode] at h
      exact ⟨t.members, hc.isObjectText ht, hc.carries ht h⟩

/-- `list` with a comma before the closing brace. -/
def trailingComma : List UInt8 := Text.utf8 "\x7b\"op\":\"list\",\x7d"

theorem trailing_comma_accepted : decodeRequest trailingComma = .ok .list ∧ ¬ AcceptsOnlyJson trailingComma := by
  have hok : decodeRequest trailingComma = .ok .list := rfl
  refine ⟨hok, fun h => ?_⟩
  rw [AcceptsOnlyJson, hok] at h
  obtain ⟨ms, hjson, -⟩ := h
  exact hjson.ne_append_comma (w := Text.utf8 "\x7b\"op\":\"list\"") rfl

end Wire
end Celium
