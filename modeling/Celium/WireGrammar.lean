import Mathlib.Data.List.DropRight
import Celium.Lib.JsonText
import Celium.WireRequest
/-!
# WireGrammar — the frames the kernel's reader takes

What `decode_request` accepts, as a grammar.  The scanner is deterministic and every part of the grammar tells where it
ends, so a frame is accepted exactly when it is put together from such parts and its fields make a request.
-/
namespace Celium
namespace Wire

open JsonText (Blank Member quoted)

/-! ## Strings and blanks -/

/-- Neither a quote nor a backslash is in it. -/
def Unescaped (bs : List UInt8) : Prop := ∀ b ∈ bs, b ≠ '"'.toUInt8 ∧ b ≠ '\\'.toUInt8

instance (bs : List UInt8) : Decidable (Unescaped bs) := List.decidableBAll _ bs

theorem stringRest_append {s : List UInt8} (h : Unescaped s) (rest : List UInt8) :
    stringRest (s ++ '"'.toUInt8 :: rest) = .ok (s, rest) := by
  induction s with
  | nil => rfl
  | cons b s ih =>
    obtain ⟨hb, hs⟩ := List.forall_mem_cons.1 h
    rw [List.cons_append, stringRest, if_neg hb.1, if_neg hb.2, ih hs]

theorem of_stringRest {bs s rest : List UInt8} (h : stringRest bs = .ok (s, rest)) :
    Unescaped s ∧ bs = s ++ '"'.toUInt8 :: rest := by
  induction bs generalizing s with
  | nil => cases h
  | cons b bs ih =>
    rw [stringRest] at h
    split at h
    · rename_i hquote
      cases h
      exact ⟨fun c hc => absurd hc List.not_mem_nil, hquote ▸ rfl⟩
    · rename_i hquote
      split at h
      · cases h
      · rename_i hslash
        split at h
        · cases h
        · rename_i s' rest' hs'
          cases h
          obtain ⟨hs, hbs⟩ := ih hs'
          exact ⟨List.forall_mem_cons.2 ⟨⟨hquote, hslash⟩, hs⟩, hbs ▸ rfl⟩

theorem quoted_append (s rest : List UInt8) : quoted s ++ rest = '"'.toUInt8 :: (s ++ '"'.toUInt8 :: rest) := by
  rw [quoted, List.cons_append, List.append_assoc, List.singleton_append]

theorem string_quoted {s : List UInt8} (h : Unescaped s) (rest : List UInt8) :
    string (quoted s ++ rest) = .ok (s, rest) := by
  rw [quoted_append]
  exact stringRest_append h rest

theorem of_string {bs s rest : List UInt8} (h : string bs = .ok (s, rest)) : Unescaped s ∧ bs = quoted s ++ rest := by
  cases bs with
  | nil => cases h
  | cons b bs =>
    by_cases hb : b = '"'.toUInt8
    · subst hb
      obtain ⟨hs, hbs⟩ := of_stringRest h
      exact ⟨hs, by rw [hbs, quoted_append]⟩
    · rw [string, expect, if_neg hb] at h
      cases h

theorem of_map_ok {α β : Type} {x : HyperResult α} {f : α → β} {b : β} (h : x.map f = .ok b) :
    ∃ a, x = .ok a ∧ f a = b := by
  cases x with
  | error e => cases h
  | ok a => exact ⟨a, rfl, Except.ok.inj h⟩

theorem of_bind_ok {α β : Type} {x : HyperResult α} {f : α → HyperResult β} {b : β} (h : (x >>= f) = .ok b) :
    ∃ a, x = .ok a ∧ f a = .ok b := by
  cases x with
  | error e => cases h
  | ok a => exact ⟨a, rfl, h⟩

theorem skipWs_blank {ws : List UInt8} (h : Blank ws) (bs : List UInt8) : skipWs (ws ++ bs) = skipWs bs :=
  List.dropWhile_append_of_pos h

theorem exists_blank (bs : List UInt8) : ∃ ws, Blank ws ∧ bs = ws ++ skipWs bs :=
  ⟨bs.takeWhile isWs, List.all_eq_true.1 List.all_takeWhile, (List.takeWhile_append_dropWhile (p := isWs)).symm⟩

/-! ## Values that are skipped -/

/-- The two kinds of brackets `skip_value` counts, one at a time. -/
inductive Bracket where
  | brace | bracket

def Bracket.opening : Bracket → UInt8
  | .brace   => '{'.toUInt8
  | .bracket => '['.toUInt8

def Bracket.closing : Bracket → UInt8
  | .brace   => '}'.toUInt8
  | .bracket => ']'.toUInt8

/-- What is passed over inside `depth` brackets of a kind, up to the one that closes the last. -/
inductive Nested (k : Bracket) : Nat → List UInt8 → Prop where
  | done : Nested k 0 []
  | string {d : Nat} {s bs : List UInt8} (hs : Unescaped s) (h : Nested k (d + 1) bs) : Nested k (d + 1) (quoted s ++ bs)
  | opening {d : Nat} {bs : List UInt8} (h : Nested k (d + 2) bs) : Nested k (d + 1) (k.opening :: bs)
  | closing {d : Nat} {bs : List UInt8} (h : Nested k d bs) : Nested k (d + 1) (k.closing :: bs)
  | other {d : Nat} {b : UInt8} {bs : List UInt8} (hquote : b ≠ '"'.toUInt8) (ho : b ≠ k.opening) (hc : b ≠ k.closing)
      (h : Nested k (d + 1) bs) : Nested k (d + 1) (b :: bs)

/-- The text of a value that is skipped: a string, what is between two matching brackets, or bytes up to a delimiter. -/
inductive Skipped : List UInt8 → Prop where
  | string {s : List UInt8} (h : Unescaped s) : Skipped (quoted s)
  | nested {k : Bracket} {bs : List UInt8} (h : Nested k 1 bs) : Skipped (k.opening :: bs)
  | token {bs : List UInt8} (h : ∀ b ∈ bs, isDelimiter b = false)
      (hhead : ∀ b ∈ bs.head?, b ≠ '"'.toUInt8 ∧ b ≠ '{'.toUInt8 ∧ b ≠ '['.toUInt8) : Skipped bs

/-- `skipNested` with a round for each byte. -/
def nested (k : Bracket) (depth : Nat) (bs : List UInt8) : HyperResult (List UInt8) :=
  skipNested k.opening k.closing bs.length depth bs

/-- **More rounds change nothing.** -/
theorem skipNested_eq {k : Bracket} {fuel depth : Nat} {bs : List UInt8} (h : bs.length ≤ fuel) :
    skipNested k.opening k.closing fuel depth bs = nested k depth bs := by
  rw [nested]
  suffices hall : ∀ fuel₂, bs.length ≤ fuel₂ →
      skipNested k.opening k.closing fuel depth bs = skipNested k.opening k.closing fuel₂ depth bs from
    hall _ (Nat.le_refl _)
  induction fuel generalizing depth bs with
  | zero =>
    intro fuel₂ _
    rw [List.length_eq_zero_iff.1 (Nat.le_zero.1 h)]
    cases depth with
    | zero => cases fuel₂ <;> rfl
    | succ => cases fuel₂ <;> rfl
  | succ fuel ih =>
    intro fuel₂ h₂
    cases depth with
    | zero => cases fuel₂ <;> rfl
    | succ depth =>
      cases fuel₂ with
      | zero =>
        rw [List.length_eq_zero_iff.1 (Nat.le_zero.1 h₂)]
        rfl
      | succ fuel₂ =>
        rw [skipNested, skipNested]
        have hlen : (skipWs bs).length ≤ bs.length := (List.dropWhile_suffix _).length_le
        cases hws : skipWs bs with
        | nil => rfl
        | cons b cs =>
          rw [hws, List.length_cons] at hlen
          have hcs : cs.length ≤ fuel := by omega
          have hcs₂ : cs.length ≤ fuel₂ := by omega
          simp only
          split
          · cases hs : stringRest cs with
            | error e => rfl
            | ok p =>
              obtain ⟨s, ds⟩ := p
              have hds : ds.length < cs.length := by
                rw [(of_stringRest hs).2, List.length_append, List.length_cons]
                omega
              exact ih (by omega) fuel₂ (by omega)
          · split
            · exact ih hcs fuel₂ hcs₂
            · split
              · exact ih hcs fuel₂ hcs₂
              · exact ih hcs fuel₂ hcs₂

section
variable (k : Bracket) (d : Nat) (bs : List UInt8)

theorem nested_zero : nested k 0 bs = .ok bs := by
  rw [nested]
  cases bs.length <;> rfl

theorem nested_string : nested k (d + 1) ('"'.toUInt8 :: bs) = match stringRest bs with
    | .error e => .error e
    | .ok p => nested k (d + 1) p.2 := by
  rw [nested, List.length_cons, skipNested, skipWs_of_not (by decide)]
  simp only [if_true]
  cases hs : stringRest bs with
  | error e => rfl
  | ok p =>
    obtain ⟨s, cs⟩ := p
    refine skipNested_eq ?_
    rw [(of_stringRest hs).2, List.length_append, List.length_cons]
    omega

theorem nested_opening : nested k (d + 1) (k.opening :: bs) = nested k (d + 2) bs := by
  rw [nested, List.length_cons, skipNested, skipWs_of_not (by cases k <;> decide)]
  simp only [if_neg (show k.opening ≠ '"'.toUInt8 by cases k <;> decide), if_true]
  exact skipNested_eq (Nat.le_refl _)

theorem nested_closing : nested k (d + 1) (k.closing :: bs) = nested k d bs := by
  rw [nested, List.length_cons, skipNested, skipWs_of_not (by cases k <;> decide)]
  simp only [if_neg (show k.closing ≠ '"'.toUInt8 by cases k <;> decide),
    if_neg (show k.closing ≠ k.opening by cases k <;> decide), if_true]
  exact skipNested_eq (Nat.le_refl _)

theorem nested_other {b : UInt8} (hquote : b ≠ '"'.toUInt8) (ho : b ≠ k.opening) (hc : b ≠ k.closing) :
    nested k (d + 1) (b :: bs) = nested k (d + 1) bs := by
  rw [nested, List.length_cons]
  by_cases hb : isWs b = true
  · -- A blank is passed over together with what follows it.
    have hws : skipWs (b :: bs) = skipWs bs := List.dropWhile_cons_of_pos hb
    rw [← skipNested_eq (Nat.le_succ bs.length), skipNested, skipNested, hws]
  · rw [skipNested, skipWs_of_not (Bool.not_eq_true _ ▸ hb)]
    simp only [if_neg hquote, if_neg ho, if_neg hc]
    exact skipNested_eq (Nat.le_refl _)

end

theorem Nested.skip {k : Bracket} {d : Nat} {body : List UInt8} (h : Nested k d body) (rest : List UInt8) :
    nested k d (body ++ rest) = .ok rest := by
  induction h with
  | done => exact nested_zero k rest
  | string hs _ ih =>
    rw [List.append_assoc, quoted_append, nested_string, stringRest_append hs]
    exact ih
  | opening _ ih => rw [List.cons_append, nested_opening, ih]
  | closing _ ih => rw [List.cons_append, nested_closing, ih]
  | other hquote ho hc _ ih => rw [List.cons_append, nested_other k _ _ hquote ho hc, ih]

theorem of_nested {k : Bracket} {d : Nat} {bs rest : List UInt8} (h : nested k d bs = .ok rest) :
    ∃ body, Nested k d body ∧ bs = body ++ rest := by
  induction hn : bs.length using Nat.strongRecOn generalizing d bs with
  | _ n ih =>
    cases d with
    | zero =>
      rw [nested_zero] at h
      cases h
      exact ⟨[], .done, rfl⟩
    | succ d =>
      cases bs with
      | nil => cases h
      | cons b bs =>
        rw [List.length_cons] at hn
        by_cases hquote : b = '"'.toUInt8
        · subst hquote
          rw [nested_string] at h
          cases hs : stringRest bs with
          | error e =>
            rw [hs] at h
            cases h
          | ok p =>
            obtain ⟨s, cs⟩ := p
            rw [hs] at h
            obtain ⟨hplain, rfl⟩ := of_stringRest hs
            rw [List.length_append, List.length_cons] at hn
            obtain ⟨body, hbody, rfl⟩ := ih cs.length (by omega) h rfl
            exact ⟨quoted s ++ body, .string hplain hbody, by rw [List.append_assoc, quoted_append]⟩
        by_cases ho : b = k.opening
        · subst ho
          rw [nested_opening] at h
          obtain ⟨body, hbody, rfl⟩ := ih bs.length (by omega) h rfl
          exact ⟨_, .opening hbody, rfl⟩
        by_cases hc : b = k.closing
        · subst hc
          rw [nested_closing] at h
          obtain ⟨body, hbody, rfl⟩ := ih bs.length (by omega) h rfl
          exact ⟨_, .closing hbody, rfl⟩
        · rw [nested_other k d bs hquote ho hc] at h
          obtain ⟨body, hbody, rfl⟩ := ih bs.length (by omega) h rfl
          exact ⟨_, .other hquote ho hc hbody, rfl⟩

/-! ## Where a value ends -/

/-- A delimiter follows. -/
def Stops (bs : List UInt8) : Prop := ∃ b ∈ bs.head?, isDelimiter b = true

theorem isWs_of_not_delimiter {b : UInt8} (h : isDelimiter b = false) : isWs b = false := by
  rw [isDelimiter, Bool.or_eq_false_iff] at h
  exact h.2

theorem not_delimiter_of_bare {b : UInt8} (h : JsonText.Bare b) : isDelimiter b = false := by
  rw [isDelimiter, show isWs b = false from h.not_blank, beq_eq_false_iff_ne.2 (h.ne (by decide)),
    beq_eq_false_iff_ne.2 (h.ne (by decide)), beq_eq_false_iff_ne.2 (h.ne (by decide))]
  rfl

theorem Stops.head {bs : List UInt8} (h : Stops bs) : ∃ b cs, bs = b :: cs ∧ isDelimiter b = true := by
  obtain ⟨b, hb, hdel⟩ := h
  obtain ⟨cs, rfl⟩ := List.head?_eq_some_iff.1 hb
  exact ⟨b, cs, rfl, hdel⟩

theorem Stops.blank {ws bs : List UInt8} (hws : Blank ws) (h : Stops bs) : Stops (ws ++ bs) := by
  cases ws with
  | nil => exact h
  | cons b ws =>
    have hb : isWs b = true := hws b List.mem_cons_self
    exact ⟨b, rfl, by rw [isDelimiter, hb, Bool.or_true]⟩

/-- The start of a text that is skipped, unless it is empty, is not a blank. -/
theorem Skipped.skipWs {v : List UInt8} (h : Skipped v) (hne : v ≠ []) (rest : List UInt8) :
    skipWs (v ++ rest) = v ++ rest := by
  cases h with
  | string => exact skipWs_of_not (by decide)
  | @nested k => exact skipWs_of_not (by cases k <;> decide)
  | token h =>
    obtain ⟨b, bs, rfl⟩ := List.exists_cons_of_ne_nil hne
    exact skipWs_of_not (isWs_of_not_delimiter (h b List.mem_cons_self))

/-- **A text that is skipped** is passed over and no more. -/
theorem skipValue_skipped {lead v rest : List UInt8} (hlead : Blank lead) (hv : Skipped v) (hrest : Stops rest)
    (hempty : v = [] → skipWs rest = rest) : skipValue (lead ++ (v ++ rest)) = .ok rest := by
  rw [skipValue, skipWs_blank hlead]
  obtain ⟨c, cs, rfl, hc⟩ := hrest.head
  have hstop : ∀ bs : List UInt8, (∀ b ∈ bs, isDelimiter b = false) →
      (bs ++ c :: cs).dropWhile (fun b => !isDelimiter b) = c :: cs := by
    intro bs hbs
    rw [List.dropWhile_append_of_pos (fun b hb => by rw [hbs b hb]; rfl), List.dropWhile_cons_of_neg (by rw [hc]; decide)]
  cases hv with
  | string h =>
    rw [quoted_append, skipWs_of_not (by decide)]
    simp only [if_true, stringRest_append h]
    rfl
  | @nested k bs h =>
    rw [List.cons_append, skipWs_of_not (by cases k <;> decide)]
    cases k with
    | brace => exact h.skip _
    | bracket => exact h.skip _
  | token h hhead =>
    cases v with
    | nil =>
      rw [List.nil_append, hempty rfl]
      have hne : ∀ d : UInt8, isDelimiter d = false → c ≠ d := by
        rintro d hd rfl
        rw [hc] at hd
        cases hd
      simp only [if_neg (hne _ (show isDelimiter '"'.toUInt8 = false by decide)),
        if_neg (hne _ (show isDelimiter '{'.toUInt8 = false by decide)),
        if_neg (hne _ (show isDelimiter '['.toUInt8 = false by decide))]
      exact congrArg _ (hstop [] (fun b hb => absurd hb List.not_mem_nil))
    | cons b v =>
      obtain ⟨hquote, hbrace, hbracket⟩ := hhead b rfl
      rw [List.cons_append, skipWs_of_not (isWs_of_not_delimiter (h b List.mem_cons_self))]
      simp only [if_neg hquote, if_neg hbrace, if_neg hbracket]
      exact congrArg _ (hstop (b :: v) h)

theorem of_skipValue {bs rest : List UInt8} (h : skipValue bs = .ok rest) :
    ∃ lead v, Blank lead ∧ Skipped v ∧ bs = lead ++ (v ++ rest) ∧ (v = [] → skipWs rest = rest) := by
  obtain ⟨lead, hlead, hbs⟩ := exists_blank bs
  refine ⟨lead, ?_⟩
  rw [skipValue] at h
  cases hws : skipWs bs with
  | nil =>
    rw [hws] at h
    cases h
  | cons b cs =>
    rw [hws] at h hbs
    simp only at h
    split at h
    · rename_i hquote
      subst hquote
      obtain ⟨p, hs, rfl⟩ := of_map_ok h
      obtain ⟨hplain, hcs⟩ : Unescaped p.1 ∧ cs = p.1 ++ '"'.toUInt8 :: p.2 := of_stringRest hs
      exact ⟨quoted p.1, hlead, .string hplain, by rw [hbs, hcs, quoted_append], fun h => by cases h⟩
    rename_i hquote
    split at h
    · rename_i hbrace
      subst hbrace
      obtain ⟨body, hbody, hcs⟩ := of_nested (k := .brace) h
      exact ⟨_, hlead, .nested hbody, by rw [hbs, hcs]; rfl, fun h => by cases h⟩
    rename_i hbrace
    split at h
    · rename_i hbracket
      subst hbracket
      obtain ⟨body, hbody, hcs⟩ := of_nested (k := .bracket) h
      exact ⟨_, hlead, .nested hbody, by rw [hbs, hcs]; rfl, fun h => by cases h⟩
    rename_i hbracket
    have hrest : (b :: cs).dropWhile (fun b => !isDelimiter b) = rest := Except.ok.inj h
    refine ⟨(b :: cs).takeWhile (fun b => !isDelimiter b), hlead, .token ?_ ?_, ?_, ?_⟩
    · intro c hc
      have hdel := List.all_eq_true.1 (List.all_takeWhile (p := fun b => !isDelimiter b)) c hc
      exact Bool.not_eq_true' _ ▸ hdel
    · intro c hc
      rw [List.head?_takeWhile] at hc
      have hcb : c = b := by
        simp only [List.head?_cons, Option.filter] at hc
        split at hc
        · exact (Option.mem_some_iff.1 hc).symm
        · cases hc
      exact hcb ▸ ⟨hquote, hbrace, hbracket⟩
    · rw [hbs, ← hrest, List.takeWhile_append_dropWhile]
    · intro hempty
      have hall := List.takeWhile_append_dropWhile (p := fun b => !isDelimiter b) (l := b :: cs)
      rw [hempty, hrest, List.nil_append] at hall
      rw [hall, ← hws, skipWs, skipWs, List.dropWhile_idempotent]

/-! ## Values of known fields -/

/-- What some digits stand for after those of `acc`. -/
def valueFrom (acc : Nat) (ds : List UInt8) : Nat := ds.foldl (fun n b => n * 10 + (b - '0'.toUInt8).toNat) acc

def decimalValue (ds : List UInt8) : Nat := valueFrom 0 ds

/-- The text of a number of a type with `size` values. -/
structure Numeral (size : Nat) (v : List UInt8) : Prop where
  ne_nil : v ≠ []
  digits : ∀ b ∈ v, isDigit b = true
  lt : decimalValue v < size

/-- The text of a string. -/
def IsText (v : List UInt8) : Prop := ∃ s, Unescaped s ∧ v = quoted s

/-- What is between the quotes. -/
def content (v : List UInt8) : List UInt8 := (v.drop 1).dropLast

def nullText : List UInt8 := Text.utf8 "null"

/-- The texts a known field may have for its value. -/
def Key.Reads : Key → List UInt8 → Prop
  | .op, v             => IsText v
  | .label, v          => IsText v
  | .vmId, v           => Numeral (2 ^ 32) v
  | .imagePath, v      => v = nullText ∨ IsText v
  | .cpuCount, v       => v = nullText ∨ Numeral (2 ^ 32) v
  | .memoryMib, v      => v = nullText ∨ Numeral (2 ^ 64) v
  | .bootBlobCrc32c, v => v = nullText ∨ Numeral (2 ^ 32) v
  | .len, v            => Numeral (2 ^ 32) v
  | .crc32c, v         => Numeral (2 ^ 32) v
  | .bytesHex, v       => IsText v

theorem content_quoted (s : List UInt8) : content (quoted s) = s := by
  rw [content, quoted, List.drop_one, List.tail_cons, List.dropLast_concat]

theorem string_text {v : List UInt8} (h : IsText v) (rest : List UInt8) : string (v ++ rest) = .ok (content v, rest) := by
  obtain ⟨s, hs, rfl⟩ := h
  rw [string_quoted hs, content_quoted]

theorem valueFrom_cons (acc : Nat) (b : UInt8) (ds : List UInt8) :
    valueFrom acc (b :: ds) = valueFrom (acc * 10 + (b - '0'.toUInt8).toNat) ds := rfl

theorem le_valueFrom (acc : Nat) (ds : List UInt8) : acc ≤ valueFrom acc ds := by
  induction ds generalizing acc with
  | nil => exact Nat.le_refl _
  | cons b ds ih =>
    have hle := ih (acc * 10 + (b - '0'.toUInt8).toNat)
    rw [valueFrom_cons]
    omega

/-- **The checked arithmetic** gives the value unless it is out of range. -/
theorem accumulate_eq {size acc : Nat} (hacc : acc < size) (ds : List UInt8) :
    accumulate size acc ds = if valueFrom acc ds < size then some (valueFrom acc ds) else none := by
  induction ds generalizing acc with
  | nil => exact (if_pos hacc).symm
  | cons b ds ih =>
    have hle := le_valueFrom (acc * 10 + (b - '0'.toUInt8).toNat) ds
    rw [accumulate, valueFrom_cons]
    split
    · rw [if_neg (by omega)]
    split
    · rw [if_neg (by omega)]
    · exact ih (by omega)

theorem number_numeral {size : Nat} {v rest : List UInt8} (h : Numeral size v) (hrest : Stops rest) (overflow : String) :
    number size overflow (v ++ rest) = .ok (decimalValue v, rest) := by
  obtain ⟨c, cs, rfl, hc⟩ := hrest.head
  have hnot : ¬ isDigit c = true := fun hdigit => by
    rw [not_delimiter_of_bare (.inl hdigit)] at hc
    cases hc
  have htake : (v ++ c :: cs).takeWhile isDigit = v := by
    rw [List.takeWhile_append_of_pos h.digits, List.takeWhile_cons_of_neg hnot, List.append_nil]
  have hdrop : (v ++ c :: cs).dropWhile isDigit = c :: cs := by
    rw [List.dropWhile_append_of_pos h.digits, List.dropWhile_cons_of_neg hnot]
  have hvalue : accumulate size 0 v = some (decimalValue v) := by
    rw [accumulate_eq (Nat.zero_lt_of_lt h.lt)]
    exact if_pos h.lt
  rw [number, htake, hdrop]
  simp only [if_neg h.ne_nil, hvalue]

theorem of_number {size n : Nat} (hsize : 0 < size) {overflow : String} {bs rest : List UInt8}
    (h : number size overflow bs = .ok (n, rest)) : ∃ v, Numeral size v ∧ bs = v ++ rest := by
  refine ⟨bs.takeWhile isDigit, ?_⟩
  rw [number] at h
  split at h
  · cases h
  rename_i hne
  rw [accumulate_eq hsize] at h
  split at h
  · cases h
  rename_i hacc
  split at hacc
  · rename_i hlt
    cases h
    exact ⟨⟨hne, List.all_eq_true.1 List.all_takeWhile, hlt⟩, List.takeWhile_append_dropWhile.symm⟩
  · cases hacc

def number32 (v : List UInt8) : UInt32 := .ofNat (decimalValue v)

def number64 (v : List UInt8) : UInt64 := .ofNat (decimalValue v)

/-- The value of a text that may be `null`. -/
def unlessNull {α : Type} (value : List UInt8 → α) (v : List UInt8) : Option α :=
  if v = nullText then none else some (value v)

theorem u32Value_numeral {v rest : List UInt8} (h : Numeral (2 ^ 32) v) (hrest : Stops rest) :
    u32Value (v ++ rest) = .ok (number32 v, rest) := by
  rw [u32Value, number_numeral h hrest]
  rfl

theorem u64Value_numeral {v rest : List UInt8} (h : Numeral (2 ^ 64) v) (hrest : Stops rest) :
    u64Value (v ++ rest) = .ok (number64 v, rest) := by
  rw [u64Value, number_numeral h hrest]
  rfl

theorem of_u32Value {bs rest : List UInt8} {n : UInt32} (h : u32Value bs = .ok (n, rest)) :
    ∃ v, Numeral (2 ^ 32) v ∧ bs = v ++ rest := by
  obtain ⟨p, hp, hpn⟩ := of_map_ok h
  cases hpn
  exact of_number (by decide) hp

theorem of_u64Value {bs rest : List UInt8} {n : UInt64} (h : u64Value bs = .ok (n, rest)) :
    ∃ v, Numeral (2 ^ 64) v ∧ bs = v ++ rest := by
  obtain ⟨p, hp, hpn⟩ := of_map_ok h
  cases hpn
  exact of_number (by decide) hp

theorem of_stringText {bs s rest : List UInt8} (h : string bs = .ok (s, rest)) : ∃ v, IsText v ∧ bs = v ++ rest :=
  ⟨quoted s, ⟨s, (of_string h).1, rfl⟩, (of_string h).2⟩

/-- A text that is not taken for `null`. -/
def NotNull (v : List UInt8) : Prop := ∃ b bs, v = b :: bs ∧ b ≠ 'n'.toUInt8

theorem IsText.notNull {v : List UInt8} (h : IsText v) : NotNull v := by
  obtain ⟨s, -, rfl⟩ := h
  exact ⟨_, _, rfl, by decide⟩

theorem Numeral.notNull {size : Nat} {v : List UInt8} (h : Numeral size v) : NotNull v := by
  obtain ⟨b, bs, rfl⟩ := List.exists_cons_of_ne_nil h.ne_nil
  refine ⟨b, bs, rfl, ?_⟩
  rintro rfl
  exact absurd (h.digits _ List.mem_cons_self) (by decide)

theorem orNull_null {α : Type} (value : List UInt8 → HyperResult (α × List UInt8)) (rest : List UInt8) :
    orNull value (nullText ++ rest) = .ok (none, rest) := rfl

theorem orNull_notNull {α : Type} (value : List UInt8 → HyperResult (α × List UInt8)) {v : List UInt8} (h : NotNull v)
    (rest : List UInt8) : orNull value (v ++ rest) = (value (v ++ rest)).map (fun p => (some p.1, p.2)) := by
  obtain ⟨b, bs, rfl, hb⟩ := h
  have hnone : tryConsumeNull (b :: bs ++ rest) = none := by
    rw [tryConsumeNull, if_neg]
    intro h
    exact hb (List.cons.inj h).1
  rw [orNull, hnone]

theorem orNull_reads {α : Type} {value : List UInt8 → HyperResult (α × List UInt8)} {f : List UInt8 → α}
    {v rest : List UInt8} (h : v = nullText ∨ NotNull v ∧ value (v ++ rest) = .ok (f v, rest)) :
    orNull value (v ++ rest) = .ok (unlessNull f v, rest) := by
  rcases h with rfl | ⟨hnull, hvalue⟩
  · exact orNull_null value rest
  · have hne : v ≠ nullText := by
      obtain ⟨b, bs, rfl, hb⟩ := hnull
      exact fun h => hb (List.cons.inj h).1
    rw [orNull_notNull value hnull, hvalue, unlessNull, if_neg hne]
    rfl

theorem of_orNull {α : Type} {value : List UInt8 → HyperResult (α × List UInt8)} {P : List UInt8 → Prop}
    (hvalue : ∀ {bs rest a}, value bs = .ok (a, rest) → ∃ v, P v ∧ bs = v ++ rest) {bs rest : List UInt8} {a : Option α}
    (h : orNull value bs = .ok (a, rest)) : ∃ v, (v = nullText ∨ P v) ∧ bs = v ++ rest := by
  rw [orNull] at h
  cases hn : tryConsumeNull bs with
  | some cs =>
    rw [hn] at h
    rw [tryConsumeNull] at hn
    split at hn
    · rename_i htake
      cases h
      cases hn
      exact ⟨nullText, .inl rfl, by rw [nullText, ← htake, List.take_append_drop]⟩
    · cases hn
  | none =>
    rw [hn] at h
    obtain ⟨p, hp, hpa⟩ := of_map_ok h
    cases hpa
    obtain ⟨v, hv, hbs⟩ := hvalue hp
    exact ⟨v, .inr hv, hbs⟩

/-! ## The fields -/

/-- The fields, from the texts of their values. -/
def Fields.ofTexts (texts : Key → Option (List UInt8)) : Fields where
  op := (texts .op).map content
  label := (texts .label).map content
  vmId := (texts .vmId).map number32
  imagePath := (texts .imagePath).bind (unlessNull content)
  cpuCount := (texts .cpuCount).bind (unlessNull number32)
  memoryMib := (texts .memoryMib).bind (unlessNull number64)
  bootBlobCrc32c := (texts .bootBlobCrc32c).bind (unlessNull number32)
  len := (texts .len).map number32
  crc32c := (texts .crc32c).map number32
  bytesHex := (texts .bytesHex).map content

/-- **A known field** takes the place of an earlier one. -/
theorem readKnown_reads (texts : Key → Option (List UInt8)) {key : Key} {v rest : List UInt8} (h : key.Reads v)
    (hrest : Stops rest) : (Fields.ofTexts texts).readKnown key (v ++ rest) =
      .ok (.ofTexts (Function.update texts key (some v)), rest) := by
  cases key with
  | op => rw [Fields.readKnown, string_text h]; rfl
  | label => rw [Fields.readKnown, string_text h]; rfl
  | vmId => rw [Fields.readKnown, u32Value_numeral h hrest]; rfl
  | imagePath =>
    rw [Fields.readKnown, orNull_reads (f := content) (h.imp_right fun h => ⟨h.notNull, string_text h rest⟩)]; rfl
  | cpuCount =>
    rw [Fields.readKnown, orNull_reads (f := number32) (h.imp_right fun h => ⟨h.notNull, u32Value_numeral h hrest⟩)]; rfl
  | memoryMib =>
    rw [Fields.readKnown, orNull_reads (f := number64) (h.imp_right fun h => ⟨h.notNull, u64Value_numeral h hrest⟩)]; rfl
  | bootBlobCrc32c =>
    rw [Fields.readKnown, orNull_reads (f := number32) (h.imp_right fun h => ⟨h.notNull, u32Value_numeral h hrest⟩)]; rfl
  | len => rw [Fields.readKnown, u32Value_numeral h hrest]; rfl
  | crc32c => rw [Fields.readKnown, u32Value_numeral h hrest]; rfl
  | bytesHex => rw [Fields.readKnown, string_text h]; rfl

theorem of_readKnown {f f' : Fields} {key : Key} {bs rest : List UInt8} (h : f.readKnown key bs = .ok (f', rest)) :
    ∃ v, key.Reads v ∧ bs = v ++ rest := by
  cases key with
  | op | label | bytesHex =>
    obtain ⟨p, hp, hpf⟩ := of_map_ok h
    cases hpf
    exact of_stringText hp
  | vmId | len | crc32c =>
    obtain ⟨p, hp, hpf⟩ := of_map_ok h
    cases hpf
    exact of_u32Value hp
  | imagePath =>
    obtain ⟨p, hp, hpf⟩ := of_map_ok h
    cases hpf
    exact of_orNull of_stringText hp
  | cpuCount | bootBlobCrc32c =>
    obtain ⟨p, hp, hpf⟩ := of_map_ok h
    cases hpf
    exact of_orNull of_u32Value hp
  | memoryMib =>
    obtain ⟨p, hp, hpf⟩ := of_map_ok h
    cases hpf
    exact of_orNull of_u64Value hp

/-- A text for a known field is a string, `null` or a number. -/
theorem Key.Reads.kind {key : Key} {v : List UInt8} (h : key.Reads v) :
    IsText v ∨ v = nullText ∨ ∃ size, Numeral size v := by
  cases key with
  | op | label | bytesHex => exact .inl h
  | vmId | len | crc32c => exact .inr (.inr ⟨_, h⟩)
  | imagePath => exact h.elim (fun h => .inr (.inl h)) .inl
  | cpuCount | memoryMib | bootBlobCrc32c => exact .inr (h.imp_right fun h => ⟨_, h⟩)

/-- It could be skipped as well. -/
theorem Key.Reads.skipped {key : Key} {v : List UInt8} (h : key.Reads v) : Skipped v ∧ v ≠ [] := by
  have hbare : (∀ b ∈ v, JsonText.Bare b) → v ≠ [] → Skipped v ∧ v ≠ [] := by
    refine fun hbare hne => ⟨.token (fun b hb => not_delimiter_of_bare (hbare b hb)) (fun b hb => ?_), hne⟩
    have hb := hbare b (List.mem_of_head? hb)
    exact ⟨hb.ne (by decide), hb.ne (by decide), hb.ne (by decide)⟩
  rcases h.kind with ⟨s, hs, rfl⟩ | rfl | ⟨size, hv⟩
  · exact ⟨.string hs, fun h => by cases h⟩
  · exact hbare (JsonText.bare_of_all (by decide)) (by decide)
  · exact hbare (fun b hb => .inl (hv.digits b hb)) hv.ne_nil

end Wire
end Celium
