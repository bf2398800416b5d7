import Celium.Lib.Json
/-!
# JsonText — the byte strings that are JSON

RFC 8259, production by production, as predicates on bytes: blanks, the body of a string, numbers, values and the text of
an object with its members one by one.  A text is UTF-8, so the body of a string is made of whole characters.
-/
namespace JsonText

open Json (members members_cons_cons Plain)

/-! ## Blanks, strings and numbers -/

def isBlank (b : UInt8) : Bool := b == ' '.toUInt8 || b == '\t'.toUInt8 || b == '\r'.toUInt8 || b == '\n'.toUInt8

def Blank (bs : List UInt8) : Prop := ∀ b ∈ bs, isBlank b = true

instance (bs : List UInt8) : Decidable (Blank bs) := List.decidableBAll _ bs

theorem blank_nil : Blank [] := fun _ hb => absurd hb List.not_mem_nil

def isDigit (b : UInt8) : Bool := '0'.toUInt8 ≤ b && b ≤ '9'.toUInt8

def isHexDigit (b : UInt8) : Bool :=
  isDigit b || ('a'.toUInt8 ≤ b && b ≤ 'f'.toUInt8) || ('A'.toUInt8 ≤ b && b ≤ 'F'.toUInt8)

/-- What stands between the quotes of a string. -/
inductive IsBody : List UInt8 → Prop where
  | nil : IsBody []
  | char {c : Char} {bs : List UInt8} (hc : 32 ≤ c.toNat) (hquote : c ≠ '"') (hslash : c ≠ '\\') (h : IsBody bs) :
      IsBody (String.utf8EncodeChar c ++ bs)
  | escape {b : UInt8} {bs : List UInt8} (hb : b ∈ Text.utf8 "\"\\/bfnrt") (h : IsBody bs) :
      IsBody ('\\'.toUInt8 :: b :: bs)
  | unicode {ds bs : List UInt8} (hds : ds.length = 4 ∧ ∀ d ∈ ds, isHexDigit d = true) (h : IsBody bs) :
      IsBody ('\\'.toUInt8 :: 'u'.toUInt8 :: (ds ++ bs))

def quoted (s : List UInt8) : List UInt8 := '"'.toUInt8 :: (s ++ ['"'.toUInt8])

def IsDigits (ds : List UInt8) : Prop := ds ≠ [] ∧ ∀ b ∈ ds, isDigit b = true

def IsInt (bs : List UInt8) : Prop := IsDigits bs ∧ (bs.head? = some '0'.toUInt8 → bs = ['0'.toUInt8])

def IsFrac (bs : List UInt8) : Prop := bs = [] ∨ ∃ ds, IsDigits ds ∧ bs = '.'.toUInt8 :: ds

def IsExp (bs : List UInt8) : Prop :=
  bs = [] ∨ ∃ e sign ds, (e = 'e'.toUInt8 ∨ e = 'E'.toUInt8) ∧
    (sign = [] ∨ sign = ['+'.toUInt8] ∨ sign = ['-'.toUInt8]) ∧ IsDigits ds ∧ bs = e :: (sign ++ ds)

def IsNumber (bs : List UInt8) : Prop :=
  ∃ sign int frac exp, (sign = [] ∨ sign = ['-'.toUInt8]) ∧ IsInt int ∧ IsFrac frac ∧ IsExp exp ∧
    bs = sign ++ (int ++ (frac ++ exp))

def IsLiteral (bs : List UInt8) : Prop := bs = Text.utf8 "null" ∨ bs = Text.utf8 "true" ∨ bs = Text.utf8 "false"

/-! ## Values -/

/-- An element of an array with the blanks around it. -/
structure Element where
  before : List UInt8
  value : List UInt8
  after : List UInt8

def Element.bytes (e : Element) : List UInt8 := e.before ++ (e.value ++ e.after)

structure Element.Spaced (e : Element) : Prop where
  before : Blank e.before
  after : Blank e.after

/-- A member of an object: its key as it stands between the quotes, its value, and the blanks around each. -/
structure Member where
  before : List UInt8
  key : List UInt8
  colon : List UInt8
  lead : List UInt8
  value : List UInt8
  after : List UInt8

def Member.bytes (m : Member) : List UInt8 :=
  m.before ++ (quoted m.key ++ (m.colon ++ ':'.toUInt8 :: (m.lead ++ (m.value ++ m.after))))

structure Member.Spaced (m : Member) : Prop where
  before : Blank m.before
  colon : Blank m.colon
  lead : Blank m.lead
  after : Blank m.after

inductive IsValue : List UInt8 → Prop where
  | literal {bs : List UInt8} (h : IsLiteral bs) : IsValue bs
  | number {bs : List UInt8} (h : IsNumber bs) : IsValue bs
  | string {s : List UInt8} (h : IsBody s) : IsValue (quoted s)
  | array {es : List Element} {inner : List UInt8} (hinner : Blank inner) (hes : ∀ e ∈ es, e.Spaced)
      (hvs : ∀ e ∈ es, IsValue e.value) :
      IsValue ('['.toUInt8 :: (members (es.map Element.bytes) ++ (inner ++ [']'.toUInt8])))
  | object {ms : List Member} {inner : List UInt8} (hinner : Blank inner) (hms : ∀ m ∈ ms, m.Spaced ∧ IsBody m.key)
      (hvs : ∀ m ∈ ms, IsValue m.value) :
      IsValue ('{'.toUInt8 :: (members (ms.map Member.bytes) ++ (inner ++ ['}'.toUInt8])))

/-- A member of a JSON object. -/
structure Member.IsJson (m : Member) : Prop where
  spaced : m.Spaced
  key : IsBody m.key
  value : IsValue m.value

/-- `bs` is the text of an object, its members `ms`. -/
def IsObjectText (bs : List UInt8) (ms : List Member) : Prop :=
  ∃ lead inner tail, Blank lead ∧ Blank inner ∧ Blank tail ∧ (∀ m ∈ ms, m.IsJson) ∧
    bs = lead ++ '{'.toUInt8 :: (members (ms.map Member.bytes) ++ (inner ++ '}'.toUInt8 :: tail))

/-- The value of a key, the last one where the key is repeated. -/
def lastValue (ms : List Member) (key : List UInt8) : Option (List UInt8) :=
  (ms.reverse.find? (fun m => m.key == key)).map Member.value

theorem Member.bytes_append (m : Member) (rest : List UInt8) : m.bytes ++ rest = m.before ++ (quoted m.key ++
    (m.colon ++ ':'.toUInt8 :: (m.lead ++ (m.value ++ (m.after ++ rest))))) := by
  simp only [Member.bytes, List.append_assoc, List.cons_append]

theorem lastValue_concat (ms : List Member) (m : Member) (key : List UInt8) :
    lastValue (ms ++ [m]) key = if m.key = key then some m.value else lastValue ms key := by
  rw [lastValue, List.reverse_append, List.reverse_singleton, List.singleton_append, List.find?_cons]
  by_cases hkey : m.key = key
  · rw [if_pos hkey, beq_iff_eq.2 hkey]
    rfl
  · rw [if_neg hkey, beq_eq_false_iff_ne.2 hkey]
    rfl

theorem lastValue_insert {m : Member} {key : List UInt8} (h : m.key ≠ key) (as bs : List Member) :
    lastValue (as ++ m :: bs) key = lastValue (as ++ bs) key := by
  rw [lastValue, lastValue, List.reverse_append, List.reverse_append, List.reverse_cons, List.append_assoc,
    List.singleton_append, List.find?_append, List.find?_append, List.find?_cons, beq_eq_false_iff_ne.2 h]

/-! ## Members one after the other -/

theorem members_append (a : List UInt8) (as : List (List UInt8)) (rest : List UInt8) :
    members (a :: as) ++ rest = a ++ (if as = [] then rest else ','.toUInt8 :: (members as ++ rest)) := by
  cases as with
  | nil => simp [Json.members]
  | cons b bs => simp [members_cons_cons]

/-- A member and the comma after it. -/
def withComma (m : Member) : List UInt8 := m.bytes ++ [','.toUInt8]

theorem members_concat (as : List (List UInt8)) {bs : List (List UInt8)} (h : bs ≠ []) :
    members (as ++ bs) = as.flatMap (· ++ [','.toUInt8]) ++ members bs := by
  induction as with
  | nil => rfl
  | cons a as ih =>
    obtain ⟨c, cs, hcs⟩ := List.exists_cons_of_ne_nil (List.append_ne_nil_of_right_ne_nil as h)
    rw [List.cons_append, hcs, members_cons_cons, ← hcs, ih, List.flatMap_cons]
    simp only [List.append_assoc, List.cons_append, List.nil_append]

theorem members_withComma (ms : List Member) {ms' : List Member} (h : ms' ≠ []) :
    members ((ms ++ ms').map Member.bytes) = ms.flatMap withComma ++ members (ms'.map Member.bytes) := by
  rw [List.map_append, members_concat _ (by simpa using h), List.flatMap_map]
  rfl

theorem members_length (ms : List Member) : ms.length ≤ (members (ms.map Member.bytes)).length := by
  induction ms with
  | nil => exact Nat.zero_le _
  | cons m ms ih =>
    have hm : 1 ≤ m.bytes.length := by
      rw [Member.bytes, quoted, List.length_append, List.length_append, List.length_cons]
      omega
    cases ms with
    | nil => simpa [members] using hm
    | cons n ns =>
      rw [List.map_cons, List.map_cons, members_cons_cons, ← List.map_cons, List.length_append]
      simp only [List.length_cons] at ih ⊢
      omega

/-! ## Bytes outside strings -/

/-- A byte of a number or of a literal: it opens, closes and separates nothing. -/
def Bare (b : UInt8) : Prop := isDigit b = true ∨ b ∈ Text.utf8 "+-.Eaeflnrstu"

instance (b : UInt8) : Decidable (Bare b) := inferInstanceAs (Decidable (_ ∨ _))

theorem bare_of_all {bs : List UInt8} (h : bs.all (fun b => decide (Bare b)) = true) : ∀ b ∈ bs, Bare b :=
  fun b hb => of_decide_eq_true (List.all_eq_true.1 h b hb)

theorem Bare.ne {b c : UInt8} (h : Bare b) (hc : ¬ Bare c) : b ≠ c := fun hbc => hc (hbc ▸ h)

theorem Bare.not_blank {b : UInt8} (h : Bare b) : isBlank b = false := by
  rw [isBlank, beq_eq_false_iff_ne.2 (h.ne (by decide)), beq_eq_false_iff_ne.2 (h.ne (by decide)),
    beq_eq_false_iff_ne.2 (h.ne (by decide)), beq_eq_false_iff_ne.2 (h.ne (by decide))]
  rfl

theorem IsDigits.bare {ds : List UInt8} (h : IsDigits ds) : ∀ b ∈ ds, Bare b := fun b hb => .inl (h.2 b hb)

theorem IsFrac.bare {bs : List UInt8} (h : IsFrac bs) : ∀ b ∈ bs, Bare b := by
  rcases h with rfl | ⟨ds, hds, rfl⟩
  · exact fun b hb => absurd hb List.not_mem_nil
  · exact List.forall_mem_cons.2 ⟨.inr (by decide), hds.bare⟩

theorem IsExp.bare {bs : List UInt8} (h : IsExp bs) : ∀ b ∈ bs, Bare b := by
  rcases h with rfl | ⟨e, sign, ds, he, hsign, hds, rfl⟩
  · exact fun b hb => absurd hb List.not_mem_nil
  refine List.forall_mem_cons.2 ⟨?_, List.forall_mem_append.2 ⟨?_, hds.bare⟩⟩
  · rcases he with rfl | rfl <;> exact .inr (by decide)
  · rcases hsign with rfl | rfl | rfl <;> exact bare_of_all (by decide)

theorem IsNumber.bare {bs : List UInt8} (h : IsNumber bs) : ∀ b ∈ bs, Bare b := by
  obtain ⟨sign, int, frac, exp, hsign, hint, hfrac, hexp, rfl⟩ := h
  refine List.forall_mem_append.2 ⟨?_, List.forall_mem_append.2 ⟨hint.1.bare,
    List.forall_mem_append.2 ⟨hfrac.bare, hexp.bare⟩⟩⟩
  rcases hsign with rfl | rfl <;> exact bare_of_all (by decide)

theorem IsLiteral.bare {bs : List UInt8} (h : IsLiteral bs) : ∀ b ∈ bs, Bare b := by
  rcases h with rfl | rfl | rfl <;> exact bare_of_all (by decide)

theorem IsNumber.ne_nil {bs : List UInt8} (h : IsNumber bs) : bs ≠ [] := by
  obtain ⟨sign, int, frac, exp, -, hint, -, -, rfl⟩ := h
  simp [hint.1.1]

/-- A number of nothing but digits is an integer without a leading zero. -/
theorem IsNumber.isInt {bs : List UInt8} (h : IsNumber bs) (hbs : ∀ b ∈ bs, isDigit b = true) : IsInt bs := by
  have hnot : ∀ b : UInt8, isDigit b = false → b ∉ bs := by
    intro b hb hmem
    rw [hbs b hmem] at hb
    cases hb
  obtain ⟨sign, int, frac, exp, hsign, hint, hfrac, hexp, rfl⟩ := h
  rcases hsign with rfl | rfl
  · rcases hfrac with rfl | ⟨ds, -, rfl⟩
    · rcases hexp with rfl | ⟨e, sign, ds, he, -, -, rfl⟩
      · simpa using hint
      · exact absurd (by simp) (hnot e (by rcases he with rfl | rfl <;> decide))
    · exact absurd (by simp) (hnot '.'.toUInt8 (by decide))
  · exact absurd (by simp) (hnot '-'.toUInt8 (by decide))

theorem IsInt.isNumber {bs : List UInt8} (h : IsInt bs) : IsNumber bs :=
  ⟨[], bs, [], [], .inl rfl, h, .inl rfl, .inl rfl, by simp⟩

/-! ## The bytes of a string -/

/-- The bytes of a character that may stand for itself. -/
theorem plain_of_char {c : Char} (hc : 32 ≤ c.toNat) (hquote : c ≠ '"') (hslash : c ≠ '\\') :
    ∀ b ∈ String.utf8EncodeChar c, Plain b := by
  intro b hb
  rcases Nat.lt_or_ge c.toNat 128 with hascii | hwide
  · rw [Text.utf8EncodeChar_ascii hascii, List.mem_singleton] at hb
    subst hb
    have hval := Text.toNat_toUInt8 hascii
    have hne : ∀ d : Char, c ≠ d → d.toNat < 128 → c.toUInt8 ≠ d.toUInt8 := by
      intro d hcd hd h
      refine hcd (Char.toNat_inj.1 ?_)
      rw [← hval, h, Text.toNat_toUInt8 hd]
    exact ⟨hne _ hquote (by decide), hne _ hslash (by decide), UInt8.le_iff_toNat_le.2 (hval ▸ hc)⟩
  · have hb := Text.le_of_mem_utf8EncodeChar hwide hb
    have hne : ∀ d : UInt8, d.toNat < 128 → b ≠ d := by
      rintro d hd rfl
      omega
    exact ⟨hne _ (by decide), hne _ (by decide), UInt8.le_iff_toNat_le.2 (Nat.le_trans (by decide) hb)⟩

/-- **Up to its first escape a body holds no quote.** -/
theorem IsBody.plain {s : List UInt8} (h : IsBody s) : ∀ b ∈ s.takeWhile (· ≠ '\\'.toUInt8), Plain b := by
  induction h with
  | nil => exact fun b hb => absurd hb List.not_mem_nil
  | @char c bs hc hquote hslash _ ih =>
    have hplain := plain_of_char hc hquote hslash
    rw [List.takeWhile_append_of_pos (fun b hb => decide_eq_true (hplain b hb).2.1)]
    exact List.forall_mem_append.2 ⟨hplain, ih⟩
  | escape => exact fun b hb => absurd hb List.not_mem_nil
  | unicode => exact fun b hb => absurd hb List.not_mem_nil

theorem IsBody.plain_of_unescaped {s : List UInt8} (h : IsBody s) (hesc : '\\'.toUInt8 ∉ s) : ∀ b ∈ s, Plain b := by
  have hall : (s ++ []).takeWhile (· ≠ '\\'.toUInt8) = s ++ [] :=
    List.takeWhile_append_of_pos (fun b hb => decide_eq_true (fun h => hesc (h ▸ hb)))
  rw [List.append_nil] at hall
  rw [← hall]
  exact h.plain

/-- **Without escapes** a body is UTF-8 without control characters. -/
theorem isBody_iff {s : List UInt8} (hesc : ∀ b ∈ s, b ≠ '"'.toUInt8 ∧ b ≠ '\\'.toUInt8) :
    IsBody s ↔ Text.ofUtf8 s ≠ none ∧ ∀ b ∈ s, 32 ≤ b := by
  constructor
  · intro h
    refine ⟨?_, fun b hb => (h.plain_of_unescaped (fun hs => (hesc _ hs).2 rfl) b hb).2.2⟩
    obtain ⟨cs, rfl⟩ : ∃ cs : List Char, s = cs.flatMap String.utf8EncodeChar := by
      induction h with
      | nil => exact ⟨[], rfl⟩
      | @char c bs _ _ _ _ ih =>
        obtain ⟨cs, rfl⟩ := ih (fun b hb => hesc b (List.mem_append_right _ hb))
        exact ⟨c :: cs, rfl⟩
      | escape => exact absurd rfl (hesc _ List.mem_cons_self).2
      | unicode => exact absurd rfl (hesc _ List.mem_cons_self).2
    rw [← Text.utf8_ofList, Text.ofUtf8_utf8]
    exact Option.some_ne_none _
  · rintro ⟨hutf8, hge⟩
    obtain ⟨t, ht⟩ := Option.ne_none_iff_exists'.1 hutf8
    rw [← Text.utf8_of_ofUtf8 ht, Text.utf8_eq_flatMap] at hesc hge ⊢
    generalize t.toList = cs at hesc hge
    induction cs with
    | nil => exact .nil
    | cons c cs ih =>
      rw [List.flatMap_cons, List.forall_mem_append] at hesc hge
      have hascii : c.toNat < 128 → c.toUInt8 ∈ String.utf8EncodeChar c := fun h => by
        rw [Text.utf8EncodeChar_ascii h]
        exact List.mem_singleton_self _
      refine .char ?_ ?_ ?_ (ih hesc.2 hge.2)
      · by_contra hlt
        have hbyte := UInt8.le_iff_toNat_le.1 (hge.1 _ (hascii (by omega)))
        rw [Text.toNat_toUInt8 (by omega)] at hbyte
        exact hlt hbyte
      · rintro rfl
        exact (hesc.1 _ (hascii (by decide))).1 rfl
      · rintro rfl
        exact (hesc.1 _ (hascii (by decide))).2 rfl

/-! ## A value as a word -/

/-- `P` holds of whatever is put together from blanks, bare bytes, strings, separators and matching brackets. -/
structure Words (P : List UInt8 → Prop) : Prop where
  append : ∀ {as bs}, P as → P bs → P (as ++ bs)
  blank : ∀ {bs}, Blank bs → P bs
  bare : ∀ {bs}, (∀ b ∈ bs, Bare b) → P bs
  string : ∀ {s}, IsBody s → P (quoted s)
  comma : P [','.toUInt8]
  colon : P [':'.toUInt8]
  array : ∀ {bs}, P bs → P ('['.toUInt8 :: (bs ++ [']'.toUInt8]))
  object : ∀ {bs}, P bs → P ('{'.toUInt8 :: (bs ++ ['}'.toUInt8]))

section
variable {P : List UInt8 → Prop} (hP : Words P)
include hP

theorem Words.members {as : List (List UInt8)} (h : ∀ a ∈ as, P a) : P (members as) := by
  induction as with
  | nil => exact hP.blank blank_nil
  | cons a as ih =>
    obtain ⟨ha, has⟩ := List.forall_mem_cons.1 h
    cases as with
    | nil => simpa [Json.members] using ha
    | cons b as =>
      rw [members_cons_cons, ← List.singleton_append]
      exact hP.append ha (hP.append hP.comma (ih has))

theorem Words.element {e : Element} (h : e.Spaced) (hv : P e.value) : P e.bytes :=
  hP.append (hP.blank h.before) (hP.append hv (hP.blank h.after))

theorem Words.member {m : Member} (h : m.Spaced) (hkey : IsBody m.key) (hv : P m.value) : P m.bytes := by
  rw [Member.bytes, ← List.singleton_append (x := ':'.toUInt8)]
  exact hP.append (hP.blank h.before) (hP.append (hP.string hkey) (hP.append (hP.blank h.colon)
    (hP.append hP.colon (hP.append (hP.blank h.lead) (hP.append hv (hP.blank h.after))))))

theorem Words.elements {es : List Element} {inner : List UInt8} (hinner : Blank inner) (hes : ∀ e ∈ es, e.Spaced)
    (hvs : ∀ e ∈ es, P e.value) : P (Json.members (es.map Element.bytes) ++ inner) := by
  refine hP.append (hP.members (fun a ha => ?_)) (hP.blank hinner)
  obtain ⟨e, he, rfl⟩ := List.mem_map.1 ha
  exact hP.element (hes e he) (hvs e he)

theorem Words.pairs {ms : List Member} {inner : List UInt8} (hinner : Blank inner)
    (hms : ∀ m ∈ ms, m.Spaced ∧ IsBody m.key) (hvs : ∀ m ∈ ms, P m.value) :
    P (Json.members (ms.map Member.bytes) ++ inner) := by
  refine hP.append (hP.members (fun a ha => ?_)) (hP.blank hinner)
  obtain ⟨m, hm, rfl⟩ := List.mem_map.1 ha
  exact hP.member (hms m hm).1 (hms m hm).2 (hvs m hm)

/-- **Every value is a word.** -/
theorem Words.value {v : List UInt8} (hv : IsValue v) : P v := by
  induction hv with
  | literal h => exact hP.bare h.bare
  | number h => exact hP.bare h.bare
  | string h => exact hP.string h
  | array hinner hes _ ih =>
    rw [← List.append_assoc]
    exact hP.array (hP.elements hinner hes ih)
  | object hinner hms _ ih =>
    rw [← List.append_assoc]
    exact hP.object (hP.pairs hinner hms ih)

end

/-! ## What a value is, from its bytes -/

theorem IsValue.isBody {s : List UInt8} (h : IsValue (quoted s)) : IsBody s := by
  have hquote : ¬ Bare '"'.toUInt8 := by decide
  generalize hv : quoted s = v at h
  cases h with
  | literal h => exact absurd (h.bare '"'.toUInt8 (hv ▸ List.mem_cons_self)) hquote
  | number h => exact absurd (h.bare '"'.toUInt8 (hv ▸ List.mem_cons_self)) hquote
  | string h => exact List.append_cancel_right (List.cons.inj hv).2 ▸ h
  | array => exact absurd (List.cons.inj hv).1 (by decide)
  | object => exact absurd (List.cons.inj hv).1 (by decide)

theorem IsValue.isInt {v : List UInt8} (h : IsValue v) (hv : ∀ b ∈ v, isDigit b = true) : IsInt v := by
  cases h with
  | literal h =>
    rcases h with rfl | rfl | rfl
    · exact absurd (hv 'n'.toUInt8 List.mem_cons_self) (by decide)
    · exact absurd (hv 't'.toUInt8 List.mem_cons_self) (by decide)
    · exact absurd (hv 'f'.toUInt8 List.mem_cons_self) (by decide)
  | number h => exact h.isInt hv
  | string => exact absurd (hv _ List.mem_cons_self) (by decide)
  | array => exact absurd (hv _ List.mem_cons_self) (by decide)
  | object => exact absurd (hv _ List.mem_cons_self) (by decide)

/-! ## The ends of a value -/

theorem IsValue.exists_head {v : List UInt8} (h : IsValue v) : ∃ b bs, v = b :: bs ∧ isBlank b = false := by
  cases h with
  | literal h => rcases h with rfl | rfl | rfl <;> exact ⟨_, _, rfl, by decide⟩
  | number h =>
    obtain ⟨b, bs, rfl⟩ := List.exists_cons_of_ne_nil h.ne_nil
    exact ⟨b, bs, rfl, (h.bare b List.mem_cons_self).not_blank⟩
  | string => exact ⟨_, _, rfl, by decide⟩
  | array => exact ⟨_, _, rfl, by decide⟩
  | object => exact ⟨_, _, rfl, by decide⟩

/-- A value does not end in a comma. -/
theorem IsValue.ne_append_comma {v w : List UInt8} (h : IsValue v) : v ≠ w ++ [','.toUInt8] := by
  intro hv
  have hlast : v.getLast? = some ','.toUInt8 := by rw [hv, List.getLast?_concat]
  cases h with
  | literal h => rcases h with rfl | rfl | rfl <;> exact absurd hlast (by decide)
  | number h => exact absurd (h.bare _ (List.mem_of_getLast? hlast)) (by decide)
  | string =>
    rw [quoted, ← List.cons_append, List.getLast?_concat] at hlast
    exact absurd hlast (by decide)
  | array =>
    rw [← List.append_assoc, ← List.cons_append, List.getLast?_concat] at hlast
    exact absurd hlast (by decide)
  | object =>
    rw [← List.append_assoc, ← List.cons_append, List.getLast?_concat] at hlast
    exact absurd hlast (by decide)

theorem of_append_blank {as bs w : List UInt8} {b : UInt8} (hbs : Blank bs) (hb : isBlank b = false)
    (h : as ++ bs = w ++ [b]) : bs = [] ∧ as = w ++ [b] := by
  rcases List.eq_nil_or_concat' bs with rfl | ⟨cs, c, rfl⟩
  · exact ⟨rfl, by rw [← h, List.append_nil]⟩
  · rw [← List.append_assoc] at h
    obtain rfl : c = b := List.singleton_inj.1 (List.append_inj_right' h rfl)
    rw [hbs c (List.mem_append_right _ (List.mem_singleton_self c))] at hb
    cases hb

/-- **No object has a comma before its closing brace.** -/
theorem IsObjectText.ne_append_comma {bs w : List UInt8} {ms : List Member} (h : IsObjectText bs ms) :
    bs ≠ w ++ [','.toUInt8, '}'.toUInt8] := by
  obtain ⟨lead, inner, tail, -, hinner, htail, hms, rfl⟩ := h
  intro h
  have hbrace : (lead ++ '{'.toUInt8 :: (members (ms.map Member.bytes) ++ (inner ++ ['}'.toUInt8]))) ++ tail =
      (w ++ [','.toUInt8]) ++ ['}'.toUInt8] := by
    simpa only [List.append_assoc, List.cons_append, List.nil_append] using h
  obtain ⟨-, hbrace⟩ := of_append_blank htail (by decide) hbrace
  have hcomma : (lead ++ '{'.toUInt8 :: members (ms.map Member.bytes)) ++ inner = w ++ [','.toUInt8] := by
    have hassoc : (lead ++ '{'.toUInt8 :: members (ms.map Member.bytes)) ++ inner ++ ['}'.toUInt8] =
        w ++ [','.toUInt8] ++ ['}'.toUInt8] := by
      simpa only [List.append_assoc, List.cons_append, List.nil_append] using hbrace
    exact List.append_cancel_right hassoc
  obtain ⟨-, hcomma⟩ := of_append_blank hinner (by decide) hcomma
  rcases List.eq_nil_or_concat' ms with rfl | ⟨init, m, rfl⟩
  · exact absurd (List.append_inj_right' hcomma rfl) (by decide)
  have hm := hms m (List.mem_append_right _ (List.mem_singleton_self m))
  have hlast : members ([m].map Member.bytes) = m.bytes := List.append_nil _
  rw [members_withComma init (List.cons_ne_nil m []), hlast, Member.bytes] at hcomma
  have hafter : (lead ++ '{'.toUInt8 :: (init.flatMap withComma ++ (m.before ++ (quoted m.key ++ (m.colon ++ ':'.toUInt8 ::
      m.lead)))) ++ m.value) ++ m.after = w ++ [','.toUInt8] := by
    simpa only [List.append_assoc, List.cons_append] using hcomma
  obtain ⟨-, hvalue⟩ := of_append_blank hm.spaced.after (by decide) hafter
  rcases List.eq_nil_or_concat' m.value with hnil | ⟨v, c, hv⟩
  · obtain ⟨b, bs, hcons, -⟩ := hm.value.exists_head
    rw [hnil] at hcons
    cases hcons
  · rw [hv, ← List.append_assoc] at hvalue
    obtain rfl : c = ','.toUInt8 := List.singleton_inj.1 (List.append_inj_right' hvalue rfl)
    exact hm.value.ne_append_comma hv

end JsonText
