import Mathlib.Data.List.Induction
import Mathlib.Data.String.Basic
/-!
# Text — bytes, splitting, slicing and number parsing, as a standard library does them

The UTF-8 bytes of a string and the way back, `trim_end`, `split_once`, a slice up to a byte, and the decimal `from_str`
of the unsigned integer types.
-/
namespace Text

def utf8 (s : String) : List UInt8 := s.toUTF8.data.toList

/-- The string some bytes are, if they are valid UTF-8. -/
def ofUtf8 (bs : List UInt8) : Option String := String.fromUTF8? ⟨bs.toArray⟩

@[simp] theorem utf8_length (s : String) : (utf8 s).length = s.utf8ByteSize := by
  simp [utf8]

theorem utf8_eq_nil {s : String} : utf8 s = [] ↔ s = "" := by
  rw [← List.length_eq_zero_iff, utf8_length, String.utf8ByteSize_eq_zero_iff]

theorem utf8_append (a b : String) : utf8 (a ++ b) = utf8 a ++ utf8 b := by
  simp [utf8, String.toByteArray_append]

theorem ofUtf8_utf8 (s : String) : ofUtf8 (utf8 s) = some s := by
  have h : (⟨(utf8 s).toArray⟩ : ByteArray) = s.toByteArray := by simp [utf8]
  rw [ofUtf8, h, String.fromUTF8?, dif_pos s.isValidUTF8]
  rfl

theorem utf8_of_ofUtf8 {bs : List UInt8} {s : String} (h : ofUtf8 bs = some s) : utf8 s = bs := by
  rw [ofUtf8, String.fromUTF8?] at h
  split at h
  · rw [← Option.some.inj h]
    rfl
  · cases h

theorem utf8_ofList (cs : List Char) : utf8 (String.ofList cs) = cs.flatMap String.utf8EncodeChar := by
  simp [utf8, String.ofList, List.utf8Encode]

theorem utf8_eq_flatMap (s : String) : utf8 s = s.toList.flatMap String.utf8EncodeChar := by
  rw [← utf8_ofList, String.ofList_toList]

/-- The one byte of an ASCII character. -/
theorem utf8EncodeChar_ascii {c : Char} (h : c.toNat < 128) : String.utf8EncodeChar c = [c.toUInt8] :=
  String.utf8EncodeChar_eq_singleton (Char.utf8Size_eq_one_iff.2 (UInt32.le_iff_toNat_le.2 (Nat.le_of_lt_succ h)))

theorem toNat_toUInt8 {c : Char} (h : c.toNat < 128) : c.toUInt8.toNat = c.toNat := by
  change (UInt8.ofNat c.toNat).toNat = c.toNat
  rw [UInt8.toNat_ofNat_of_lt' (Nat.lt_of_lt_of_le h (by decide))]

/-- The bytes of any other character are not ASCII. -/
theorem le_of_mem_utf8EncodeChar {c : Char} (h : 128 ≤ c.toNat) {b : UInt8} (hb : b ∈ String.utf8EncodeChar c) :
    128 ≤ b.toNat := by
  have hbyte : ∀ n : Nat, 128 ≤ n → n < 256 → 128 ≤ (UInt8.ofNat n).toNat := by
    intro n hlo hhi
    rwa [UInt8.toNat_ofNat_of_lt' hhi]
  have hnot : ¬ c.val.toNat ≤ 0x7f := Nat.not_le.2 h
  unfold String.utf8EncodeChar at hb
  simp only [if_neg hnot] at hb
  split at hb
  · simp only [List.mem_cons, List.not_mem_nil, or_false] at hb
    rcases hb with rfl | rfl <;> exact hbyte _ (by omega) (by omega)
  split at hb
  · simp only [List.mem_cons, List.not_mem_nil, or_false] at hb
    rcases hb with rfl | rfl | rfl <;> exact hbyte _ (by omega) (by omega)
  · simp only [List.mem_cons, List.not_mem_nil, or_false] at hb
    rcases hb with rfl | rfl | rfl | rfl <;> exact hbyte _ (by omega) (by omega)

theorem utf8EncodeChar_wide {c : Char} (h : 128 ≤ c.toNat) :
    ∃ b bs, String.utf8EncodeChar c = b :: bs ∧ 128 ≤ b.toNat := by
  obtain ⟨b, bs, hbytes⟩ := List.exists_cons_of_ne_nil (String.utf8EncodeChar_ne_nil (c := c))
  exact ⟨b, bs, hbytes, le_of_mem_utf8EncodeChar h (hbytes ▸ List.mem_cons_self)⟩

theorem utf8_ascii {cs : List Char} (h : ∀ c ∈ cs, c.toNat < 128) :
    utf8 (String.ofList cs) = cs.map Char.toUInt8 := by
  rw [utf8_ofList]
  induction cs with
  | nil => rfl
  | cons c cs ih =>
    rw [List.flatMap_cons, utf8EncodeChar_ascii (h c List.mem_cons_self), List.map_cons,
      ih (fun d hd => h d (List.mem_cons_of_mem _ hd))]
    rfl

/-- An ASCII character of a string is one of its bytes. -/
theorem mem_utf8_of_ascii {s : String} {c : Char} (hc : c ∈ s.toList) (h : c.toNat < 128) : c.toUInt8 ∈ utf8 s := by
  rw [← String.ofList_toList (s := s), utf8_ofList]
  refine List.mem_flatMap.2 ⟨c, hc, ?_⟩
  rw [utf8EncodeChar_ascii h]
  exact List.mem_singleton_self _

/-- Unicode's `White_Space`. -/
def isWhitespace (c : Char) : Bool :=
  let n := c.toNat
  (9 ≤ n && n ≤ 13) || n == 0x20 || n == 0x85 || n == 0xA0 || n == 0x1680 || (0x2000 ≤ n && n ≤ 0x200A) ||
    n == 0x2028 || n == 0x2029 || n == 0x202F || n == 0x205F || n == 0x3000

/-- `trim_end`. -/
def trimEnd (s : String) : String := String.ofList (s.toList.reverse.dropWhile isWhitespace).reverse

theorem trimEnd_newline {cs : List Char} {c : Char} (h : isWhitespace c = false) :
    trimEnd (String.ofList (cs ++ [c]) ++ "\n") = String.ofList (cs ++ [c]) := by
  have hlf : isWhitespace '\n' = true := by decide
  simp [trimEnd, hlf, h]

/-- The parts before and after the first `c`. -/
def splitOnce (c : Char) : List Char → Option (List Char × List Char)
  | []      => none
  | x :: xs => if x = c then some ([], xs) else (splitOnce c xs).map (fun p => (x :: p.1, p.2))

/-- The first `n` bytes, as `&s[..n]` gives them: nothing where `n` lies inside a character or past the end. -/
def sliceTo : Nat → List Char → Option (List Char)
  | 0, _          => some []
  | _ + 1, []     => none
  | n + 1, c :: cs => if c.utf8Size ≤ n + 1 then (sliceTo (n + 1 - c.utf8Size) cs).map (c :: ·) else none

/-- A slice is the prefix that takes so many bytes. -/
theorem sliceTo_eq_some_iff {n : Nat} {cs ds : List Char} :
    sliceTo n cs = some ds ↔ ds <+: cs ∧ (String.ofList ds).utf8ByteSize = n := by
  rw [String.utf8ByteSize_ofList]
  induction cs generalizing n ds with
  | nil =>
    rw [List.prefix_nil]
    cases n with
    | zero =>
      rw [sliceTo, Option.some_inj]
      exact ⟨fun h => ⟨h.symm, h ▸ rfl⟩, fun h => h.1.symm⟩
    | succ n =>
      constructor
      · intro h
        cases h
      · rintro ⟨rfl, h⟩
        cases h
  | cons c cs ih =>
    cases n with
    | zero =>
      rw [sliceTo, Option.some_inj]
      refine ⟨fun h => h ▸ ⟨List.nil_prefix, rfl⟩, fun h => ?_⟩
      exact (String.utf8Len_eq_zero.1 h.2).symm
    | succ n =>
      rw [sliceTo]
      constructor
      · intro h
        split at h
        · obtain ⟨es, hes, rfl⟩ := Option.map_eq_some_iff.1 h
          obtain ⟨hpre, hsize⟩ := ih.1 hes
          refine ⟨(List.prefix_cons_inj c).2 hpre, ?_⟩
          rw [String.utf8Len_cons]
          omega
        · cases h
      · rintro ⟨hpre, hsize⟩
        cases ds with
        | nil => cases hsize
        | cons d ds =>
          obtain ⟨rfl, hds⟩ := List.cons_prefix_cons.1 hpre
          rw [String.utf8Len_cons] at hsize
          have hrest : sliceTo (n + 1 - d.utf8Size) cs = some ds := ih.2 ⟨hds, by omega⟩
          rw [if_pos (by omega), hrest]
          rfl

theorem sliceTo_size {n : Nat} {cs ds : List Char} (h : sliceTo n cs = some ds) :
    (String.ofList ds).utf8ByteSize = n := (sliceTo_eq_some_iff.1 h).2

def digitVal (c : Char) : Option Nat :=
  if '0' ≤ c ∧ c ≤ '9' then some (c.toNat - '0'.toNat) else none

/-- The value of a string of digits after those that gave `acc`; none past `max`. -/
def digitsFrom (max : Nat) : Nat → List Char → Option Nat
  | acc, []      => some acc
  | acc, c :: cs =>
    match digitVal c with
    | none => none
    | some d => if acc * 10 + d > max then none else digitsFrom max (acc * 10 + d) cs

/-- `from_str` of an unsigned integer type whose largest value is `max`: digits, after at most one `+`. -/
def parseUnsigned (max : Nat) (s : List Char) : Option Nat :=
  match s with
  | []        => none
  | ['+']     => none
  | '+' :: cs => digitsFrom max 0 cs
  | cs        => digitsFrom max 0 cs

theorem digitsFrom_append (max acc : Nat) (ds es : List Char) :
    digitsFrom max acc (ds ++ es) = (digitsFrom max acc ds).bind (fun n => digitsFrom max n es) := by
  induction ds generalizing acc with
  | nil => rfl
  | cons c ds ih =>
    rw [List.cons_append, digitsFrom, digitsFrom]
    split
    · rfl
    · split
      · rfl
      · exact ih _

theorem digitVal_digitChar : ∀ d < 10, digitVal (Nat.digitChar d) = some d := by decide

/-- **A number is read back from its decimal digits.** -/
theorem digitsFrom_toDigits {max n : Nat} (h : n ≤ max) : digitsFrom max 0 (Nat.toDigits 10 n) = some n := by
  induction n using Nat.strongRecOn with
  | ind n ih =>
    by_cases hn : n < 10
    · rw [Nat.toDigits_of_lt_base hn, digitsFrom, digitVal_digitChar n hn]
      simp only [Nat.zero_mul, Nat.zero_add, if_neg (Nat.not_lt.2 h)]
      rfl
    · have hdiv : n / 10 * 10 + n % 10 = n := by omega
      rw [Nat.toDigits_of_base_le (by decide) (Nat.not_lt.1 hn), digitsFrom_append, ih (n / 10) (by omega) (by omega)]
      simp only [Option.bind_some, digitsFrom, digitVal_digitChar (n % 10) (Nat.mod_lt _ (by decide)), hdiv,
        if_neg (Nat.not_lt.2 h)]

theorem digitsFrom_none {max : Nat} {c : Char} (hc : digitVal c = none) {cs : List Char} (h : c ∈ cs) (acc : Nat) :
    digitsFrom max acc cs = none := by
  induction cs generalizing acc with
  | nil => cases h
  | cons d cs ih =>
    rw [digitsFrom]
    rcases List.mem_cons.1 h with rfl | h
    · rw [hc]
    · split
      · rfl
      · split
        · rfl
        · exact ih h _

theorem digitVal_some {c : Char} {d : Nat} : digitVal c = some d ↔ ('0' ≤ c ∧ c ≤ '9') ∧ d = c.toNat - '0'.toNat := by
  unfold digitVal
  split
  · rename_i h
    exact ⟨fun heq => ⟨h, (Option.some.inj heq).symm⟩, fun heq => heq.2 ▸ rfl⟩
  · rename_i h
    exact iff_of_false (fun heq => (by cases heq)) fun heq => h heq.1

/-- **A string of digits is read as its value**, unless that is past `max`. -/
theorem digitsFrom_eq {max acc : Nat} {ds : List Char} (hacc : acc ≤ max) (hds : ∀ c ∈ ds, '0' ≤ c ∧ c ≤ '9') :
    digitsFrom max acc ds = if Nat.ofDigitChars 10 ds acc ≤ max then some (Nat.ofDigitChars 10 ds acc) else none := by
  induction ds generalizing acc with
  | nil => rw [digitsFrom, Nat.ofDigitChars_nil, if_pos hacc]
  | cons c ds ih =>
    rw [digitsFrom, digitVal_some.2 ⟨hds c List.mem_cons_self, rfl⟩, Nat.ofDigitChars_cons, Nat.mul_comm 10]
    simp only
    split
    · rename_i hbig
      have hgrow : acc * 10 + (c.toNat - '0'.toNat) ≤ Nat.ofDigitChars 10 ds (acc * 10 + (c.toNat - '0'.toNat)) := by
        rw [Nat.ofDigitChars_eq_ofDigitChars_zero]
        exact Nat.le_trans (Nat.le_mul_of_pos_left _ (Nat.pow_pos (by decide))) (Nat.le_add_right _ _)
      rw [if_neg (by omega)]
    · rename_i hsmall
      exact ih (Nat.not_lt.1 hsmall) fun c hc => hds c (List.mem_cons_of_mem _ hc)

/-- Only digits are read. -/
theorem digits_of_digitsFrom {max acc n : Nat} {ds : List Char} (h : digitsFrom max acc ds = some n) :
    ∀ c ∈ ds, '0' ≤ c ∧ c ≤ '9' := by
  intro c hc
  cases hd : digitVal c with
  | some d => exact (digitVal_some.1 hd).1
  | none =>
    rw [digitsFrom_none hd hc acc] at h
    cases h

theorem digitChar_digitVal {c : Char} (h : '0' ≤ c ∧ c ≤ '9') : Nat.digitChar (c.toNat - '0'.toNat) = c := by
  have hall : ∀ n < 58, 48 ≤ n → Nat.digitChar (n - 48) = Char.ofNat n := by decide
  have hlo : 48 ≤ c.toNat := h.1
  have hhi : c.toNat ≤ 57 := h.2
  have hc := hall c.toNat (by omega) hlo
  rw [Char.ofNat_toNat] at hc
  exact hc

/-- **The decimal form of what a string of digits is read as is the string**, unless it has zeros in front. -/
theorem toDigits_ofDigitChars {ds : List Char} (hne : ds ≠ []) (hds : ∀ c ∈ ds, '0' ≤ c ∧ c ≤ '9')
    (hlead : ds = ['0'] ∨ ds.head? ≠ some '0') : Nat.toDigits 10 (Nat.ofDigitChars 10 ds 0) = ds := by
  induction ds using List.reverseRecOn with
  | nil => exact absurd rfl hne
  | append_singleton ds c ih =>
    have hc := hds c (List.mem_append_right _ List.mem_cons_self)
    have hdigit : c.toNat - '0'.toNat < 10 := by
      have hhi : c.toNat ≤ 57 := hc.2
      change c.toNat - 48 < 10
      omega
    rw [Nat.ofDigitChars_append, Nat.ofDigitChars_cons, Nat.ofDigitChars_nil]
    rcases ds with _ | ⟨d, ds⟩
    · rw [Nat.ofDigitChars_nil, Nat.mul_zero, Nat.zero_add, Nat.toDigits_of_lt_base hdigit, digitChar_digitVal hc]
      rfl
    · -- The first digit is not a zero, so the value of the digits before the last one is positive.
      have hhead : d ≠ '0' := by
        rintro rfl
        rcases hlead with heq | hlead
        · cases ds <;> cases heq
        · exact hlead rfl
      have hread := ih (List.cons_ne_nil d ds) (fun c hc => hds c (List.mem_append_left _ hc))
        (.inr fun heq => hhead (Option.some.inj heq))
      have hpos : 0 < Nat.ofDigitChars 10 (d :: ds) 0 := by
        rcases Nat.eq_zero_or_pos (Nat.ofDigitChars 10 (d :: ds) 0) with h0 | hpos
        · rw [h0, Nat.toDigits_zero] at hread
          exact absurd (List.cons.inj hread).1.symm hhead
        · exact hpos
      rw [← Nat.toDigits_append_toDigits (by decide) hpos hdigit, hread, Nat.toDigits_of_lt_base hdigit,
        digitChar_digitVal hc]

/-! ## Parts of a name, told apart -/

theorem toList_toString (n : Nat) : (toString n).toList = Nat.toDigits 10 n := by
  simp

/-- A character that is no digit is not in the decimal form of a number. -/
theorem not_mem_toString {c : Char} (h : c.isDigit = false) (n : Nat) : c ∉ (toString n).toList := by
  rw [toList_toString]
  intro hc
  rw [Nat.isDigit_of_mem_toDigits (by decide) (by decide) hc] at h
  cases h

theorem prefix_inj {c : Char} : ∀ {xs ys as bs : List Char}, c ∉ xs → c ∉ ys → xs ++ c :: as = ys ++ c :: bs →
    xs = ys ∧ as = bs
  | [], [], _, _, _, _, h => ⟨rfl, (List.cons.inj h).2⟩
  | [], y :: ys, _, _, _, hy, h => absurd (List.cons.inj h).1 (fun hc => hy (hc ▸ List.mem_cons_self))
  | x :: xs, [], _, _, hx, _, h => absurd (List.cons.inj h).1.symm (fun hc => hx (hc ▸ List.mem_cons_self))
  | x :: xs, y :: ys, _, _, hx, hy, h => by
    obtain ⟨hxy, hrest⟩ := List.cons.inj h
    obtain ⟨rfl, has⟩ := prefix_inj (fun hc => hx (List.mem_cons_of_mem _ hc))
      (fun hc => hy (List.mem_cons_of_mem _ hc)) hrest
    exact ⟨by rw [hxy], has⟩

/-- **A text is told apart at the last place of a character.** -/
theorem suffix_inj {c : Char} {xs ys as bs : List Char} (ha : c ∉ as) (hb : c ∉ bs)
    (h : xs ++ c :: as = ys ++ c :: bs) : xs = ys ∧ as = bs := by
  have hrev : as.reverse ++ c :: xs.reverse = bs.reverse ++ c :: ys.reverse := by
    simpa using congrArg List.reverse h
  obtain ⟨has, hxs⟩ := prefix_inj (fun hc => ha (List.mem_reverse.1 hc)) (fun hc => hb (List.mem_reverse.1 hc)) hrev
  exact ⟨List.reverse_injective hxs, List.reverse_injective has⟩

/-- The parts before and after the first `c`, where there is one. -/
theorem splitOnce_append {c : Char} {xs : List Char} (h : c ∉ xs) (ys : List Char) :
    splitOnce c (xs ++ c :: ys) = some (xs, ys) := by
  induction xs with
  | nil => exact if_pos rfl
  | cons x xs ih =>
    have hx : x ≠ c := fun hx => h (hx ▸ List.mem_cons_self)
    rw [List.cons_append, splitOnce, if_neg hx, ih (fun hc => h (List.mem_cons_of_mem _ hc))]
    rfl

/-- `from_str` reads the decimal form of a number in range. -/
theorem parseUnsigned_toString {max n : Nat} (h : n ≤ max) : parseUnsigned max (toString n).toList = some n := by
  have hplus : '+' ∉ (toString n).toList := not_mem_toString (by decide) n
  have hread := digitsFrom_toDigits h
  rw [← toList_toString] at hread
  unfold parseUnsigned
  split
  · rename_i hnil
    rw [toList_toString] at hnil
    exact absurd hnil (Nat.toDigits_ne_nil)
  · rename_i hs
    rw [hs] at hplus
    exact absurd List.mem_cons_self hplus
  · rename_i hs
    rw [hs] at hplus
    exact absurd List.mem_cons_self hplus
  · exact hread

theorem toString_toList_inj {n m : Nat} (h : (toString n).toList = (toString m).toList) : n = m := by
  have hn := digitsFrom_toDigits (Nat.le_max_left n m)
  have hm := digitsFrom_toDigits (Nat.le_max_right n m)
  rw [← toList_toString] at hn hm
  rw [h] at hn
  exact Option.some.inj (hn.symm.trans hm)

/-- **A counter is read off the end of a text**, after a marker that is no digit, and with it what stands before. -/
theorem counted_inj {a c : Char} (hc : c.isDigit = false) {xs ys : List Char} {n m : Nat}
    (h : xs ++ a :: c :: (toString n).toList = ys ++ a :: c :: (toString m).toList) : xs = ys ∧ n = m := by
  have hsplit : (xs ++ [a]) ++ c :: (toString n).toList = (ys ++ [a]) ++ c :: (toString m).toList := by
    rw [List.append_assoc, List.append_assoc]
    exact h
  obtain ⟨hfront, hdigits⟩ := suffix_inj (not_mem_toString hc n) (not_mem_toString hc m) hsplit
  exact ⟨List.append_cancel_right hfront, toString_toList_inj hdigits⟩

/-- `from_str` refuses a text with a character that is neither a digit nor a sign. -/
theorem parseUnsigned_none {max : Nat} {c : Char} (hc : digitVal c = none) (hplus : c ≠ '+') {cs : List Char}
    (h : c ∈ cs) : parseUnsigned max cs = none := by
  unfold parseUnsigned
  split
  · rfl
  · rfl
  · rcases List.mem_cons.1 h with rfl | h
    · exact absurd rfl hplus
    · exact digitsFrom_none hc h 0
  · exact digitsFrom_none hc h 0

/-- The first place of a character. -/
theorem exists_first {c : Char} {cs : List Char} (h : c ∈ cs) : ∃ as bs, cs = as ++ c :: bs ∧ c ∉ as := by
  induction cs with
  | nil => cases h
  | cons d cs ih =>
    by_cases hd : d = c
    · exact ⟨[], cs, by rw [hd]; rfl, List.not_mem_nil⟩
    · rcases List.mem_cons.1 h with rfl | h
      · exact absurd rfl hd
      · obtain ⟨as, bs, rfl, has⟩ := ih h
        refine ⟨d :: as, bs, rfl, fun hc => ?_⟩
        rcases List.mem_cons.1 hc with rfl | hc
        · exact hd rfl
        · exact has hc

/-- A prefix that is stripped stood in front. -/
theorem dropPrefix_eq_some {s p r : List Char} : s.dropPrefix? p = some r ↔ s = p ++ r := by
  rw [List.dropPrefix?_eq_some_iff]
  constructor
  · rintro ⟨p', rfl, hp⟩
    rw [eq_of_beq hp]
  · rintro rfl
    exact ⟨p, rfl, beq_self_eq_true p⟩

theorem splitOnce_none {c : Char} {s : List Char} (h : c ∉ s) : splitOnce c s = none := by
  induction s with
  | nil => rfl
  | cons x s ih =>
    have hx : x ≠ c := fun hx => h (hx ▸ List.mem_cons_self)
    rw [splitOnce, if_neg hx, ih fun hc => h (List.mem_cons_of_mem _ hc)]
    rfl

theorem splitOnce_eq_some {c : Char} {s xs ys : List Char} :
    splitOnce c s = some (xs, ys) ↔ s = xs ++ c :: ys ∧ c ∉ xs := by
  constructor
  · intro h
    by_cases hc : c ∈ s
    · obtain ⟨as, bs, rfl, has⟩ := exists_first hc
      rw [splitOnce_append has] at h
      obtain ⟨rfl, rfl⟩ := Prod.mk.inj (Option.some.inj h)
      exact ⟨rfl, has⟩
    · rw [splitOnce_none hc] at h
      cases h
  · rintro ⟨rfl, h⟩
    exact splitOnce_append h ys

end Text
