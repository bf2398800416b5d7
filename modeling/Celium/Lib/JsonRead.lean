import Celium.Lib.Json
import Mathlib.Data.List.Forall2
/-!
# JsonRead — a reader of JSON texts, by the grammar of RFC 8259

Values with blanks between their tokens, strings with their escapes and without a bare control character, numbers kept as
their text.  The reader is given fuel; `parse` gives it the length of the text.  `Reads` says that a text is read as a
value wherever it stands, and one lemma for each kind of value builds it up from the parts.
-/
namespace Json

/-- A JSON value; a number is its text. -/
inductive Value where
  | null
  | bool (b : Bool)
  | num (text : List Char)
  | str (s : List Char)
  | arr (vs : List Value)
  | obj (ms : List (List Char × Value))

/-! ## The reader -/

def isWs (c : Char) : Bool := c == ' ' || c == '\t' || c == '\n' || c == '\r'

def skipWs (cs : List Char) : List Char := cs.dropWhile isWs

def isDigit (c : Char) : Bool := '0' ≤ c && c ≤ '9'

def hexVal (c : Char) : Option Nat :=
  if '0' ≤ c ∧ c ≤ '9' then some (c.toNat - '0'.toNat)
  else if 'a' ≤ c ∧ c ≤ 'f' then some (10 + (c.toNat - 'a'.toNat))
  else if 'A' ≤ c ∧ c ≤ 'F' then some (10 + (c.toNat - 'A'.toNat))
  else none

/-- The code unit that four hex digits stand for. -/
def codeUnit (a b c d : Char) : Option Nat := do
  let a ← hexVal a
  let b ← hexVal b
  let c ← hexVal c
  let d ← hexVal d
  pure (((a * 16 + b) * 16 + c) * 16 + d)

/-- What stands after a backslash, where that is one character. -/
def unescape : Char → Option Char
  | '"'  => some '"'
  | '\\' => some '\\'
  | '/'  => some '/'
  | 'b'  => some (Char.ofNat 8)
  | 'f'  => some (Char.ofNat 12)
  | 'n'  => some '\n'
  | 'r'  => some '\r'
  | 't'  => some '\t'
  | _    => none

/-- A string up to its closing quote. -/
def readString : List Char → Option (List Char × List Char)
  | [] => none
  | '"' :: rest => some ([], rest)
  | '\\' :: 'u' :: a :: b :: c :: d :: '\\' :: 'u' :: e :: f :: g :: h :: rest =>
    match codeUnit a b c d, codeUnit e f g h with
    | some n, some m =>
      if 0xD800 ≤ n ∧ n < 0xDC00 ∧ 0xDC00 ≤ m ∧ m < 0xE000 then
        (readString rest).map (fun p => (Char.ofNat (0x10000 + (n - 0xD800) * 0x400 + (m - 0xDC00)) :: p.1, p.2))
      else if 0xD800 ≤ n ∧ n < 0xE000 then none
      else (readString ('\\' :: 'u' :: e :: f :: g :: h :: rest)).map (fun p => (Char.ofNat n :: p.1, p.2))
    | _, _ => none
  | '\\' :: 'u' :: a :: b :: c :: d :: rest =>
    match codeUnit a b c d with
    | none => none
    | some n =>
      if 0xD800 ≤ n ∧ n < 0xE000 then none else (readString rest).map (fun p => (Char.ofNat n :: p.1, p.2))
  | '\\' :: e :: rest =>
    match unescape e with
    | none => none
    | some c => (readString rest).map (fun p => (c :: p.1, p.2))
  | c :: rest => if c.toNat < 32 then none else (readString rest).map (fun p => (c :: p.1, p.2))

/-- Digits, at least one. -/
def readDigits (cs : List Char) : Option (List Char × List Char) :=
  if cs.takeWhile isDigit = [] then none else some (cs.takeWhile isDigit, cs.dropWhile isDigit)

/-- The whole part of a number: no zero leads another digit. -/
def readInt : List Char → Option (List Char × List Char)
  | '0' :: rest => some (['0'], rest)
  | cs => readDigits cs

/-- The part after the point, if there is one. -/
def readFrac : List Char → Option (List Char × List Char)
  | '.' :: rest => (readDigits rest).map (fun p => ('.' :: p.1, p.2))
  | cs => some ([], cs)

/-- The digits of an exponent, after its sign. -/
def readExpDigits (e : Char) : List Char → Option (List Char × List Char)
  | '+' :: rest => (readDigits rest).map (fun p => (e :: '+' :: p.1, p.2))
  | '-' :: rest => (readDigits rest).map (fun p => (e :: '-' :: p.1, p.2))
  | rest => (readDigits rest).map (fun p => (e :: p.1, p.2))

/-- The exponent, if there is one. -/
def readExp : List Char → Option (List Char × List Char)
  | 'e' :: rest => readExpDigits 'e' rest
  | 'E' :: rest => readExpDigits 'E' rest
  | cs => some ([], cs)

def readUnsigned (cs : List Char) : Option (List Char × List Char) := do
  let (whole, cs) ← readInt cs
  let (frac, cs) ← readFrac cs
  let (ex, cs) ← readExp cs
  pure (whole ++ frac ++ ex, cs)

def readNumber : List Char → Option (List Char × List Char)
  | '-' :: rest => (readUnsigned rest).map (fun p => ('-' :: p.1, p.2))
  | cs => readUnsigned cs

mutual

def readValue : Nat → List Char → Option (Value × List Char)
  | 0, _ => none
  | fuel + 1, cs =>
    match skipWs cs with
    | '"' :: rest => (readString rest).map (fun p => (.str p.1, p.2))
    | '[' :: rest =>
      match skipWs rest with
      | ']' :: rest => some (.arr [], rest)
      | rest => (readElements fuel rest).map (fun p => (.arr p.1, p.2))
    | '{' :: rest =>
      match skipWs rest with
      | '}' :: rest => some (.obj [], rest)
      | rest => (readMembers fuel rest).map (fun p => (.obj p.1, p.2))
    | 'n' :: 'u' :: 'l' :: 'l' :: rest => some (.null, rest)
    | 't' :: 'r' :: 'u' :: 'e' :: rest => some (.bool true, rest)
    | 'f' :: 'a' :: 'l' :: 's' :: 'e' :: rest => some (.bool false, rest)
    | rest => (readNumber rest).map (fun p => (.num p.1, p.2))

/-- The elements of an array, up to its closing bracket. -/
def readElements : Nat → List Char → Option (List Value × List Char)
  | 0, _ => none
  | fuel + 1, cs =>
    match readValue fuel cs with
    | none => none
    | some (v, rest) =>
      match skipWs rest with
      | ',' :: rest => (readElements fuel rest).map (fun p => (v :: p.1, p.2))
      | ']' :: rest => some ([v], rest)
      | _ => none

/-- The members of an object, up to its closing brace. -/
def readMembers : Nat → List Char → Option (List (List Char × Value) × List Char)
  | 0, _ => none
  | fuel + 1, cs =>
    match skipWs cs with
    | '"' :: rest =>
      match readString rest with
      | none => none
      | some (key, rest) =>
        match skipWs rest with
        | ':' :: rest =>
          match readValue fuel rest with
          | none => none
          | some (v, rest) =>
            match skipWs rest with
            | ',' :: rest => (readMembers fuel rest).map (fun p => ((key, v) :: p.1, p.2))
            | '}' :: rest => some ([(key, v)], rest)
            | _ => none
        | _ => none
    | _ => none

end

/-- The value a text is, if it is a JSON text. -/
def parse (cs : List Char) : Option Value :=
  match readValue (cs.length + 1) cs with
  | none => none
  | some (v, rest) => if skipWs rest = [] then some v else none

example : readString "a\\u00e9\\ud83d\\ude00\\n\"".toList = some ("aé😀\n".toList, []) := by decide +kernel

/-! ## Texts that are read wherever they stand -/

/-- What may follow a number. -/
def Boundary (rest : List Char) : Prop := ∀ c ∈ rest.head?, isDigit c = false ∧ c ≠ '.' ∧ c ≠ 'e' ∧ c ≠ 'E'

structure Reads (t : List Char) (v : Value) : Prop where
  head : ∃ c cs, t = c :: cs ∧ isWs c = false ∧ c ≠ ']' ∧ c ≠ '}'
  read : ∀ fuel rest, t.length < fuel → Boundary rest → readValue fuel (t ++ rest) = some (v, rest)

/-- A character that stands for itself in a string. -/
def PlainChar (c : Char) : Prop := c ≠ '"' ∧ c ≠ '\\' ∧ 32 ≤ c.toNat

instance (c : Char) : Decidable (PlainChar c) := inferInstanceAs (Decidable (_ ∧ _ ∧ _))

/-- For texts that are given, where deciding over all characters would be much too slow. -/
theorem plain_of_all {s : List Char} (h : s.all (fun c => decide (PlainChar c)) = true) : ∀ c ∈ s, PlainChar c :=
  fun c hc => of_decide_eq_true (List.all_eq_true.1 h c hc)

theorem skipWs_cons {c : Char} (h : isWs c = false) (cs : List Char) : skipWs (c :: cs) = c :: cs := by
  rw [skipWs, List.dropWhile_cons_of_neg (by rw [h]; exact Bool.false_ne_true)]

theorem parse_of_reads {t : List Char} {v : Value} (h : Reads t v) : parse t = some v := by
  have := h.read (t.length + 1) [] (Nat.lt_succ_self _) (fun c hc => by cases hc)
  rw [List.append_nil] at this
  simp [parse, this, skipWs]

theorem readString_plain {s : List Char} (h : ∀ c ∈ s, PlainChar c) (rest : List Char) :
    readString (s ++ '"' :: rest) = some (s, rest) := by
  induction s with
  | nil => rfl
  | cons c s ih =>
    obtain ⟨hquote, hslash, hge⟩ := h c List.mem_cons_self
    have hrest := ih (fun d hd => h d (List.mem_cons_of_mem _ hd))
    have hlow : ¬ c.toNat < 32 := Nat.not_lt.2 hge
    rw [List.cons_append]
    unfold readString
    -- The first character rules out every case but the last.
    split <;> simp_all

/-! ## Numbers -/

theorem readDigits_append {ds : List Char} (hne : ds ≠ []) (hds : ∀ c ∈ ds, isDigit c = true) {rest : List Char}
    (hrest : Boundary rest) : readDigits (ds ++ rest) = some (ds, rest) := by
  have hstop : rest.takeWhile isDigit = [] ∧ rest.dropWhile isDigit = rest := by
    cases rest with
    | nil => exact ⟨rfl, rfl⟩
    | cons c cs =>
      have hc := (hrest c rfl).1
      exact ⟨List.takeWhile_cons_of_neg (by rw [hc]; exact Bool.false_ne_true),
        List.dropWhile_cons_of_neg (by rw [hc]; exact Bool.false_ne_true)⟩
  have htake : (ds ++ rest).takeWhile isDigit = ds := by
    rw [List.takeWhile_append_of_pos hds, hstop.1, List.append_nil]
  have hdrop : (ds ++ rest).dropWhile isDigit = rest := by
    rw [List.dropWhile_append_of_pos hds, hstop.2]
  rw [readDigits, htake, hdrop, if_neg hne]

/-- The digits of a number, without a leading zero. -/
structure Decimal (ds : List Char) : Prop where
  digits : ∀ c ∈ ds, isDigit c = true
  lead : ds = ['0'] ∨ ∃ c cs, ds = c :: cs ∧ c ≠ '0'

theorem Decimal.head {ds : List Char} (h : Decimal ds) : ∃ c cs, ds = c :: cs ∧ isDigit c = true := by
  rcases h.lead with rfl | ⟨c, cs, rfl, -⟩
  · exact ⟨'0', [], rfl, rfl⟩
  · exact ⟨c, cs, rfl, h.digits c List.mem_cons_self⟩

theorem readInt_decimal {ds : List Char} (h : Decimal ds) {rest : List Char} (hrest : Boundary rest) :
    readInt (ds ++ rest) = some (ds, rest) := by
  rcases h.lead with rfl | ⟨c, cs, rfl, hc⟩
  · rfl
  · rw [← readDigits_append (List.cons_ne_nil c cs) h.digits hrest, List.cons_append]
    unfold readInt
    split
    · rename_i heq
      exact absurd (List.cons.inj heq).1 hc
    · rfl

/-- After the digits of a whole number nothing more of it is read. -/
theorem readFrac_boundary {rest : List Char} (h : Boundary rest) : readFrac rest = some ([], rest) := by
  unfold readFrac
  split
  · exact absurd rfl (h '.' rfl).2.1
  · rfl

theorem readExp_boundary {rest : List Char} (h : Boundary rest) : readExp rest = some ([], rest) := by
  unfold readExp
  split
  · exact absurd rfl (h 'e' rfl).2.2.1
  · exact absurd rfl (h 'E' rfl).2.2.2
  · rfl

theorem ne_of_isDigit {c d : Char} (h : isDigit c = true) (hd : isDigit d = false) : c ≠ d := by
  rintro rfl
  rw [hd] at h
  cases h

theorem isWs_of_isDigit {c : Char} (h : isDigit c = true) : isWs c = false := by
  simp only [isWs, Bool.or_eq_false_iff, beq_eq_false_iff_ne]
  exact ⟨⟨⟨ne_of_isDigit h rfl, ne_of_isDigit h rfl⟩, ne_of_isDigit h rfl⟩, ne_of_isDigit h rfl⟩

theorem readNumber_decimal {ds : List Char} (h : Decimal ds) {rest : List Char} (hrest : Boundary rest) :
    readNumber (ds ++ rest) = some (ds, rest) := by
  have hunsigned : readUnsigned (ds ++ rest) = some (ds, rest) := by
    simp [readUnsigned, readInt_decimal h hrest, readFrac_boundary hrest, readExp_boundary hrest]
  obtain ⟨c, cs, rfl, hc⟩ := h.head
  rw [← hunsigned, List.cons_append]
  unfold readNumber
  split
  · rename_i heq
    exact absurd (List.cons.inj heq).1 (ne_of_isDigit hc rfl)
  · rfl

theorem reads_num {ds : List Char} (h : Decimal ds) : Reads ds (.num ds) := by
  obtain ⟨c, cs, hcs, hc⟩ := h.head
  have hws := isWs_of_isDigit hc
  refine ⟨⟨c, cs, hcs, hws, ne_of_isDigit hc rfl, ne_of_isDigit hc rfl⟩, fun fuel rest hfuel hrest => ?_⟩
  cases fuel with
  | zero => cases hfuel
  | succ fuel =>
    have hnum := readNumber_decimal h hrest
    rw [hcs, List.cons_append] at hnum ⊢
    unfold readValue
    rw [skipWs_cons hws]
    split
    case h_7 =>
      rw [hnum]
      rfl
    all_goals
      rename_i heq
      exact absurd (List.cons.inj heq).1 (ne_of_isDigit hc rfl)

theorem reads_str {s : List Char} (h : ∀ c ∈ s, PlainChar c) : Reads ('"' :: s ++ ['"']) (.str s) := by
  refine ⟨⟨'"', s ++ ['"'], rfl, rfl, by decide, by decide⟩, fun fuel rest hfuel _ => ?_⟩
  cases fuel with
  | zero => cases hfuel
  | succ fuel =>
    have hs := readString_plain h rest
    rw [List.append_assoc, List.cons_append, List.singleton_append]
    unfold readValue
    rw [skipWs_cons rfl]
    simp only [hs, Option.map_some]

/-! ## Arrays and objects -/

/-- Texts with commas between them. -/
def sep : List (List Char) → List Char
  | []      => []
  | t :: ts => t ++ ts.flatMap (',' :: ·)

theorem boundary_comma (rest : List Char) : Boundary (',' :: rest) := by
  rintro c ⟨⟩
  decide

theorem readElements_sep {t : List Char} {v : Value} {ts : List (List Char)} {vs : List Value} (h : Reads t v)
    (hs : List.Forall₂ Reads ts vs) (rest : List Char) :
    ∀ fuel, (sep (t :: ts)).length + 1 < fuel →
      readElements fuel (sep (t :: ts) ++ ']' :: rest) = some (v :: vs, rest) := by
  induction hs generalizing t v with
  | nil =>
    intro fuel hfuel
    cases fuel with
    | zero => cases hfuel
    | succ fuel =>
      simp only [sep, List.flatMap_nil, List.append_nil] at hfuel ⊢
      have hread := h.read fuel (']' :: rest) (by omega) (by rintro c ⟨⟩; decide)
      rw [readElements, hread]
      simp only [skipWs_cons (c := ']') rfl]
  | @cons t' v' ts' vs' h' hs' ih =>
    intro fuel hfuel
    cases fuel with
    | zero => cases hfuel
    | succ fuel =>
      have hsplit : sep (t :: t' :: ts') ++ ']' :: rest = t ++ ',' :: (sep (t' :: ts') ++ ']' :: rest) := by
        simp [sep]
      have hlen : (sep (t :: t' :: ts')).length = t.length + 1 + (sep (t' :: ts')).length := by
        simp [sep]
        omega
      obtain ⟨c, cs, hc, -⟩ := h.head
      have hpos : 0 < t.length := by
        rw [hc]
        exact Nat.succ_pos _
      have hread := h.read fuel (',' :: (sep (t' :: ts') ++ ']' :: rest)) (by omega) (boundary_comma _)
      rw [hsplit, readElements, hread]
      simp only [skipWs_cons (c := ',') rfl, ih h' fuel (by omega), Option.map_some]

/-- **An array is read from the texts of its elements.** -/
theorem reads_arr {ts : List (List Char)} {vs : List Value} (hs : List.Forall₂ Reads ts vs) :
    Reads ('[' :: sep ts ++ [']']) (.arr vs) := by
  refine ⟨⟨'[', _, rfl, rfl, by decide, by decide⟩, fun fuel rest hfuel _ => ?_⟩
  cases fuel with
  | zero => cases hfuel
  | succ fuel =>
    rw [List.append_assoc, List.cons_append, List.singleton_append, readValue, skipWs_cons (c := '[') rfl]
    cases hs with
    | nil =>
      simp only [sep, List.nil_append, skipWs_cons (c := ']') rfl]
    | @cons t v ts vs h hs =>
      obtain ⟨c, cs, hc, hws, hne, -⟩ := h.head
      have hhead : ∃ r, sep (t :: ts) ++ ']' :: rest = c :: r := ⟨_, by rw [sep, hc]; rfl⟩
      obtain ⟨r, hr⟩ := hhead
      have helems := readElements_sep h hs rest fuel
        (by simp only [List.length_cons, List.length_append, List.length_nil] at hfuel; omega)
      simp only
      rw [hr, skipWs_cons hws]
      split
      · rename_i heq
        exact absurd (List.cons.inj heq).1 hne
      · rw [← hr, helems]
        rfl

/-- The text of a member of an object, and the member it is read as. -/
structure ReadsMember (t : List Char) (m : List Char × Value) : Prop where
  plain : ∀ c ∈ m.1, PlainChar c
  value : ∃ u, t = '"' :: m.1 ++ '"' :: ':' :: u ∧ Reads u m.2

/-- The members loop on one member. -/
theorem readMembers_one {t : List Char} {m : List Char × Value} (h : ReadsMember t m) {rest : List Char}
    (hrest : Boundary rest) {fuel : Nat} (hfuel : t.length < fuel + 1) :
    readMembers (fuel + 1) (t ++ rest) =
      match skipWs rest with
      | ',' :: rest => (readMembers fuel rest).map (fun p => (m :: p.1, p.2))
      | '}' :: rest => some ([m], rest)
      | _ => none := by
  obtain ⟨u, rfl, hu⟩ := h.value
  have hkey := readString_plain h.plain (':' :: (u ++ rest))
  have hvalue := hu.read fuel rest
    (by simp only [List.length_append, List.length_cons] at hfuel; omega) hrest
  have hshape : '"' :: m.1 ++ '"' :: ':' :: u ++ rest = '"' :: (m.1 ++ '"' :: ':' :: (u ++ rest)) := by simp
  rw [hshape, readMembers, skipWs_cons rfl]
  simp only [hkey, skipWs_cons (c := ':') rfl, hvalue]

theorem readMembers_sep {t : List Char} {m : List Char × Value} {ts : List (List Char)}
    {ms : List (List Char × Value)} (h : ReadsMember t m) (hs : List.Forall₂ ReadsMember ts ms) (rest : List Char) :
    ∀ fuel, (sep (t :: ts)).length + 1 < fuel →
      readMembers fuel (sep (t :: ts) ++ '}' :: rest) = some (m :: ms, rest) := by
  induction hs generalizing t m with
  | nil =>
    intro fuel hfuel
    cases fuel with
    | zero => cases hfuel
    | succ fuel =>
      simp only [sep, List.flatMap_nil, List.append_nil] at hfuel ⊢
      rw [readMembers_one h (by rintro c ⟨⟩; decide) (by omega)]
      simp only [skipWs_cons (c := '}') rfl]
  | @cons t' m' ts' ms' h' hs' ih =>
    intro fuel hfuel
    cases fuel with
    | zero => cases hfuel
    | succ fuel =>
      have hsplit : sep (t :: t' :: ts') ++ '}' :: rest = t ++ ',' :: (sep (t' :: ts') ++ '}' :: rest) := by
        simp [sep]
      have hlen : (sep (t :: t' :: ts')).length = t.length + 1 + (sep (t' :: ts')).length := by
        simp [sep]
        omega
      rw [hsplit, readMembers_one h (boundary_comma _) (by omega)]
      simp only [skipWs_cons (c := ',') rfl, ih h' fuel (by omega), Option.map_some]

/-- **An object is read from the texts of its members.** -/
theorem reads_obj {ts : List (List Char)} {ms : List (List Char × Value)} (hs : List.Forall₂ ReadsMember ts ms) :
    Reads ('{' :: sep ts ++ ['}']) (.obj ms) := by
  refine ⟨⟨'{', _, rfl, rfl, by decide, by decide⟩, fun fuel rest hfuel _ => ?_⟩
  cases fuel with
  | zero => cases hfuel
  | succ fuel =>
    rw [List.append_assoc, List.cons_append, List.singleton_append, readValue, skipWs_cons (c := '{') rfl]
    cases hs with
    | nil =>
      simp only [sep, List.nil_append, skipWs_cons (c := '}') rfl]
    | @cons t m ts ms h hs =>
      obtain ⟨u, hu, -⟩ := h.value
      obtain ⟨r, hr⟩ : ∃ r, sep (t :: ts) ++ '}' :: rest = '"' :: r := ⟨_, by rw [sep, hu]; rfl⟩
      have hmembers := readMembers_sep h hs rest fuel
        (by simp only [List.length_cons, List.length_append, List.length_nil] at hfuel; omega)
      rw [hr] at hmembers ⊢
      simp only [skipWs_cons (c := '"') rfl]
      split
      · rename_i heq
        exact absurd (List.cons.inj heq).1 (by decide)
      · rw [hmembers]
        rfl

/-! ## Scalars -/

theorem isDigit_digitChar : ∀ d < 10, isDigit (Nat.digitChar d) = true := by decide

theorem digitChar_ne_zero : ∀ d < 10, d ≠ 0 → Nat.digitChar d ≠ '0' := by decide

/-- The decimal digits of a number are a number of JSON. -/
theorem decimal_toDigits (n : Nat) : Decimal (Nat.toDigits 10 n) := by
  induction n using Nat.strongRecOn with
  | ind n ih =>
    by_cases hn : n < 10
    · rw [Nat.toDigits_of_lt_base hn]
      refine ⟨fun c hc => List.mem_singleton.1 hc ▸ isDigit_digitChar n hn, ?_⟩
      by_cases h0 : n = 0
      · subst h0
        exact .inl rfl
      · exact .inr ⟨_, [], rfl, digitChar_ne_zero n hn h0⟩
    · obtain ⟨hdigits, hlead⟩ := ih (n / 10) (by omega)
      rw [Nat.toDigits_of_base_le (by decide) (Nat.not_lt.1 hn)]
      refine ⟨fun c hc => ?_, .inr ?_⟩
      · rcases List.mem_append.1 hc with hc | hc
        · exact hdigits c hc
        · exact List.mem_singleton.1 hc ▸ isDigit_digitChar (n % 10) (Nat.mod_lt _ (by decide))
      · rcases hlead with h0 | ⟨c, cs, hcs, hc⟩
        · have hzero : Text.digitsFrom n 0 (Nat.toDigits 10 (n / 10)) = some (n / 10) :=
            Text.digitsFrom_toDigits (Nat.div_le_self n 10)
          rw [h0] at hzero
          have : (0 : Nat) = n / 10 := Option.some.inj hzero
          omega
        · exact ⟨c, cs ++ [(n % 10).digitChar], by rw [hcs]; rfl, hc⟩

theorem decimal_eq_flatMap (n : Nat) : decimal n = (Nat.toDigits 10 n).flatMap String.utf8EncodeChar := by
  rw [← Text.utf8_ofList, Text.utf8_ascii, decimal]
  intro c hc
  have hdigit := (decimal_toDigits n).digits c hc
  simp only [isDigit, Bool.and_eq_true, decide_eq_true_eq] at hdigit
  exact Nat.lt_of_le_of_lt hdigit.2 (by decide)

/-- A string or a whole number. -/
inductive Scalar where
  | text (s : String)
  | num (n : Nat)

namespace Scalar

def chars : Scalar → List Char
  | text s => '"' :: s.toList ++ ['"']
  | num n => Nat.toDigits 10 n

def value : Scalar → Value
  | text s => .str s.toList
  | num n => .num (Nat.toDigits 10 n)

/-- No character of it needs an escape. -/
def Plain : Scalar → Prop
  | text s => ∀ c ∈ s.toList, PlainChar c
  | num _ => True

theorem reads {x : Scalar} (h : x.Plain) : Reads x.chars x.value := by
  cases x with
  | text s => exact reads_str h
  | num n => exact reads_num (decimal_toDigits n)

end Scalar

def memberChars (key : String) (t : List Char) : List Char := '"' :: key.toList ++ '"' :: ':' :: t

theorem readsMember {key : String} {t : List Char} {v : Value} (hkey : ∀ c ∈ key.toList, PlainChar c) (h : Reads t v) :
    ReadsMember (memberChars key t) (key.toList, v) := ⟨hkey, t, rfl, h⟩

/-- An object whose members are scalars. -/
def fieldsChars (fs : List (String × Scalar)) : List Char :=
  '{' :: sep (fs.map (fun f => memberChars f.1 f.2.chars)) ++ ['}']

/-- Further members, each after a comma. -/
def moreChars (fs : List (String × Scalar)) : List Char := fs.flatMap (fun f => ',' :: memberChars f.1 f.2.chars)

theorem fieldsChars_cons (f : String × Scalar) (fs : List (String × Scalar)) :
    fieldsChars (f :: fs) = '{' :: memberChars f.1 f.2.chars ++ moreChars fs ++ ['}'] := by
  simp [fieldsChars, sep, moreChars, List.flatMap_map]

theorem moreChars_cons (f : String × Scalar) (fs : List (String × Scalar)) :
    moreChars (f :: fs) = ',' :: memberChars f.1 f.2.chars ++ moreChars fs := rfl

theorem moreChars_append (fs gs : List (String × Scalar)) : moreChars (fs ++ gs) = moreChars fs ++ moreChars gs :=
  List.flatMap_append

def fieldsValue (fs : List (String × Scalar)) : List (List Char × Value) :=
  fs.map (fun f => (f.1.toList, f.2.value))

theorem reads_fields {fs : List (String × Scalar)} (h : ∀ f ∈ fs, (∀ c ∈ f.1.toList, PlainChar c) ∧ f.2.Plain) :
    Reads (fieldsChars fs) (.obj (fieldsValue fs)) := by
  refine reads_obj ?_
  induction fs with
  | nil => exact .nil
  | cons f fs ih =>
    obtain ⟨hkey, hplain⟩ := h f List.mem_cons_self
    exact .cons (readsMember hkey (Scalar.reads hplain)) (ih (fun g hg => h g (List.mem_cons_of_mem _ hg)))

/-! ## Members by their names, as a derived reader takes them -/

/-- The values of the members of one name. -/
def named (key : String) (ms : List (List Char × Value)) : List Value :=
  (ms.filter (fun m => m.1 = key.toList)).map Prod.snd

/-- A member that must be there, once. -/
def required {α : Type} (read : Value → Option α) (key : String) (ms : List (List Char × Value)) : Option α :=
  match named key ms with
  | [v] => read v
  | _   => none

/-- A member that may be missing, or null. -/
def optional {α : Type} (read : Value → Option α) (key : String) (ms : List (List Char × Value)) : Option (Option α) :=
  match named key ms with
  | []      => some none
  | [.null] => some none
  | [v]     => (read v).map some
  | _       => none

def readText : Value → Option String
  | .str s => some (String.ofList s)
  | _      => none

/-- A whole number up to `max`. -/
def readNat (max : Nat) : Value → Option Nat
  | .num ds => Text.digitsFrom max 0 ds
  | _       => none

def readU32 (v : Value) : Option UInt32 := (readNat (2 ^ 32 - 1) v).map UInt32.ofNat

def readU64 (v : Value) : Option UInt64 := (readNat (2 ^ 64 - 1) v).map UInt64.ofNat

@[simp] theorem readText_value (s : String) : readText (Scalar.text s).value = some s := by
  simp [readText, Scalar.value]

theorem readNat_value {max n : Nat} (h : n ≤ max) : readNat max (Scalar.num n).value = some n :=
  Text.digitsFrom_toDigits h

@[simp] theorem readU32_value (n : UInt32) : readU32 (Scalar.num n.toNat).value = some n := by
  rw [readU32, readNat_value (Nat.le_sub_one_of_lt n.toNat_lt), Option.map_some, UInt32.ofNat_toNat]

@[simp] theorem readU64_value (n : UInt64) : readU64 (Scalar.num n.toNat).value = some n := by
  rw [readU64, readNat_value (Nat.le_sub_one_of_lt n.toNat_lt), Option.map_some, UInt64.ofNat_toNat]

/-- The field of an optional value: none where there is none. -/
def optField {α : Type} (key : String) (scalar : α → Scalar) (v : Option α) : List (String × Scalar) :=
  v.toList.map (fun a => (key, scalar a))

theorem named_fields (key : String) (fs : List (String × Scalar)) :
    named key (fieldsValue fs) = (fs.filter (fun f => f.1 = key)).map (fun f => f.2.value) := by
  simp only [named, fieldsValue, List.filter_map, List.map_map, Function.comp_def, String.toList_inj]

@[simp] theorem filter_optField {α : Type} (key key' : String) (scalar : α → Scalar) (v : Option α) :
    (optField key' scalar v).filter (fun f => f.1 = key) = if key' = key then optField key scalar v else [] := by
  cases v with
  | none => simp [optField]
  | some a =>
    split
    · simp [optField, *]
    · simp [optField, *]

/-- A field that is there once is read. -/
theorem required_fields {α : Type} {read : Value → Option α} {key : String} {fs : List (String × Scalar)} {x : Scalar}
    (h : fs.filter (fun f => f.1 = key) = [(key, x)]) : required read key (fieldsValue fs) = read x.value := by
  rw [required, named_fields, h]
  rfl

/-- An optional field is read back. -/
theorem optional_fields {α : Type} {read : Value → Option α} {key : String} {fs : List (String × Scalar)}
    {scalar : α → Scalar} {v : Option α} (h : fs.filter (fun f => f.1 = key) = optField key scalar v)
    (hread : ∀ a, read (scalar a).value = some a) : optional read key (fieldsValue fs) = some v := by
  rw [optional, named_fields, h]
  cases v with
  | none => rfl
  | some a =>
    have hne : (scalar a).value ≠ .null := by cases scalar a <;> simp [Scalar.value]
    simp only [optField, Option.toList_some, List.map_cons, List.map_nil, hread a, Option.map_some]

end Json
