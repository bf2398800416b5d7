import Celium.Lib.JsonRead
/-!
# JsonWrite — a value as a compact writer writes it, and what the reader makes of it

`render` writes any value without a blank, strings with the short escapes where JSON has one and `\u00xx` for the other
control characters.  What is rendered is read back, whatever characters its strings hold (`parse_render`); its bytes are
those of the byte writer (`bytes_obj` and its like).
-/
namespace Json

/-! ## Writing -/

/-- What stands for a character inside a string. -/
def escapeChar (c : Char) : List Char :=
  if c = '"' then ['\\', '"']
  else if c = '\\' then ['\\', '\\']
  else if c = Char.ofNat 8 then ['\\', 'b']
  else if c = '\t' then ['\\', 't']
  else if c = '\n' then ['\\', 'n']
  else if c = Char.ofNat 12 then ['\\', 'f']
  else if c = '\r' then ['\\', 'r']
  else if c.toNat < 32 then
    ['\\', 'u', '0', '0', Nat.digitChar (c.toNat / 16), Nat.digitChar (c.toNat % 16)]
  else [c]

def renderString (s : List Char) : List Char := '"' :: s.flatMap escapeChar ++ ['"']

mutual

def render : Value → List Char
  | .null => ['n', 'u', 'l', 'l']
  | .bool true => ['t', 'r', 'u', 'e']
  | .bool false => ['f', 'a', 'l', 's', 'e']
  | .num text => text
  | .str s => renderString s
  | .arr vs => '[' :: sep (renderAll vs) ++ [']']
  | .obj ms => '{' :: sep (renderMembers ms) ++ ['}']

def renderAll : List Value → List (List Char)
  | [] => []
  | v :: vs => render v :: renderAll vs

def renderMembers : List (List Char × Value) → List (List Char)
  | [] => []
  | m :: ms => (renderString m.1 ++ ':' :: render m.2) :: renderMembers ms

end

mutual

/-- Its numbers are whole, and the names of its members need no escape. -/
def Tame : Value → Prop
  | .num text => Decimal text
  | .arr vs => TameAll vs
  | .obj ms => TameMembers ms
  | _ => True

def TameAll : List Value → Prop
  | [] => True
  | v :: vs => Tame v ∧ TameAll vs

def TameMembers : List (List Char × Value) → Prop
  | [] => True
  | m :: ms => (∀ c ∈ m.1, PlainChar c) ∧ Tame m.2 ∧ TameMembers ms

end

theorem tameAll_iff {vs : List Value} : TameAll vs ↔ ∀ v ∈ vs, Tame v := by
  induction vs with
  | nil => simp [TameAll]
  | cons v vs ih => simp [TameAll, ih]

theorem tameMembers_iff {ms : List (List Char × Value)} :
    TameMembers ms ↔ ∀ m ∈ ms, (∀ c ∈ m.1, PlainChar c) ∧ Tame m.2 := by
  induction ms with
  | nil => simp [TameMembers]
  | cons m ms ih => simp [TameMembers, ih, and_assoc]

theorem renderAll_eq (vs : List Value) : renderAll vs = vs.map render := by
  induction vs with
  | nil => rfl
  | cons v vs ih => rw [renderAll, ih, List.map_cons]

theorem renderMembers_eq (ms : List (List Char × Value)) :
    renderMembers ms = ms.map (fun m => renderString m.1 ++ ':' :: render m.2) := by
  induction ms with
  | nil => rfl
  | cons m ms ih => rw [renderMembers, ih, List.map_cons]

/-! ## Strings are read back -/

theorem hexVal_digitChar : ∀ d < 16, hexVal (Nat.digitChar d) = some d := by decide

/-- A text that is read as a string does not start with a broken `\u`. -/
theorem codeUnit_of_readString {e f g h : Char} {rest : List Char} {p : List Char × List Char}
    (hread : readString ('\\' :: 'u' :: e :: f :: g :: h :: rest) = some p) : ∃ m, codeUnit e f g h = some m := by
  cases hcu : codeUnit e f g h with
  | some m => exact ⟨m, rfl⟩
  | none =>
    unfold readString at hread
    split at hread
    · cases hread
    · rename_i heq
      simp at heq
    · rename_i heq
      simp only [List.cons.injEq, true_and] at heq
      obtain ⟨rfl, rfl, rfl, rfl, -⟩ := heq
      simp only [hcu] at hread
      cases hread
    · rename_i heq
      simp only [List.cons.injEq, true_and] at heq
      obtain ⟨rfl, rfl, rfl, rfl, -⟩ := heq
      simp only [hcu] at hread
      cases hread
    · rename_i hno heq
      simp only [List.cons.injEq, true_and] at heq
      obtain ⟨rfl, rfl⟩ := heq
      exact absurd rfl (hno e f g h rest rfl)
    · rename_i hno heq
      simp only [List.cons.injEq] at heq
      obtain ⟨rfl, rfl⟩ := heq
      exact absurd rfl (hno 'u' _ rfl)

/-- `\u00xx` before more of a string. -/
theorem readString_unicode {a b c d : Char} {n : Nat} (hn : codeUnit a b c d = some n) (hlow : n < 0xD800)
    {rest : List Char} {p : List Char × List Char} (hrest : readString rest = some p) :
    readString ('\\' :: 'u' :: a :: b :: c :: d :: rest) = some (Char.ofNat n :: p.1, p.2) := by
  have hns : ¬ (0xD800 ≤ n ∧ n < 0xE000) := fun h => absurd h.1 (Nat.not_le.2 hlow)
  unfold readString
  split
  · rename_i heq
    cases heq
  · rename_i heq
    simp at heq
  · rename_i a' b' c' d' e f g h rest' heq
    simp only [List.cons.injEq, true_and] at heq
    obtain ⟨rfl, rfl, rfl, rfl, rfl⟩ := heq
    obtain ⟨m, hm⟩ := codeUnit_of_readString hrest
    have hnp : ¬ (0xD800 ≤ n ∧ n < 0xDC00 ∧ 0xDC00 ≤ m ∧ m < 0xE000) := fun h => absurd h.1 (Nat.not_le.2 hlow)
    simp only [hn, hm, if_neg hnp, if_neg hns, hrest, Option.map_some]
  · rename_i a' b' c' d' rest' hno heq
    simp only [List.cons.injEq, true_and] at heq
    obtain ⟨rfl, rfl, rfl, rfl, rfl⟩ := heq
    simp only [hn, if_neg hns, hrest, Option.map_some]
  · rename_i hno heq
    simp only [List.cons.injEq, true_and] at heq
    obtain ⟨rfl, rfl⟩ := heq
    exact absurd rfl (hno a b c d rest rfl)
  · rename_i hno heq
    simp only [List.cons.injEq] at heq
    obtain ⟨rfl, rfl⟩ := heq
    exact absurd rfl (hno 'u' _ rfl)

/-- A short escape before more of a string. -/
theorem readString_short {e c : Char} (he : unescape e = some c) {rest : List Char} {p : List Char × List Char}
    (hrest : readString rest = some p) : readString ('\\' :: e :: rest) = some (c :: p.1, p.2) := by
  have hu : e ≠ 'u' := by
    rintro rfl
    cases he
  unfold readString
  split
  · rename_i heq
    cases heq
  · rename_i heq
    simp at heq
  · rename_i heq
    exact absurd (List.cons.inj (List.cons.inj heq).2).1 hu
  · rename_i heq
    exact absurd (List.cons.inj (List.cons.inj heq).2).1 hu
  · rename_i heq
    simp only [List.cons.injEq, true_and] at heq
    obtain ⟨rfl, rfl⟩ := heq
    simp only [he, hrest, Option.map_some]
  · rename_i hno heq
    simp only [List.cons.injEq] at heq
    obtain ⟨rfl, rfl⟩ := heq
    exact absurd rfl (hno e _ rfl)

theorem readString_self {c : Char} (hc : PlainChar c) {rest : List Char} {p : List Char × List Char}
    (hrest : readString rest = some p) : readString (c :: rest) = some (c :: p.1, p.2) := by
  obtain ⟨hquote, hslash, hge⟩ := hc
  have hlow : ¬ c.toNat < 32 := Nat.not_lt.2 hge
  unfold readString
  split <;> simp_all

/-- **Each character is read back from what stands for it.** -/
theorem readString_escapeChar (c : Char) {rest : List Char} {p : List Char × List Char}
    (hrest : readString rest = some p) : readString (escapeChar c ++ rest) = some (c :: p.1, p.2) := by
  unfold escapeChar
  split_ifs with h1 h2 h3 h4 h5 h6 h7 h8
  · subst h1
    exact readString_short rfl hrest
  · subst h2
    exact readString_short rfl hrest
  · subst h3
    exact readString_short rfl hrest
  · subst h4
    exact readString_short rfl hrest
  · subst h5
    exact readString_short rfl hrest
  · subst h6
    exact readString_short rfl hrest
  · subst h7
    exact readString_short rfl hrest
  · have hunit : codeUnit '0' '0' (Nat.digitChar (c.toNat / 16)) (Nat.digitChar (c.toNat % 16)) = some c.toNat := by
      have hzero : hexVal '0' = some 0 := rfl
      rw [codeUnit, hzero, hexVal_digitChar _ (by omega), hexVal_digitChar _ (by omega)]
      change some (((0 * 16 + 0) * 16 + c.toNat / 16) * 16 + c.toNat % 16) = some c.toNat
      congr 1
      omega
    have hread := readString_unicode hunit (by omega) hrest
    rwa [Char.ofNat_toNat] at hread
  · exact readString_self ⟨h1, h2, Nat.not_lt.1 h8⟩ hrest

/-- **A string is read back, whatever its characters.** -/
theorem readString_escaped (s rest : List Char) : readString (s.flatMap escapeChar ++ '"' :: rest) = some (s, rest) := by
  induction s with
  | nil => rfl
  | cons c s ih =>
    rw [List.flatMap_cons, List.append_assoc]
    exact readString_escapeChar c ih

theorem escapeChar_plain {c : Char} (h : PlainChar c) : escapeChar c = [c] := by
  obtain ⟨hquote, hslash, hge⟩ := h
  have hne : ∀ d : Char, d.toNat < 32 → c ≠ d := by
    rintro d hd rfl
    omega
  rw [escapeChar, if_neg hquote, if_neg hslash, if_neg (hne _ (by decide)), if_neg (hne _ (by decide)),
    if_neg (hne _ (by decide)), if_neg (hne _ (by decide)), if_neg (hne _ (by decide)), if_neg (Nat.not_lt.2 hge)]

theorem renderString_plain {s : List Char} (h : ∀ c ∈ s, PlainChar c) : renderString s = '"' :: s ++ ['"'] := by
  have hself : s.flatMap escapeChar = s := by
    induction s with
    | nil => rfl
    | cons c s ih =>
      rw [List.flatMap_cons, escapeChar_plain (h c List.mem_cons_self), ih (fun d hd => h d (List.mem_cons_of_mem _ hd))]
      rfl
  rw [renderString, hself]

/-! ## Values are read back -/

theorem reads_string (s : List Char) : Reads (renderString s) (.str s) := by
  refine ⟨⟨'"', s.flatMap escapeChar ++ ['"'], rfl, rfl, by decide, by decide⟩, fun fuel rest hfuel _ => ?_⟩
  cases fuel with
  | zero => cases hfuel
  | succ fuel =>
    have hs := readString_escaped s rest
    rw [renderString, List.append_assoc, List.cons_append, List.singleton_append]
    unfold readValue
    rw [skipWs_cons rfl]
    simp only [hs, Option.map_some]

theorem reads_null : Reads ['n', 'u', 'l', 'l'] .null := by
  refine ⟨⟨'n', _, rfl, rfl, by decide, by decide⟩, fun fuel rest hfuel _ => ?_⟩
  cases fuel with
  | zero => cases hfuel
  | succ fuel =>
    simp only [List.cons_append, List.nil_append]
    rw [readValue, skipWs_cons (c := 'n') rfl]
    rfl

theorem reads_bool (b : Bool) : Reads (render (.bool b)) (.bool b) := by
  cases b with
  | true =>
    refine ⟨⟨'t', _, rfl, rfl, by decide, by decide⟩, fun fuel rest hfuel _ => ?_⟩
    cases fuel with
    | zero => cases hfuel
    | succ fuel =>
      simp only [render, List.cons_append, List.nil_append]
      rw [readValue, skipWs_cons (c := 't') rfl]
      rfl
  | false =>
    refine ⟨⟨'f', _, rfl, rfl, by decide, by decide⟩, fun fuel rest hfuel _ => ?_⟩
    cases fuel with
    | zero => cases hfuel
    | succ fuel =>
      simp only [render, List.cons_append, List.nil_append]
      rw [readValue, skipWs_cons (c := 'f') rfl]
      rfl

mutual

/-- **What is rendered is read back**, by recursion on the value. -/
theorem reads_render : ∀ {v : Value}, Tame v → Reads (render v) v
  | .null, _ => reads_null
  | .bool b, _ => reads_bool b
  | .num _, h => reads_num h
  | .str s, _ => reads_string s
  | .arr _, h => reads_arr (reads_all h)
  | .obj _, h => reads_obj (reads_members h)

theorem reads_all : ∀ {vs : List Value}, TameAll vs → List.Forall₂ Reads (renderAll vs) vs
  | [], _ => .nil
  | _ :: _, h => .cons (reads_render h.1) (reads_all h.2)

theorem reads_members : ∀ {ms : List (List Char × Value)}, TameMembers ms →
    List.Forall₂ ReadsMember (renderMembers ms) ms
  | [], _ => .nil
  | m :: _, h => .cons ⟨h.1, render m.2, by rw [renderString_plain h.1]; simp, reads_render h.2.1⟩ (reads_members h.2.2)

end

/-- **A rendered value parses to itself.** -/
theorem parse_render {v : Value} (h : Tame v) : parse (render v) = some v := parse_of_reads (reads_render h)

/-! ## Bytes -/

/-- A text as bytes. -/
def bytesOf (cs : List Char) : List UInt8 := cs.flatMap String.utf8EncodeChar

def Value.bytes (v : Value) : List UInt8 := bytesOf (render v)

theorem bytesOf_append (as bs : List Char) : bytesOf (as ++ bs) = bytesOf as ++ bytesOf bs := List.flatMap_append

theorem bytesOf_cons_ascii {c : Char} (h : c.toNat < 128) (cs : List Char) : bytesOf (c :: cs) = c.toUInt8 :: bytesOf cs := by
  rw [bytesOf, List.flatMap_cons, Text.utf8EncodeChar_ascii h]
  rfl

theorem bytesOf_eq_utf8 (cs : List Char) : bytesOf cs = Text.utf8 (String.ofList cs) := (Text.utf8_ofList cs).symm

theorem bytesOf_toList (s : String) : bytesOf s.toList = Text.utf8 s := (Text.utf8_eq_flatMap s).symm

theorem bytes_num (n : Nat) : Value.bytes (.num (Nat.toDigits 10 n)) = decimal n := (decimal_eq_flatMap n).symm

/-- **The byte writer and the character writer escape alike.** -/
theorem bytesOf_escapeChar (c : Char) : bytesOf (escapeChar c) = (String.utf8EncodeChar c).flatMap escape := by
  by_cases hc : c.toNat < 128
  · have hall : ∀ n < 128, bytesOf (escapeChar (Char.ofNat n)) =
        (String.utf8EncodeChar (Char.ofNat n)).flatMap escape := by decide +kernel
    have h := hall c.toNat hc
    rwa [Char.ofNat_toNat] at h
  · have hge : 128 ≤ c.toNat := Nat.not_lt.1 hc
    have hplain : PlainChar c := by
      refine ⟨?_, ?_, by omega⟩ <;> · rintro rfl; exact hc (by decide)
    have hself : ∀ b ∈ String.utf8EncodeChar c, escape b = [b] := by
      intro b hb
      have hb128 := Text.le_of_mem_utf8EncodeChar hge hb
      refine escape_of_plain ⟨?_, ?_, UInt8.le_iff_toNat_le.2 (Nat.le_trans (by decide) hb128)⟩ <;>
      · rintro rfl
        exact absurd hb128 (by decide)
    rw [escapeChar_plain hplain]
    have hmap : ∀ bs : List UInt8, (∀ b ∈ bs, escape b = [b]) → bs.flatMap escape = bs := by
      intro bs h
      induction bs with
      | nil => rfl
      | cons b bs ih =>
        rw [List.flatMap_cons, h b List.mem_cons_self, ih (fun x hx => h x (List.mem_cons_of_mem _ hx))]
        rfl
    rw [hmap _ hself, bytesOf, List.flatMap_singleton]

theorem bytesOf_renderString (s : List Char) : bytesOf (renderString s) = string (bytesOf s) := by
  have hbody : bytesOf (s.flatMap escapeChar) = (bytesOf s).flatMap escape := by
    induction s with
    | nil => rfl
    | cons c s ih =>
      rw [List.flatMap_cons, bytesOf_append, ih, bytesOf_escapeChar, bytesOf, bytesOf, List.flatMap_cons,
        List.flatMap_append]
  rw [renderString, bytesOf_append, bytesOf_cons_ascii (by decide), hbody]
  rfl

theorem bytesOf_sep (ts : List (List Char)) : bytesOf (sep ts) = members (ts.map bytesOf) := by
  cases ts with
  | nil => rfl
  | cons t ts =>
    rw [sep, bytesOf_append, List.map_cons, members]
    congr 1
    induction ts with
    | nil => rfl
    | cons t ts ih =>
      rw [List.flatMap_cons, bytesOf_append, ih, bytesOf_cons_ascii (by decide), List.map_cons, List.flatMap_cons]

theorem bytes_str (s : List Char) : Value.bytes (.str s) = string (bytesOf s) := by
  rw [Value.bytes, render, bytesOf_renderString]

theorem bytes_arr (vs : List Value) : Value.bytes (.arr vs) = array (vs.map Value.bytes) := by
  rw [Value.bytes, render, bytesOf_append, bytesOf_cons_ascii (by decide), bytesOf_sep, renderAll_eq, List.map_map]
  rfl

theorem bytes_obj (ms : List (List Char × Value)) :
    Value.bytes (.obj ms) = object (ms.map (fun m => string (bytesOf m.1) ++ ':'.toUInt8 :: m.2.bytes)) := by
  have hmember : (bytesOf ∘ fun m : List Char × Value => renderString m.1 ++ ':' :: render m.2) =
      fun m => string (bytesOf m.1) ++ ':'.toUInt8 :: m.2.bytes := by
    funext m
    rw [Function.comp_apply, bytesOf_append, bytesOf_renderString, bytesOf_cons_ascii (by decide)]
    rfl
  rw [Value.bytes, render, bytesOf_append, bytesOf_cons_ascii (by decide), bytesOf_sep, renderMembers_eq, List.map_map,
    hmember]
  rfl

/-- **The bytes of a rendered value are valid UTF-8, and parse to it.** -/
theorem parse_bytes {v : Value} (h : Tame v) : (Text.ofUtf8 v.bytes).bind (fun s => parse s.toList) = some v := by
  rw [Value.bytes, bytesOf_eq_utf8, Text.ofUtf8_utf8, Option.bind_some, String.toList_ofList, parse_render h]

end Json
