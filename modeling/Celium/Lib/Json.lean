import Mathlib.Algebra.GroupWithZero.Nat
import Celium.Lib.Text
/-!
# Json — what a compact JSON writer emits, byte for byte

Strings with the two-character escapes where JSON has one and `\u00xx` for the other control characters, numbers in
decimal, objects without a blank and with their members in the order given.  Bytes from 32 on other than the quote and
the backslash stand for themselves, those of non-ASCII characters included.
-/
namespace Json

def hexDigit (n : Nat) : UInt8 := (Nat.digitChar n).toUInt8

/-- What stands for a byte inside a string. -/
def escape (b : UInt8) : List UInt8 :=
  if b = '"'.toUInt8 then Text.utf8 "\\\""
  else if b = '\\'.toUInt8 then Text.utf8 "\\\\"
  else if b = 8 then Text.utf8 "\\b"
  else if b = 9 then Text.utf8 "\\t"
  else if b = 10 then Text.utf8 "\\n"
  else if b = 12 then Text.utf8 "\\f"
  else if b = 13 then Text.utf8 "\\r"
  else if b < 32 then Text.utf8 "\\u00" ++ [hexDigit (b.toNat / 16), hexDigit (b.toNat % 16)]
  else [b]

def string (bs : List UInt8) : List UInt8 := '"'.toUInt8 :: (bs.flatMap escape ++ ['"'.toUInt8])

def decimal (n : Nat) : List UInt8 := (Nat.toDigits 10 n).map Char.toUInt8

def member (key : String) (value : List UInt8) : List UInt8 := string (Text.utf8 key) ++ ':'.toUInt8 :: value

/-- The members of an object, each but the first after a comma. -/
def members : List (List UInt8) → List UInt8
  | []      => []
  | m :: ms => m ++ ms.flatMap (','.toUInt8 :: ·)

def object (ms : List (List UInt8)) : List UInt8 := '{'.toUInt8 :: (members ms ++ ['}'.toUInt8])

def array (vs : List (List UInt8)) : List UInt8 := '['.toUInt8 :: (members vs ++ [']'.toUInt8])

/-! ## Bytes that stand for themselves -/

/-- Written as it is: not a quote, a backslash or a control character. -/
def Plain (b : UInt8) : Prop := b ≠ '"'.toUInt8 ∧ b ≠ '\\'.toUInt8 ∧ 32 ≤ b

instance (b : UInt8) : Decidable (Plain b) := inferInstanceAs (Decidable (_ ∧ _ ∧ _))

theorem escape_of_plain {b : UInt8} (h : Plain b) : escape b = [b] := by
  obtain ⟨hquote, hslash, hge⟩ := h
  have hne : ∀ c : UInt8, c < 32 → b ≠ c := fun c hc h => UInt8.not_le.2 hc (h ▸ hge)
  rw [escape, if_neg hquote, if_neg hslash, if_neg (hne 8 (by decide)), if_neg (hne 9 (by decide)),
    if_neg (hne 10 (by decide)), if_neg (hne 12 (by decide)), if_neg (hne 13 (by decide)), if_neg (UInt8.not_lt.2 hge)]

theorem string_length_of_plain {bs : List UInt8} (h : ∀ b ∈ bs, Plain b) : (string bs).length = bs.length + 2 := by
  have hself : bs.flatMap escape = bs := by
    induction bs with
    | nil => rfl
    | cons b bs ih =>
      rw [List.flatMap_cons, escape_of_plain (h b List.mem_cons_self), ih (fun c hc => h c (List.mem_cons_of_mem _ hc))]
      rfl
  rw [string, hself, List.length_cons, List.length_append]
  rfl

/-- What is not plain starts with a backslash. -/
theorem escape_of_not_plain {b : UInt8} (h : ¬ Plain b) : ∃ bs, escape b = '\\'.toUInt8 :: bs := by
  unfold escape
  split_ifs with hquote hslash _ _ _ _ _ hlt
  · exact ⟨['"'.toUInt8], by decide⟩
  · exact ⟨['\\'.toUInt8], by decide⟩
  · exact ⟨['b'.toUInt8], by decide⟩
  · exact ⟨['t'.toUInt8], by decide⟩
  · exact ⟨['n'.toUInt8], by decide⟩
  · exact ⟨['f'.toUInt8], by decide⟩
  · exact ⟨['r'.toUInt8], by decide⟩
  · exact ⟨_, rfl⟩
  · exact absurd ⟨hquote, hslash, UInt8.not_lt.1 hlt⟩ h

theorem escape_length_le (b : UInt8) : (escape b).length ≤ 6 := by
  unfold escape
  split_ifs
  all_goals try decide
  · rw [List.length_append]
    exact Nat.le_refl 6
  · exact Nat.le_add_left 1 5

theorem string_length_le (bs : List UInt8) : (string bs).length ≤ 6 * bs.length + 2 := by
  have h : (bs.flatMap escape).length ≤ 6 * bs.length := by
    induction bs with
    | nil => exact Nat.le_refl 0
    | cons b bs ih =>
      have := escape_length_le b
      rw [List.flatMap_cons, List.length_append, List.length_cons]
      omega
  simp only [string, List.length_cons, List.length_append, List.length_nil]
  omega

/-! ## Objects and arrays -/

theorem member_length (key : String) (value : List UInt8) :
    (member key value).length = (string (Text.utf8 key)).length + 1 + value.length := by
  rw [member, List.length_append, List.length_cons, Nat.add_right_comm, Nat.add_assoc]

theorem members_cons_cons (m n : List UInt8) (ms : List (List UInt8)) :
    members (m :: n :: ms) = m ++ ','.toUInt8 :: members (n :: ms) := rfl

theorem members_length_cons (m : List UInt8) (ms : List (List UInt8)) :
    (members (m :: ms)).length = m.length + (ms.map (·.length + 1)).sum := by
  induction ms generalizing m with
  | nil => simp [members]
  | cons n ms ih =>
    rw [members_cons_cons, List.length_append, List.length_cons, ih n, List.map_cons, List.sum_cons]
    omega

theorem object_length_cons (m : List UInt8) (ms : List (List UInt8)) :
    (object (m :: ms)).length = m.length + (ms.map (·.length + 1)).sum + 2 := by
  rw [object, List.length_cons, List.length_append, members_length_cons]
  rfl

/-- The two brackets and a comma before each element but the first. -/
theorem array_length (vs : List (List UInt8)) : (array vs).length = max 1 (vs.map (·.length + 1)).sum + 1 := by
  rw [array, List.length_cons, List.length_append]
  cases vs with
  | nil => rfl
  | cons v vs =>
    rw [members_length_cons, List.map_cons, List.sum_cons, List.length_singleton]
    omega

/-! ## Numbers -/

theorem decimal_of_lt {n : Nat} (h : n < 10) : decimal n = [n.digitChar.toUInt8] := by
  rw [decimal, Nat.toDigits_of_lt_base h]
  rfl

theorem decimal_of_ge {n : Nat} (h : 10 ≤ n) : decimal n = decimal (n / 10) ++ [(n % 10).digitChar.toUInt8] := by
  rw [decimal, Nat.toDigits_of_base_le (by decide) h, List.map_append]
  rfl

theorem decimal_ne_nil (n : Nat) : decimal n ≠ [] := by
  simp [decimal]

theorem decimal_length_le {n k : Nat} (hk : 0 < k) (h : n < 10 ^ k) : (decimal n).length ≤ k := by
  rw [decimal, List.length_map]
  exact (Nat.length_toDigits_le_iff (by decide) hk).2 h

end Json
