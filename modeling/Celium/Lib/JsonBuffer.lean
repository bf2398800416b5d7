import Celium.Lib.Fixed
import Celium.Lib.JsonRead
import Mathlib.Algebra.GroupWithZero.Nat
/-!
# JsonBuffer — values that are kept before their type is known

`serde_json` keeps such a value as a tree.  It refuses one that nests deeper than what is left of its limit, and one with a
number that overflows an `f64`.  A number's digits are taken as long as a `u64` holds them, and the rest counts as powers of
ten; digits and power are rounded to a double each, and so is their product.
-/
namespace Json

open Fixed

/-! ## Numbers -/

/-- The digits that a `u64` still holds after `acc`, and the text after them. -/
def takeDigits (acc : Nat) : List Char → Nat × List Char
  | [] => (acc, [])
  | c :: cs =>
    match Text.digitVal c with
    | none => (acc, c :: cs)
    | some d => if acc * 10 + d ≤ u64Max then takeDigits (acc * 10 + d) cs else (acc, c :: cs)

/-- To 53 bits, half to even. -/
def round53 (n : Nat) : Nat :=
  let unit := 2 ^ (n.log2 - 52)
  if unit < 2 * (n % unit) ∨ (unit = 2 * (n % unit) ∧ n / unit % 2 = 1) then (n / unit + 1) * unit else n / unit * unit

/-- `f64_from_parts` fails: the product rounds to infinity, or the power of ten is beyond the table. -/
def overflows (significand : Nat) (exponent : Int) : Bool :=
  significand ≠ 0 && 0 ≤ exponent &&
    (308 < exponent || 2 ^ 1024 - 2 ^ 970 ≤ round53 significand * round53 (10 ^ exponent.toNat))

/-- The exponent that is written, if one is. -/
def writtenExponent : List Char → Int
  | [] => 0
  | _ :: '-' :: ds => -(ds.foldl (fun n c => n * 10 + (c.toNat - '0'.toNat)) 0 : Nat)
  | _ :: '+' :: ds => (ds.foldl (fun n c => n * 10 + (c.toNat - '0'.toNat)) 0 : Nat)
  | _ :: ds => (ds.foldl (fun n c => n * 10 + (c.toNat - '0'.toNat)) 0 : Nat)

/-- A number without its sign that can be kept: one that is whole and within a `u64`, or that does not overflow. -/
def unsignedInRange (cs : List Char) : Bool :=
  let (whole, rest) := takeDigits 0 cs
  let dropped := (rest.takeWhile isDigit).length
  match rest.dropWhile isDigit with
  | [] => dropped = 0 || !overflows whole dropped
  | '.' :: frac =>
    let (significand, rest) := takeDigits whole frac
    !overflows significand (dropped - (frac.length - rest.length : Nat) + writtenExponent (rest.dropWhile isDigit))
  | ex => !overflows whole (dropped + writtenExponent ex)

def inRange : List Char → Bool
  | '-' :: cs => unsignedInRange cs
  | cs => unsignedInRange cs

example : inRange "1.7976931348623157e308".toList = true ∧ inRange "1e400".toList = false ∧ inRange "-0e400".toList = true := by
  decide +kernel

theorem takeDigits_of_digitsFrom {n : Nat} : ∀ {cs : List Char} {acc : Nat}, Text.digitsFrom u64Max acc cs = some n →
    takeDigits acc cs = (n, [])
  | [], acc, h => by rw [takeDigits, Option.some.inj h]
  | c :: cs, acc, h => by
    unfold Text.digitsFrom at h
    unfold takeDigits
    cases hd : Text.digitVal c with
    | none =>
      simp only [hd] at h
      cases h
    | some d =>
      simp only [hd] at h
      split at h
      · cases h
      · rename_i hle
        simp only [if_pos (Nat.not_lt.1 hle)]
        exact takeDigits_of_digitsFrom h

/-- **A whole number that a `u64` holds can be kept.** -/
theorem inRange_toDigits {n : Nat} (h : n ≤ u64Max) : inRange (Nat.toDigits 10 n) = true := by
  have hdigits := Text.digitsFrom_toDigits h
  have hplain : inRange (Nat.toDigits 10 n) = unsignedInRange (Nat.toDigits 10 n) := by
    unfold inRange
    split
    · rename_i cs hcs
      rw [hcs, Text.digitsFrom_none (by decide) List.mem_cons_self] at hdigits
      cases hdigits
    · rfl
  rw [hplain, unsignedInRange, takeDigits_of_digitsFrom hdigits]
  rfl

/-! ## Values -/

mutual

/-- At most `depth` containers within each other, and no number that overflows. -/
def held : Value → Nat → Bool
  | .num text, _ => inRange text
  | .arr _, 0 => false
  | .arr vs, depth + 1 => heldAll vs depth
  | .obj _, 0 => false
  | .obj ms, depth + 1 => heldMembers ms depth
  | .null, _ => true
  | .bool _, _ => true
  | .str _, _ => true

def heldAll : List Value → Nat → Bool
  | [], _ => true
  | v :: vs, depth => held v depth && heldAll vs depth

def heldMembers : List (List Char × Value) → Nat → Bool
  | [], _ => true
  | m :: ms, depth => held m.2 depth && heldMembers ms depth

end

theorem heldAll_iff {vs : List Value} {depth : Nat} : heldAll vs depth = true ↔ ∀ v ∈ vs, held v depth = true := by
  induction vs with
  | nil => simp [heldAll]
  | cons v vs ih => simp [heldAll, ih]

theorem heldMembers_iff {ms : List (List Char × Value)} {depth : Nat} :
    heldMembers ms depth = true ↔ ∀ m ∈ ms, held m.2 depth = true := by
  induction ms with
  | nil => simp [heldMembers]
  | cons m ms ih => simp [heldMembers, ih]

end Json
