import Mathlib.Data.List.Infix
import Mathlib.Data.String.Basic
/-!
# Infix — where a pattern occurs in a text put together from parts

`contains`, as a standard library's strings have it.  A pattern without the separator cannot reach over it, so it occurs
in words joined by the separator iff it occurs in one of them; a label that begins nothing of the pattern adds no
occurrence to the text behind it; and a text without one of the pattern's letters has none.
-/
namespace Infix

variable {α : Type*} {p l xs ys : List α} {c : α}

/-- A pattern without `c` lies on one side of it. -/
theorem infix_sep (h : c ∉ p) : p <:+: xs ++ c :: ys ↔ p <:+: xs ∨ p <:+: ys := by
  constructor
  · intro hp
    rcases List.infix_append_iff.1 hp with hxs | hys | ⟨l₁, l₂, rfl, hl₁, hl₂⟩
    · exact .inl hxs
    · rcases List.infix_cons_iff.1 hys with hpre | hys
      · cases p with
        | nil => exact .inr (List.nil_infix)
        | cons a p =>
          rw [List.cons_prefix_cons] at hpre
          exact absurd (hpre.1 ▸ List.mem_cons_self) h
      · exact .inr hys
    · cases l₂ with
      | nil =>
        rw [List.append_nil]
        exact .inl hl₁.isInfix
      | cons a l₂ =>
        rw [List.cons_prefix_cons] at hl₂
        exact absurd (List.mem_append_right l₁ (hl₂.1 ▸ List.mem_cons_self)) h
  · rintro (hp | hp)
    · exact hp.trans (List.prefix_append xs _).isInfix
    · exact (hp.trans (List.suffix_cons c ys).isInfix).trans (List.suffix_append xs _).isInfix

/-- **A pattern without the separator occurs in the joined words iff it occurs in one of them.** -/
theorem infix_intercalate (h : c ∉ p) (hne : p ≠ []) :
    ∀ ws : List (List α), p <:+: [c].intercalate ws ↔ ∃ w ∈ ws, p <:+: w
  | []           => by simp [hne]
  | [w]          => by simp
  | w :: v :: ws => by
    rw [List.intercalate_cons_cons, List.append_assoc, List.singleton_append, infix_sep h,
      infix_intercalate h hne (v :: ws)]
    simp

/-- A label that does not hold the pattern and ends in no beginning of it. -/
def Apart (p l : List α) : Prop := ¬ p <:+: l ∧ ∀ t ∈ l.tails, t ≠ [] → ¬ t <+: p

instance [DecidableEq α] : Decidable (Apart p l) := inferInstanceAs (Decidable (_ ∧ _))

/-- Behind such a label the pattern occurs where it occurs without it. -/
theorem infix_label (h : Apart p l) : p <:+: l ++ xs ↔ p <:+: xs := by
  constructor
  · intro hp
    rcases List.infix_append_iff.1 hp with hl | hxs | ⟨l₁, l₂, rfl, hl₁, hl₂⟩
    · exact absurd hl h.1
    · exact hxs
    · have hnil : l₁ = [] := by
        by_contra hne
        exact h.2 l₁ ((List.mem_tails _ _).2 hl₁) hne (List.prefix_append l₁ l₂)
      rw [hnil, List.nil_append]
      exact hl₂.isInfix
  · intro hp
    exact hp.trans (List.suffix_append l xs).isInfix

/-- A letter of the pattern that the text does not have. -/
theorem not_infix_of_mem (hp : c ∈ p) (hxs : c ∉ xs) : ¬ p <:+: xs := by
  intro h
  exact hxs (h.subset hp)

/-! ## Strings -/

def contains (s pat : String) : Bool := decide (pat.toList <:+: s.toList)

theorem contains_iff {s pat : String} : contains s pat = true ↔ pat.toList <:+: s.toList := decide_eq_true_iff

/-- The decimal digits of a number hold no other character. -/
theorem not_mem_toString (n : Nat) {c : Char} (hc : c.isDigit = false) : c ∉ (toString n).toList := by
  intro h
  rw [Nat.toString_eq_repr, Nat.toList_repr] at h
  rw [Nat.isDigit_of_mem_toDigits (by decide) (by decide) h] at hc
  cases hc

end Infix
