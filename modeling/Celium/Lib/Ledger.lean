import Mathlib.Data.List.Induction
/-!
# Ledger — what a table holds, read off the events that wrote it

An event enters at most one row, and leaves some of the rows standing that were entered before it.  A table that is kept
so holds, after any events, exactly the rows that were entered and left standing ever since (`mem_standing`), in the
order in which they were entered.
-/
namespace Ledger

variable {ε ι : Type}

/-- What one event enters, and which rows it leaves standing. -/
structure Rules (ε ι : Type) where
  enters : ε → Option ι
  spares : ε → ι → Bool

variable (L : Rules ε ι)

/-- The table after one event. -/
def Rules.post (rows : List ι) (e : ε) : List ι := rows.filter (L.spares e) ++ (L.enters e).toList

/-- The table after a series of events, from an empty one. -/
def Rules.standing (events : List ε) : List ι := events.foldl L.post []

/-- `x` was entered by one of the events, and every later one spares it. -/
def Rules.Stands (events : List ε) (x : ι) : Prop :=
  ∃ pre e post, events = pre ++ e :: post ∧ L.enters e = some x ∧ ∀ f ∈ post, L.spares f x

variable {L}

theorem Rules.standing_concat (events : List ε) (e : ε) :
    L.standing (events ++ [e]) = L.post (L.standing events) e := by
  rw [standing, List.foldl_append]
  rfl

/-- One more event: the row is the one it enters, or it stood before and is spared. -/
theorem Rules.stands_concat {events : List ε} {e : ε} {x : ι} :
    L.Stands (events ++ [e]) x ↔ L.Stands events x ∧ L.spares e x ∨ L.enters e = some x := by
  constructor
  · rintro ⟨pre, e', post, h, he, hpost⟩
    rcases List.eq_nil_or_concat post with rfl | ⟨post, f, rfl⟩
    · obtain ⟨-, hlast⟩ := List.append_inj' h rfl
      obtain rfl : e = e' := List.singleton_inj.1 hlast
      exact .inr he
    · rw [List.concat_eq_append, ← List.cons_append, ← List.append_assoc] at h
      obtain ⟨rfl, hlast⟩ := List.append_inj' h rfl
      obtain rfl : e = f := List.singleton_inj.1 hlast
      rw [List.concat_eq_append] at hpost
      exact .inl ⟨⟨pre, e', post, rfl, he, fun g hg => hpost g (List.mem_append_left _ hg)⟩,
        hpost e (List.mem_append_right _ (List.mem_singleton_self e))⟩
  · rintro (⟨⟨pre, e', post, rfl, he, hpost⟩, hs⟩ | he)
    · refine ⟨pre, e', post ++ [e], by simp, he, fun f hf => ?_⟩
      rcases List.mem_append.1 hf with hf | hf
      · exact hpost f hf
      · rw [List.mem_singleton.1 hf]
        exact hs
    · exact ⟨events, e, [], rfl, he, fun f hf => by cases hf⟩

/-- **A row is in the table iff it was entered and every later event spared it.** -/
theorem Rules.mem_standing {x : ι} (events : List ε) : x ∈ L.standing events ↔ L.Stands events x := by
  induction events using List.reverseRecOn with
  | nil =>
    constructor
    · intro h
      cases h
    · rintro ⟨pre, e, post, h, -⟩
      cases pre <;> cases h
  | append_singleton events e ih =>
    rw [standing_concat, stands_concat, post, List.mem_append, List.mem_filter, ih, Option.mem_toList]

end Ledger
