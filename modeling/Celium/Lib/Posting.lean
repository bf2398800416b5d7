import Mathlib.Logic.Function.Basic
/-!
# Posting — a book that is written after the facts it records

Cells open and close, and the entry that records it is posted later, by whoever caused it.  `Posts m q m'` says that
the entries waiting in `q`, posted in order to the book `m`, bring it to `m'`, and that each finds the cell as it must:
empty to open it, holding the recorded value to close it.  Entries of different cells may be posted in any order
(`Posts.take_out`); of one cell, the first waiting is the one that fits the book.
-/
namespace Posting

variable {κ α : Type} [DecidableEq κ] [Inhabited α]

inductive Entry (κ α : Type) where
  | opened (key : κ) (v : α)
  | closed (key : κ) (v : α)

namespace Entry

def key : Entry κ α → κ
  | opened k _ | closed k _ => k

/-- The cell before the entry is posted. -/
def was : Entry κ α → α
  | opened _ _ => default
  | closed _ v => v

/-- The cell after it. -/
def now : Entry κ α → α
  | opened _ v => v
  | closed _ _ => default

end Entry

/-- The entries `q`, posted in order, bring `m` to `m'`. -/
def Posts (m : κ → α) : List (Entry κ α) → (κ → α) → Prop
  | [], m'     => m = m'
  | e :: q, m' => m e.key = e.was ∧ Posts (Function.update m e.key e.now) q m'

theorem Posts.append_one {e : Entry κ α} : ∀ {q : List (Entry κ α)} {m m' : κ → α}, Posts m q m' → m' e.key = e.was →
    Posts m (q ++ [e]) (Function.update m' e.key e.now)
  | [], _, _, h, he => by
    obtain rfl : _ = _ := h
    exact ⟨he, rfl⟩
  | _ :: _, _, _, h, he => ⟨h.1, h.2.append_one he⟩

/-- **The first waiting entry of a cell can be posted at once.** -/
theorem Posts.take_out {e : Entry κ α} {post : List (Entry κ α)} : ∀ {pre : List (Entry κ α)} {m m' : κ → α},
    Posts m (pre ++ e :: post) m' → (∀ x ∈ pre, x.key ≠ e.key) →
    m e.key = e.was ∧ Posts (Function.update m e.key e.now) (pre ++ post) m'
  | [], _, _, h, _ => h
  | x :: pre, m, m', h, hne => by
    have hx : x.key ≠ e.key := hne x (by simp)
    obtain ⟨hwas, hrest⟩ := h.2.take_out (fun y hy => hne y (by simp [hy]))
    rw [Function.update_of_ne hx.symm] at hwas
    refine ⟨hwas, ?_, ?_⟩
    · rw [Function.update_of_ne hx]
      exact h.1
    · rw [Function.update_comm hx.symm]
      exact hrest

end Posting
