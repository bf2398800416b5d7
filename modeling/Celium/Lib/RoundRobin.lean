import Mathlib.Data.List.Rotate
import Mathlib.Data.List.TakeWhile
import Mathlib.Data.List.FinRange
/-!
# RoundRobin — a queue that is searched from where the last search ended

A turn takes the first ready element and moves it to the back, behind everything that was passed over.  So whoever stays
ready comes closer with every turn that it does not get.  A cursor into a fixed range is such a queue: the range rotated to
the cursor.
-/
namespace RoundRobin

variable {α : Type}

/-- The first ready element, and the queue after it was taken. -/
def turn (ready : α → Bool) (q : List α) : Option (α × List α) :=
  match q.dropWhile (fun a => !ready a) with
  | [] => none
  | a :: rest => some (a, rest ++ q.takeWhile (fun a => !ready a) ++ [a])

variable {ready : α → Bool} {q q' : List α} {a b : α}

theorem turn_none : turn ready q = none ↔ ∀ a ∈ q, ready a = false := by
  unfold turn
  split
  · rename_i hnil
    refine iff_of_true rfl fun a ha => ?_
    have hall := List.dropWhile_eq_nil_iff.1 hnil a ha
    simpa using hall
  · rename_i a rest hdrop
    refine iff_of_false (by simp) fun hall => ?_
    have ha : a ∈ q := List.dropWhile_subset _ (by rw [hdrop]; exact List.mem_cons_self)
    have hhead := List.head_dropWhile_not (fun a => !ready a) (by rw [hdrop]; exact List.cons_ne_nil _ _)
    simp only [hdrop, List.head_cons, Bool.not_eq_false'] at hhead
    rw [hall a ha] at hhead
    cases hhead

/-- **What a turn does.** -/
theorem turn_some : turn ready q = some (a, q') ↔
    ∃ before after, q = before ++ a :: after ∧ (∀ b ∈ before, ready b = false) ∧ ready a = true ∧
      q' = after ++ before ++ [a] := by
  constructor
  · intro h
    unfold turn at h
    split at h
    · cases h
    · rename_i a' rest hdrop
      obtain ⟨rfl, rfl⟩ := Prod.mk.inj (Option.some.inj h)
      have hhead := List.head_dropWhile_not (fun a => !ready a) (by rw [hdrop]; exact List.cons_ne_nil _ _)
      simp only [hdrop, List.head_cons, Bool.not_eq_false'] at hhead
      refine ⟨q.takeWhile (fun a => !ready a), rest, ?_, fun b hb => ?_, hhead, rfl⟩
      · rw [← hdrop]
        exact (List.takeWhile_append_dropWhile).symm
      · have hpass := List.mem_takeWhile_imp hb
        simpa using hpass
  · rintro ⟨before, after, rfl, hbefore, hready, rfl⟩
    have hpass : ∀ b ∈ before, (!ready b) = true := fun b hb => by rw [hbefore b hb]; rfl
    have hstop : (a :: after).dropWhile (fun a => !ready a) = a :: after :=
      List.dropWhile_cons_of_neg (by simp [hready])
    have hnone : (a :: after).takeWhile (fun a => !ready a) = [] := List.takeWhile_cons_of_neg (by simp [hready])
    rw [turn, List.dropWhile_append_of_pos hpass, hstop, List.takeWhile_append_of_pos hpass, hnone, List.append_nil]

/-- **A turn that goes to another brings a waiting element closer.** -/
theorem turn_closer [DecidableEq α] (h : turn ready q = some (b, q')) (ha : a ∈ q) (hready : ready a = true) (hne : a ≠ b) :
    q'.idxOf a < q.idxOf a := by
  obtain ⟨before, after, rfl, hbefore, -, rfl⟩ := turn_some.1 h
  have hout : a ∉ before := fun hin => by
    rw [hbefore a hin] at hready
    cases hready
  have hin : a ∈ after := by
    rcases List.mem_append.1 ha with hin | hin
    · exact absurd hin hout
    · exact (List.mem_cons.1 hin).resolve_left hne
  rw [List.append_assoc, List.idxOf_append_of_mem hin, List.idxOf_append_of_notMem hout,
    List.idxOf_cons_ne _ (Ne.symm hne)]
  omega

/-! ## Cursors -/

section Cursor

variable {n : Nat}

/-- The places from a cursor on, once around. -/
def order (start : Nat) : List (Fin n) := (List.finRange n).rotate start

theorem order_mod (start : Nat) : (order (start % n) : List (Fin n)) = order start := by
  have hmod := List.rotate_mod (List.finRange n) start
  rw [List.length_finRange] at hmod
  exact hmod

theorem mem_order (start : Nat) (i : Fin n) : i ∈ (order start : List (Fin n)) :=
  List.mem_rotate.2 (List.mem_finRange i)

theorem nodup_order (start : Nat) : (order start : List (Fin n)).Nodup :=
  List.nodup_rotate.2 (List.nodup_finRange n)

theorem length_order (start : Nat) : (order start : List (Fin n)).length = n := by
  rw [order, List.length_rotate, List.length_finRange]

/-- The places as a loop over offsets finds them. -/
theorem order_eq (hn : 0 < n) (start : Nat) : (order start : List (Fin n)) =
    (List.range n).map fun offset => ⟨(start + offset) % n, Nat.mod_lt _ hn⟩ := by
  refine List.ext_getElem ?_ fun k hk hk' => ?_
  · rw [length_order, List.length_map, List.length_range]
  · simp only [order, List.getElem_rotate, List.getElem_finRange, List.getElem_map, List.getElem_range,
      List.length_finRange]
    rw [Fin.ext_iff]
    simp only [Fin.val_cast]
    rw [Nat.add_comm]

/-- After a place was taken the cursor is behind it. -/
theorem order_next {start : Nat} {before after : List (Fin n)} {i : Fin n}
    (h : (order start : List (Fin n)) = before ++ i :: after) : order (i + 1) = after ++ before ++ [i] := by
  have hn : 0 < n := Nat.lt_of_le_of_lt (Nat.zero_le _) i.isLt
  have hlen := congrArg List.length h
  rw [length_order, List.length_append, List.length_cons] at hlen
  have hi : i.val = (start + before.length) % n := by
    have hbound : before.length < (order start : List (Fin n)).length := by
      rw [length_order]
      omega
    have hget : (order start : List (Fin n))[before.length] = i := by
      simp only [h, List.getElem_append_right (Nat.le_refl _), Nat.sub_self, List.getElem_cons_zero]
    simp only [order_eq hn start, List.getElem_map, List.getElem_range] at hget
    rw [← hget]
  calc order (i + 1)
      = order (start + (before.length + 1)) := by
        rw [← order_mod (i.val + 1), hi, Nat.mod_add_mod, order_mod, Nat.add_assoc]
    _ = (before ++ i :: after).rotate (before ++ [i]).length := by
        rw [order, ← List.rotate_rotate, ← order, h, List.length_append, List.length_singleton]
    _ = after ++ before ++ [i] := by
        rw [← List.singleton_append, ← List.append_assoc, List.rotate_append_length_eq, List.append_assoc]

end Cursor

end RoundRobin
