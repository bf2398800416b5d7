import Mathlib.Data.List.Basic
import Mathlib.Order.Lattice
/-!
# Lww — tables merged by last writer wins

A row carries a stamp from a linear order.  A slot keeps the row it has unless the one that arrives is stamped strictly
above it (`keep`).  Which row a slot ends up with depends on the rows that arrived and on the row it started from, not
on their order and not on how often each came (`Holds.unique`): it is the first row if none is stamped above it, and
otherwise the one stamped highest (`holds_keepAll`).  A table is a slot for each key, some of them closed to what
arrives (`mergeAll_apply`).
-/
namespace Lww

variable {ν τ : Type} [LinearOrder τ] (stamp : ν → τ)

/-- The row that arrives beats the one in the slot. -/
def Beats : Option ν → ν → Prop
  | none, _   => True
  | some o, v => stamp o < stamp v

instance (o : Option ν) (v : ν) : Decidable (Beats stamp o v) :=
  match o with
  | none => .isTrue trivial
  | some o => inferInstanceAs (Decidable (stamp o < stamp v))

/-- One row arrives at a slot. -/
def keep (o : Option ν) (v : ν) : Option ν := if Beats stamp o v then some v else o

/-- Rows arrive at a slot one after another. -/
def keepAll (o : Option ν) (l : List ν) : Option ν := l.foldl (keep stamp) o

/-- `r` is the row with the highest stamp among `o` and the rows of `l`, and `o` itself where none is stamped above. -/
def Holds (o : Option ν) (l : List ν) (r : Option ν) : Prop :=
  (r = o ∧ ∀ v ∈ l, ¬ Beats stamp o v) ∨
  ∃ v ∈ l, r = some v ∧ Beats stamp o v ∧ ∀ w ∈ l, stamp w ≤ stamp v

variable {stamp}

theorem beats_some {o v : ν} : Beats stamp (some o) v ↔ stamp o < stamp v := .rfl

theorem keep_of_beats {o : Option ν} {v : ν} (h : Beats stamp o v) : keep stamp o v = some v := if_pos h

theorem keep_of_not_beats {o : Option ν} {v : ν} (h : ¬ Beats stamp o v) : keep stamp o v = o := if_neg h

/-- **A slot changes exactly when the row that arrives beats the one in it.** -/
theorem keep_ne_iff (o : Option ν) (v : ν) : keep stamp o v ≠ o ↔ Beats stamp o v := by
  by_cases h : Beats stamp o v
  · rw [keep_of_beats h]
    refine iff_of_true ?_ h
    rintro rfl
    exact lt_irrefl _ h
  · rw [keep_of_not_beats h]
    exact iff_of_false (fun hne => hne rfl) h

theorem Beats.trans_lt {o : Option ν} {v w : ν} (h : Beats stamp o v) (hvw : stamp v ≤ stamp w) : Beats stamp o w := by
  cases o with
  | none => trivial
  | some o => exact lt_of_lt_of_le h hvw

theorem Beats.lt_of_not {o : Option ν} {v w : ν} (h : Beats stamp o v) (hw : ¬ Beats stamp o w) :
    stamp w < stamp v := by
  by_contra hle
  exact hw (h.trans_lt (not_lt.1 hle))

/-- **What a slot holds after any rows have arrived.** -/
theorem holds_keepAll (o : Option ν) (l : List ν) : Holds stamp o l (keepAll stamp o l) := by
  induction l generalizing o with
  | nil => exact .inl ⟨rfl, fun v hv => by cases hv⟩
  | cons v l ih =>
    rw [keepAll, List.foldl_cons]
    by_cases h : Beats stamp o v
    · rw [keep_of_beats h]
      rcases ih (some v) with ⟨heq, hnone⟩ | ⟨w, hw, heq, hbeats, hmax⟩
      · refine .inr ⟨v, List.mem_cons_self, heq, h, fun w hw => ?_⟩
        rcases List.mem_cons.1 hw with rfl | hw
        · exact le_rfl
        · exact not_lt.1 (hnone w hw)
      · refine .inr ⟨w, List.mem_cons_of_mem v hw, heq, h.trans_lt (le_of_lt hbeats), fun u hu => ?_⟩
        rcases List.mem_cons.1 hu with rfl | hu
        · exact le_of_lt hbeats
        · exact hmax u hu
    · rw [keep_of_not_beats h]
      rcases ih o with ⟨heq, hnone⟩ | ⟨w, hw, heq, hbeats, hmax⟩
      · refine .inl ⟨heq, fun w hw => ?_⟩
        rcases List.mem_cons.1 hw with rfl | hw
        · exact h
        · exact hnone w hw
      · refine .inr ⟨w, List.mem_cons_of_mem v hw, heq, hbeats, fun u hu => ?_⟩
        rcases List.mem_cons.1 hu with rfl | hu
        · exact le_of_lt (hbeats.lt_of_not h)
        · exact hmax u hu

/-- Rows of one stamp are one row. -/
def Agree (stamp : ν → τ) (l : List ν) : Prop := ∀ v ∈ l, ∀ w ∈ l, stamp v = stamp w → v = w

/-- **Two lists with the same rows leave a slot the same row.** -/
theorem Holds.unique {o : Option ν} {l l' : List ν} {r r' : Option ν} (hagree : Agree stamp l)
    (hmem : ∀ v, v ∈ l ↔ v ∈ l') (h : Holds stamp o l r) (h' : Holds stamp o l' r') : r = r' := by
  rcases h with ⟨rfl, hnone⟩ | ⟨v, hv, rfl, hbeats, hmax⟩ <;> rcases h' with ⟨rfl, hnone'⟩ | ⟨w, hw, rfl, hbeats', hmax'⟩
  · rfl
  · exact absurd hbeats' (hnone w ((hmem w).2 hw))
  · exact absurd hbeats (hnone' v ((hmem v).1 hv))
  · have hle : stamp v ≤ stamp w := hmax' v ((hmem v).1 hv)
    have hge : stamp w ≤ stamp v := hmax w ((hmem w).2 hw)
    rw [hagree v hv w ((hmem w).2 hw) (le_antisymm hle hge)]

/-! ## Tables -/

variable {κ : Type} [DecidableEq κ] (stamp) (key : ν → κ) (closed : κ → Prop) [DecidablePred closed]

/-- One row arrives at a table whose `closed` keys take nothing. -/
def merge (t : κ → Option ν) (v : ν) : κ → Option ν :=
  fun k => if key v = k ∧ ¬ closed k then keep stamp (t k) v else t k

def mergeAll (t : κ → Option ν) (l : List ν) : κ → Option ν := l.foldl (merge stamp key closed) t

variable {stamp key closed}

theorem mergeAll_closed {k : κ} (hk : closed k) (t : κ → Option ν) (l : List ν) :
    mergeAll stamp key closed t l k = t k := by
  induction l generalizing t with
  | nil => rfl
  | cons v l ih =>
    have hstep : merge stamp key closed t v k = t k := if_neg (fun h => h.2 hk)
    exact (ih _).trans hstep

/-- **Each open slot of a table sees the rows of its own key, in order.** -/
theorem mergeAll_apply {k : κ} (hk : ¬ closed k) (t : κ → Option ν) (l : List ν) :
    mergeAll stamp key closed t l k = keepAll stamp (t k) (l.filter (fun v => key v = k)) := by
  induction l generalizing t with
  | nil => rfl
  | cons v l ih =>
    rw [mergeAll, List.foldl_cons]
    refine (ih _).trans ?_
    by_cases hv : key v = k
    · have hstep : merge stamp key closed t v k = keep stamp (t k) v := if_pos ⟨hv, hk⟩
      rw [hstep, List.filter_cons_of_pos (by simpa using hv)]
      rfl
    · have hstep : merge stamp key closed t v k = t k := if_neg (fun h => hv h.1)
      rw [hstep, List.filter_cons_of_neg (by simpa using hv)]

/-- Rewriting every row, without touching keys and stamps, commutes with merging. -/
theorem mergeAll_map {f : ν → ν} (hkey : ∀ v, key (f v) = key v) (hstamp : ∀ v, stamp (f v) = stamp v)
    (t : κ → Option ν) (l : List ν) (k : κ) :
    (mergeAll stamp key closed t l k).map f =
      mergeAll stamp key closed (fun k => (t k).map f) (l.map f) k := by
  induction l generalizing t with
  | nil => rfl
  | cons v l ih =>
    have hstep : (fun k => (merge stamp key closed t v k).map f) =
        merge stamp key closed (fun k => (t k).map f) (f v) := by
      funext k
      unfold merge keep
      rw [hkey]
      have hbeats : Beats stamp ((t k).map f) (f v) ↔ Beats stamp (t k) v := by
        cases t k with
        | none => exact .rfl
        | some o => rw [Option.map_some, beats_some, beats_some, hstamp, hstamp]
      by_cases hk : key v = k ∧ ¬ closed k
      · rw [if_pos hk, if_pos hk, apply_ite (Option.map f)]
        simp only [Option.map_some, hbeats]
      · rw [if_neg hk, if_neg hk]
    rw [List.map_cons, mergeAll, mergeAll, List.foldl_cons, List.foldl_cons, ← hstep]
    exact ih (merge stamp key closed t v)

variable (stamp key closed)

/-- What a table holds after `rows` have arrived: each open key the row stamped highest among them and the row it had,
each closed key the row it had. -/
structure Settled (before after : κ → Option ν) (rows : List ν) : Prop where
  open_ : ∀ k, ¬ closed k → Holds stamp (before k) (rows.filter (fun v => key v = k)) (after k)
  closed_ : ∀ k, closed k → after k = before k

variable {stamp key closed}

theorem mergeAll_settled (t : κ → Option ν) (l : List ν) :
    Settled stamp key closed t (mergeAll stamp key closed t l) l := by
  refine ⟨fun k hk => ?_, fun k hk => mergeAll_closed hk t l⟩
  rw [mergeAll_apply hk]
  exact holds_keepAll _ _

omit [DecidablePred closed] in
/-- **Two lists with the same rows settle a table alike**, where rows of one key and one stamp are one row. -/
theorem Settled.unique {before after after' : κ → Option ν} {l l' : List ν}
    (hagree : ∀ v ∈ l, ∀ w ∈ l, key v = key w → stamp v = stamp w → v = w) (hmem : ∀ v, v ∈ l ↔ v ∈ l')
    (h : Settled stamp key closed before after l) (h' : Settled stamp key closed before after' l') (k : κ) :
    after k = after' k := by
  by_cases hk : closed k
  · exact (h.closed_ k hk).trans (h'.closed_ k hk).symm
  · refine (h.open_ k hk).unique (fun v hv w hw heq => ?_) (fun v => ?_) (h'.open_ k hk)
    · simp only [List.mem_filter, decide_eq_true_eq] at hv hw
      exact hagree v hv.1 w hw.1 (hv.2.trans hw.2.symm) heq
    · rw [List.mem_filter, List.mem_filter, hmem v]

end Lww
