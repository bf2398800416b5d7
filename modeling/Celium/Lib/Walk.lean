import Mathlib.Data.List.Induction
/-!
# Walk — trees of tables in a memory

A table has a cell for every index, and what is in a cell leads to another table or nowhere.  A tree is grown by linking
fresh tables into cells that led nowhere, and its lowest tables are written to.  As long as no table is reached along two
paths, such a write changes what it is meant to change and nothing else.
-/
namespace Walk

variable {A I V : Type} (next : V → Option A)

/-- The table that a path of indices leads to. -/
def walk (m : A → I → V) : A → List I → Option A
  | a, [] => some a
  | a, i :: path => (next (m a i)).bind fun b => walk m b path

variable {next} {m m' : A → I → V} {root : A}

theorem walk_append (a : A) (p q : List I) : walk next m a (p ++ q) = (walk next m a p).bind fun b => walk next m b q := by
  induction p generalizing a with
  | nil => rfl
  | cons i p ih =>
    rw [List.cons_append, walk, walk, Option.bind_assoc]
    exact Option.bind_congr fun b _ => ih b

theorem walk_concat (a : A) (p : List I) (i : I) :
    walk next m a (p ++ [i]) = (walk next m a p).bind fun b => next (m b i) := by
  rw [walk_append]
  exact Option.bind_congr fun b _ => Option.bind_fun_some _

/-- Every table down to a depth is owned and reached along one path only. -/
structure Tree (next : V → Option A) (m : A → I → V) (root : A) (depth : Nat) (owned : A → Prop) : Prop where
  owned : ∀ {p a}, p.length ≤ depth → walk next m root p = some a → owned a
  unique : ∀ {p q a}, p.length ≤ depth → q.length ≤ depth → walk next m root p = some a → walk next m root q = some a → p = q

variable {depth : Nat} {owned owned' : A → Prop}

/-- A table without links is a tree. -/
theorem Tree.single (hroot : owned root) (hempty : ∀ i, next (m root i) = none) : Tree next m root depth owned := by
  have hnil : ∀ {p a}, walk next m root p = some a → p = [] ∧ a = root := by
    intro p a h
    cases p with
    | nil => exact ⟨rfl, (Option.some.inj h).symm⟩
    | cons i p =>
      rw [walk, hempty] at h
      cases h
  refine ⟨fun _ h => ?_, fun _ _ hp hq => ?_⟩
  · rw [(hnil h).2]
    exact hroot
  · rw [(hnil hp).1, (hnil hq).1]

theorem walk_congr {q : List I}
    (h : ∀ p i, p.length < q.length → ∀ a, walk next m root p = some a → next (m' a i) = next (m a i)) :
    walk next m' root q = walk next m root q := by
  induction q using List.reverseRecOn with
  | nil => rfl
  | append_singleton q i ih =>
    rw [List.length_append, List.length_singleton] at h
    rw [walk_concat, walk_concat, ih fun p j hp => h p j (by omega)]
    exact Option.bind_congr fun a ha => h q i (by omega) a ha

/-- Memories that agree on what the tree owns. -/
theorem Tree.congr (ht : Tree next m root depth owned) (hsame : ∀ a, owned a → ∀ i, m' a i = m a i)
    (hkeep : ∀ a, owned a → owned' a) :
    Tree next m' root depth owned' ∧ ∀ q, q.length ≤ depth → walk next m' root q = walk next m root q := by
  have hwalk : ∀ q, q.length ≤ depth → walk next m' root q = walk next m root q := by
    intro q hq
    refine walk_congr fun p i hp a ha => ?_
    rw [hsame a (ht.owned (by omega) ha)]
  refine ⟨⟨fun hp h => hkeep _ (ht.owned hp (hwalk _ hp ▸ h)), fun hp hq h h' => ?_⟩, hwalk⟩
  exact ht.unique hp hq (hwalk _ hp ▸ h) (hwalk _ hq ▸ h')

/-- A write to a lowest table moves no path. -/
theorem Tree.write (ht : Tree next m root depth owned) {path : List I} {t : A} {i : I} (hlen : path.length = depth)
    (hpath : walk next m root path = some t) (hsame : ∀ a, owned a → ∀ j, (a, j) ≠ (t, i) → m' a j = m a j) :
    Tree next m' root depth owned ∧ ∀ q, q.length ≤ depth → walk next m' root q = walk next m root q := by
  have hwalk : ∀ q, q.length ≤ depth → walk next m' root q = walk next m root q := by
    intro q hq
    refine walk_congr fun p j hp a ha => ?_
    rw [hsame a (ht.owned (by omega) ha) j fun heq => ?_]
    -- A table on the way to `q` is not a lowest one.
    have hat : a = t := (Prod.mk.inj heq).1
    have := congrArg List.length (ht.unique (by omega) (Nat.le_of_eq hlen) (hat ▸ ha) hpath)
    omega
  refine ⟨⟨fun hp h => ht.owned hp (hwalk _ hp ▸ h), fun hp hq h h' => ?_⟩, hwalk⟩
  exact ht.unique hp hq (hwalk _ hp ▸ h) (hwalk _ hq ▸ h')

section Link

variable [DecidableEq I]

/-- A fresh table is linked into a cell that led nowhere: its own path is the only one that changes. -/
theorem Tree.walk_link (ht : Tree next m root depth owned) {path : List I} {t b : A} {i : I} (hlen : path.length < depth)
    (hpath : walk next m root path = some t) (hfree : next (m t i) = none) (hlink : next (m' t i) = some b)
    (hempty : ∀ j, next (m' b j) = none) (hsame : ∀ a, owned a → ∀ j, (a, j) ≠ (t, i) → m' a j = m a j)
    {q : List I} (hq : q.length ≤ depth) :
    walk next m' root q = if q = path ++ [i] then some b else walk next m root q := by
  have hnone : walk next m root (path ++ [i]) = none := by
    rw [walk_concat, hpath]
    exact hfree
  induction q using List.reverseRecOn with
  | nil =>
    rw [if_neg fun h => List.append_ne_nil_of_right_ne_nil path (List.cons_ne_nil i []) h.symm]
    rfl
  | append_singleton p j ih =>
    rw [List.length_append, List.length_singleton] at hq
    rw [walk_concat, ih (by omega), walk_concat]
    split
    · rename_i hp
      subst hp
      rw [if_neg fun h => by simpa using congrArg List.length h, hnone]
      exact hempty j
    · rename_i hp
      cases hw : walk next m root p with
      | none =>
        rw [if_neg fun h => ?_]
        · rfl
        · rw [(List.append_inj' h rfl).1, hpath] at hw
          cases hw
      | some a =>
        by_cases hcell : (a, j) = (t, i)
        · obtain ⟨rfl, rfl⟩ := Prod.mk.inj hcell
          rw [ht.unique (by omega) (by omega) hw hpath, if_pos rfl]
          exact hlink
        · rw [if_neg fun h => hcell ?_]
          · change next (m' a j) = next (m a j)
            rw [hsame a (ht.owned (by omega) hw) j hcell]
          · obtain ⟨hp', hj⟩ := List.append_inj' h rfl
            rw [hp', hpath] at hw
            rw [Option.some.inj hw, (List.cons.inj hj).1]

theorem Tree.link (ht : Tree next m root depth owned) {path : List I} {t b : A} {i : I} (hlen : path.length < depth)
    (hpath : walk next m root path = some t) (hfree : next (m t i) = none) (hlink : next (m' t i) = some b)
    (hempty : ∀ j, next (m' b j) = none) (hsame : ∀ a, owned a → ∀ j, (a, j) ≠ (t, i) → m' a j = m a j)
    (hfresh : ¬ owned b) (hkeep : ∀ a, owned a → owned' a) (hb : owned' b) : Tree next m' root depth owned' := by
  have hwalk : ∀ q, q.length ≤ depth → walk next m' root q = if q = path ++ [i] then some b else walk next m root q :=
    fun q hq => ht.walk_link hlen hpath hfree hlink hempty hsame hq
  refine ⟨fun {p a} hp h => ?_, fun {p q a} hp hq h h' => ?_⟩
  · rw [hwalk p hp] at h
    split at h
    · exact Option.some.inj h ▸ hb
    · exact hkeep a (ht.owned hp h)
  · rw [hwalk p hp] at h
    rw [hwalk q hq] at h'
    split at h <;> split at h'
    · rename_i hp' hq'
      exact hp'.trans hq'.symm
    · exact (hfresh (Option.some.inj h ▸ ht.owned hq h')).elim
    · exact (hfresh (Option.some.inj h' ▸ ht.owned hp h)).elim
    · exact ht.unique hp hq h h'

end Link

end Walk
