import Mathlib.Logic.Relation
import Mathlib.Data.List.Nodup
import Mathlib.Algebra.BigOperators.Group.Finset.Basic
import Mathlib.Algebra.GroupWithZero.Nat
import Mathlib.Algebra.Order.BigOperators.Group.Finset
/-!
# Forest — parent pointers, and quantities kept along them

A forest is given by its pointers: `up i = none` is no node, `some none` a root, `some (some p)` a child of `p`.  The
chain of a node is the list from it to its root (`ChainTo`); pointers are `Rooted` when every node has one, which is
closedness and acyclicity at once.  A forest changes at its leaves (`Grown`, `Pruned`), and two laws on quantities
survive every change: a node counts what is booked at or below it (`tally`), and a node counts at least what its
children count together (`Covers`).  `TakesApart` is an order in which a subtree can be removed leaf by leaf.
-/
namespace Forest

open Relation (ReflTransGen TransGen)

variable {ι : Type}

abbrev Pointers (ι : Type) := ι → Option (Option ι)

def Edge (up : Pointers ι) (i p : ι) : Prop := up i = some (some p)

/-- `j` is `i` or one of its ancestors. -/
def Anc (up : Pointers ι) : ι → ι → Prop := ReflTransGen (Edge up)

/-- The list from a node to its root, both included. -/
inductive ChainTo (up : Pointers ι) : ι → List ι → Prop
  | root {i : ι} : up i = some none → ChainTo up i [i]
  | child {i p : ι} {l : List ι} : up i = some (some p) → ChainTo up p l → ChainTo up i (i :: l)

def Rooted (up : Pointers ι) : Prop := ∀ i, (up i).isSome → ∃ l, ChainTo up i l

variable {up up' : Pointers ι} {i j k p t : ι} {par : Option ι} {l l' : List ι}

/-! ## Chains -/

theorem Edge.unique (h : Edge up i p) (h' : Edge up i j) : p = j := by
  unfold Edge at h h'
  rw [h] at h'
  exact Option.some.inj (Option.some.inj h')

theorem rightUnique_edge : Relator.RightUnique (Edge up) := fun _ _ _ h h' => h.unique h'

theorem ChainTo.live (h : ChainTo up i l) : (up i).isSome := by
  cases h with
  | root h => rw [h]; rfl
  | child h _ => rw [h]; rfl

theorem ChainTo.unique (h : ChainTo up i l) (h' : ChainTo up i l') : l = l' := by
  induction h generalizing l' with
  | root hr =>
    cases h' with
    | root _ => rfl
    | child hc _ => rw [hr] at hc; cases hc
  | child hc _ ih =>
    cases h' with
    | root hr => rw [hc] at hr; cases hr
    | child hc' h' =>
      rw [Edge.unique hc' hc] at h'
      rw [ih h']

theorem ChainTo.self_mem (h : ChainTo up i l) : i ∈ l := by
  cases h <;> simp

/-- A chain lists exactly the node and its ancestors. -/
theorem ChainTo.mem_iff (h : ChainTo up i l) (j : ι) : j ∈ l ↔ Anc up i j := by
  induction h with
  | @root i hr =>
    rw [List.mem_singleton]
    constructor
    · rintro rfl
      exact .refl
    · intro hj
      cases ReflTransGen.cases_head hj with
      | inl h => exact h.symm
      | inr h =>
        obtain ⟨p, hp, -⟩ := h
        unfold Edge at hp
        rw [hr] at hp
        cases hp
  | @child i p l hc _ ih =>
    rw [List.mem_cons, ih]
    constructor
    · rintro (rfl | hj)
      · exact .refl
      · exact .head hc hj
    · intro hj
      cases ReflTransGen.cases_head hj with
      | inl h => exact .inl h.symm
      | inr h =>
        obtain ⟨q, hq, hj⟩ := h
        rw [hq.unique hc] at hj
        exact .inr hj

/-- The chain of a node on a chain is a suffix of it. -/
theorem ChainTo.suffix (h : ChainTo up i l) (hj : j ∈ l) : ∃ l', ChainTo up j l' ∧ l' <:+ l := by
  induction h with
  | root hr =>
    obtain rfl := List.mem_singleton.1 hj
    exact ⟨_, .root hr, List.suffix_refl _⟩
  | child hc hp ih =>
    rcases List.mem_cons.1 hj with rfl | hj
    · exact ⟨_, .child hc hp, List.suffix_refl _⟩
    · obtain ⟨l', hl', hs⟩ := ih hj
      exact ⟨l', hl', hs.trans (List.suffix_cons _ _)⟩

theorem ChainTo.nodup (h : ChainTo up i l) : l.Nodup := by
  induction h with
  | root _ => simp
  | @child i p l hc hp ih =>
    refine List.nodup_cons.2 ⟨fun hi => ?_, ih⟩
    obtain ⟨l', hl', hs⟩ := hp.suffix hi
    have := ChainTo.unique hl' (.child hc hp)
    have := hs.length_le
    subst l'
    simp at this

theorem ChainTo.mem_live (h : ChainTo up i l) (hj : j ∈ l) : (up j).isSome := by
  obtain ⟨l', hl', -⟩ := h.suffix hj
  exact hl'.live

theorem Anc.eq_of_dead (h : Anc up i j) (hi : up i = none) : i = j := by
  cases ReflTransGen.cases_head h with
  | inl h => exact h
  | inr h =>
    obtain ⟨p, hp, -⟩ := h
    unfold Edge at hp
    rw [hi] at hp
    cases hp

/-- What is at or below a node is a node. -/
theorem Anc.live (h : Anc up i j) (hj : (up j).isSome) : (up i).isSome := by
  cases hi : up i with
  | some o => rfl
  | none =>
    rw [← h.eq_of_dead hi, hi] at hj
    cases hj

/-! ## Rooted pointers are closed and acyclic -/

theorem Rooted.closed (h : Rooted up) (he : Edge up i p) : (up p).isSome := by
  obtain ⟨l, hl⟩ := h i (by rw [he]; rfl)
  exact hl.mem_live ((hl.mem_iff p).2 (.single he))

theorem ChainTo.acyclic (h : ChainTo up i l) : ¬ TransGen (Edge up) i i := by
  intro hi
  obtain ⟨p, hp, hpi⟩ := TransGen.head'_iff.1 hi
  cases h with
  | root hr => rw [hp] at hr; cases hr
  | @child _ q l hq hl =>
    rw [Edge.unique hp hq] at hpi
    exact (List.nodup_cons.1 (ChainTo.child hq hl).nodup).1 ((hl.mem_iff i).2 hpi)

theorem Rooted.acyclic (h : Rooted up) (i : ι) : ¬ TransGen (Edge up) i i := by
  intro hi
  obtain ⟨p, hp, -⟩ := TransGen.head'_iff.1 hi
  obtain ⟨l, hl⟩ := h i (by rw [hp]; rfl)
  exact hl.acyclic hi

/-- **Pointers that go to live nodes of smaller rank are rooted.** -/
theorem rooted_of_rank (r : ι → ℕ) (h : ∀ i p, Edge up i p → (up p).isSome ∧ r p < r i) : Rooted up := by
  suffices ∀ n i, r i = n → (up i).isSome → ∃ l, ChainTo up i l from fun i hi => this _ i rfl hi
  intro n
  induction n using Nat.strong_induction_on with
  | _ n ih =>
    intro i hn hi
    obtain ⟨o, ho⟩ := Option.isSome_iff_exists.1 hi
    cases o with
    | none => exact ⟨[i], .root ho⟩
    | some p =>
      obtain ⟨hp, hr⟩ := h i p ho
      obtain ⟨l, hl⟩ := ih (r p) (hn ▸ hr) p rfl hp
      exact ⟨i :: l, .child ho hl⟩

/-- Two ancestors of one node are in line. -/
theorem Anc.total (h : Anc up i j) (h' : Anc up i k) : Anc up j k ∨ Anc up k j :=
  ReflTransGen.total_of_right_unique rightUnique_edge h h'

/-- A node has at most one child on a chain. -/
theorem ChainTo.child_unique (h : ChainTo up t l) (hi : i ∈ l) (hj : j ∈ l) (hip : Edge up i p) (hjp : Edge up j p) :
    i = j := by
  have key : ∀ a b, a ∈ l → Edge up a p → Edge up b p → Anc up a b → a = b := by
    intro a b ha hap hbp hab
    cases ReflTransGen.cases_head hab with
    | inl h => exact h
    | inr h =>
      obtain ⟨q, hq, hqb⟩ := h
      obtain ⟨lp, hlp, -⟩ := h.suffix ((h.mem_iff p).2 (((h.mem_iff a).1 ha).tail hap))
      rw [hq.unique hap] at hqb
      exact absurd (TransGen.tail' hqb hbp) hlp.acyclic
  rcases Anc.total ((h.mem_iff i).1 hi) ((h.mem_iff j).1 hj) with hij | hji
  · exact key i j hi hip hjp hij
  · exact (key j i hj hjp hip hji).symm

/-! ## A leaf is grown or pruned -/

/-- `k` is added under a live parent, or as a root. -/
structure Grown (up up' : Pointers ι) (k : ι) (par : Option ι) : Prop where
  fresh : up k = none
  here : up' k = some par
  other : ∀ i, i ≠ k → up' i = up i
  parent : ∀ p, par = some p → (up p).isSome

/-- `k`, which has no child, is taken away. -/
structure Pruned (up up' : Pointers ι) (k : ι) : Prop where
  leaf : ∀ i, ¬ Edge up i k
  here : up' k = none
  other : ∀ i, i ≠ k → up' i = up i

theorem Pruned.not_edge (h : Pruned up up' k) (i : ι) : ¬ Edge up' i k := by
  intro he
  by_cases hik : i = k
  · subst hik
    unfold Edge at he
    rw [h.here] at he
    cases he
  · exact h.leaf i (by unfold Edge at he ⊢; rwa [← h.other i hik])

theorem Grown.not_edge (h : Grown up up' k par) (hr : Rooted up) (i : ι) : ¬ Edge up i k := by
  intro he
  have := hr.closed he
  rw [h.fresh] at this
  cases this

theorem Grown.not_edge' (h : Grown up up' k par) (hr : Rooted up) (i : ι) : ¬ Edge up' i k := by
  intro he
  by_cases hik : i = k
  · subst hik
    unfold Edge at he
    rw [h.here] at he
    have := h.parent i (Option.some.inj he)
    rw [h.fresh] at this
    cases this
  · exact h.not_edge hr i (by unfold Edge at he ⊢; rwa [← h.other i hik])

section Frame

variable (hother : ∀ i, i ≠ k → up' i = up i) (hleaf : ∀ i, ¬ Edge up i k)
include hother hleaf

theorem anc_frame (hi : i ≠ k) (h : Anc up i j) : Anc up' i j := by
  induction h using ReflTransGen.head_induction_on with
  | refl => exact .refl
  | @head a b hab _ ih =>
    have hb : b ≠ k := fun hb => hleaf a (hb ▸ hab)
    exact .head (by unfold Edge at hab ⊢; rw [hother a hi, hab]) (ih hb)

theorem chainTo_frame (hi : i ≠ k) (h : ChainTo up i l) : ChainTo up' i l := by
  induction h with
  | @root i hr => exact .root (by rw [hother i hi, hr])
  | @child i p l hc _ ih =>
    have hp : p ≠ k := fun hp => hleaf i (hp ▸ hc)
    exact .child (by rw [hother i hi, hc]) (ih hp)

end Frame

theorem Grown.anc_iff (h : Grown up up' k par) (hr : Rooted up) (hi : i ≠ k) : Anc up' i j ↔ Anc up i j :=
  ⟨anc_frame (fun i hi => (h.other i hi).symm) (h.not_edge' hr) hi, anc_frame h.other (h.not_edge hr) hi⟩

theorem Pruned.anc_iff (h : Pruned up up' k) (hi : i ≠ k) : Anc up' i j ↔ Anc up i j :=
  ⟨anc_frame (fun i hi => (h.other i hi).symm) h.not_edge hi, anc_frame h.other h.leaf hi⟩

theorem anc_leaf (hleaf : ∀ i, ¬ Edge up i k) (h : Anc up i k) : i = k := by
  cases ReflTransGen.cases_tail h with
  | inl h => exact h.symm
  | inr h =>
    obtain ⟨c, -, hc⟩ := h
    exact absurd hc (hleaf c)

/-! ## What is booked at or below a node -/

section Tally

open Classical in
/-- The amounts booked at `j` and at its descendants. -/
noncomputable def tally (up : Pointers ι) (L : List (ι × ℕ)) (j : ι) : ℕ :=
  ((L.filter (fun e => Anc up e.1 j)).map Prod.snd).sum

open Classical in
theorem tally_cons (e : ι × ℕ) (L : List (ι × ℕ)) (j : ι) :
    tally up (e :: L) j = (if Anc up e.1 j then e.2 else 0) + tally up L j := by
  unfold tally
  by_cases h : Anc up e.1 j <;> simp [h]

theorem tally_perm {L L' : List (ι × ℕ)} (h : L.Perm L') (j : ι) : tally up L j = tally up L' j :=
  ((h.filter _).map _).sum_eq

theorem le_tally {L : List (ι × ℕ)} {c : ℕ} (h : (i, c) ∈ L) (hij : Anc up i j) : c ≤ tally up L j := by
  classical
  rw [tally_perm (List.perm_cons_erase h), tally_cons, if_pos hij]
  exact Nat.le_add_right _ _

theorem tally_congr {L : List (ι × ℕ)} (h : ∀ e ∈ L, e.2 ≠ 0 → (Anc up e.1 j ↔ Anc up' e.1 k)) :
    tally up L j = tally up' L k := by
  classical
  induction L with
  | nil => rfl
  | cons e L ih =>
    rw [tally_cons, tally_cons, ih (fun e' he' => h e' (List.mem_cons_of_mem _ he'))]
    congr 1
    by_cases he : e.2 = 0
    · simp [he]
    · simp only [h e List.mem_cons_self he]

/-- **Growing a node nothing is booked on changes no tally.** -/
theorem Grown.tally_eq (h : Grown up up' k par) (hr : Rooted up) {L : List (ι × ℕ)} (hk : ∀ e ∈ L, e.1 ≠ k) (j : ι) :
    tally up' L j = tally up L j :=
  tally_congr fun e he _ => h.anc_iff hr (hk e he)

theorem Grown.tally_here (h : Grown up up' k par) (hr : Rooted up) {L : List (ι × ℕ)} (hk : ∀ e ∈ L, e.1 ≠ k) :
    tally up' L k = 0 := by
  unfold tally
  rw [List.filter_eq_nil_iff.2, List.map_nil, List.sum_nil]
  intro e he
  simp only [decide_eq_true_eq]
  exact fun hek => hk e he (anc_leaf (h.not_edge' hr) hek)

/-- **Pruning a node with an empty tally changes no other tally.** -/
theorem Pruned.tally_eq (h : Pruned up up' k) {L : List (ι × ℕ)} (hk : tally up L k = 0) (j : ι) :
    tally up' L j = tally up L j := by
  refine tally_congr fun e he hne => h.anc_iff ?_
  rintro rfl
  have hle : e.2 ≤ tally up L e.1 := le_tally he .refl
  omega

end Tally

/-! ## A node covers its children -/

section Cover

variable [DecidableEq ι] {dom dom' : Finset ι} {u u' : ι → ℕ} {c : ℕ}

def kids (dom : Finset ι) (up : Pointers ι) (p : ι) : Finset ι := dom.filter (fun i => up i = some (some p))

theorem mem_kids : i ∈ kids dom up p ↔ i ∈ dom ∧ Edge up i p := by
  simp [kids, Edge]

/-- Every node counts at least what its children count together. -/
def Covers (dom : Finset ι) (up : Pointers ι) (u : ι → ℕ) : Prop :=
  ∀ p ∈ dom, ∑ i ∈ kids dom up p, u i ≤ u p

/-- The children of `p` on the chain of `t`: one if `p` is a strict ancestor of `t`, else none. -/
theorem kids_on_chain (hc : ChainTo up t l) (hl : ∀ i ∈ l, i ∈ dom) (p : ι) :
    (kids dom up p).filter (· ∈ l) = ∅ ∧ (p ∈ l → p = t) ∨
      p ∈ l ∧ p ≠ t ∧ ∃ k, (kids dom up p).filter (· ∈ l) = {k} := by
  by_cases h : ∃ k ∈ l, Edge up k p
  · obtain ⟨k, hk, hkp⟩ := h
    have hka := (hc.mem_iff k).1 hk
    refine .inr ⟨(hc.mem_iff p).2 (hka.tail hkp), ?_, k, ?_⟩
    · rintro rfl
      exact hc.acyclic (TransGen.tail' hka hkp)
    · ext i
      simp only [Finset.mem_filter, mem_kids, Finset.mem_singleton]
      constructor
      · rintro ⟨⟨-, hip⟩, hi⟩
        exact hc.child_unique hi hk hip hkp
      · rintro rfl
        exact ⟨⟨hl i hk, hkp⟩, hk⟩
  · refine .inl ⟨?_, fun hp => ?_⟩
    · rw [Finset.filter_eq_empty_iff]
      exact fun i hi hil => h ⟨i, hil, (mem_kids.1 hi).2⟩
    · by_contra hne
      cases ReflTransGen.cases_tail ((hc.mem_iff p).1 hp) with
      | inl he => exact hne he
      | inr hk =>
        obtain ⟨k, htk, hkp⟩ := hk
        exact h ⟨k, (hc.mem_iff k).2 htk, hkp⟩

theorem Covers.le_of_chain (h : Covers dom up u) (hc : ChainTo up t l) (hl : ∀ i ∈ l, i ∈ dom) (hj : j ∈ l) :
    u t ≤ u j := by
  have hanc := (hc.mem_iff j).1 hj
  induction hanc with
  | refl => exact le_rfl
  | @tail a b hta hab ih =>
    have ha : a ∈ l := (hc.mem_iff a).2 hta
    calc u t ≤ u a := ih ha
      _ ≤ ∑ i ∈ kids dom up b, u i :=
        Finset.single_le_sum (f := u) (fun _ _ => Nat.zero_le _) (mem_kids.2 ⟨hl a ha, hab⟩)
      _ ≤ u b := h b (hl b hj)

/-- What the children of `p` that are off the list `l` count together. -/
def others (dom : Finset ι) (up : Pointers ι) (u : ι → ℕ) (l : List ι) (p : ι) : ℕ :=
  ∑ i ∈ (kids dom up p).filter (· ∉ l), u i

/-- The children of `p`: those off the chain of `t`, and at most one on it. -/
theorem sum_kids_split (hc : ChainTo up t l) (hl : ∀ i ∈ l, i ∈ dom) (p : ι) :
    (p ∈ l → p = t) ∧ (∀ f : ι → ℕ, ∑ i ∈ kids dom up p, f i = others dom up f l p) ∨
      p ∈ l ∧ ∃ k ∈ l, ∀ f : ι → ℕ, ∑ i ∈ kids dom up p, f i = f k + others dom up f l p := by
  have hsplit : ∀ f : ι → ℕ, ∑ i ∈ (kids dom up p).filter (· ∈ l), f i + others dom up f l p =
      ∑ i ∈ kids dom up p, f i := Finset.sum_filter_add_sum_filter_not (kids dom up p) (· ∈ l)
  rcases kids_on_chain hc hl p with ⟨h, hp⟩ | ⟨hp, -, k, h⟩
  · refine .inl ⟨hp, fun f => ?_⟩
    rw [← hsplit, h, Finset.sum_empty, Nat.zero_add]
  · have hk : k ∈ (kids dom up p).filter (· ∈ l) := by rw [h]; exact Finset.mem_singleton_self k
    refine .inr ⟨hp, k, (Finset.mem_filter.1 hk).2, fun f => ?_⟩
    rw [← hsplit, h, Finset.sum_singleton]

theorem others_congr {g : ι → ℕ} (hu : ∀ i ∈ dom, u' i = if i ∈ l then g i else u i) (p : ι) :
    others dom up u' l p = others dom up u l p := by
  refine Finset.sum_congr rfl fun i hi => ?_
  obtain ⟨hi, hil⟩ := Finset.mem_filter.1 hi
  rw [hu i (mem_kids.1 hi).1, if_neg hil]

/-- **Adding one amount along a chain keeps every node covering its children.** -/
theorem Covers.add_chain (h : Covers dom up u) (hc : ChainTo up t l) (hl : ∀ i ∈ l, i ∈ dom)
    (hu : ∀ i ∈ dom, u' i = if i ∈ l then u i + c else u i) : Covers dom up u' := by
  have hon : ∀ i ∈ l, u' i = u i + c := fun i hi => by rw [hu i (hl i hi), if_pos hi]
  intro p hp
  have hcov := h p hp
  have hge : u p ≤ u' p := by
    rw [hu p hp]
    split <;> omega
  rcases sum_kids_split hc hl p with ⟨-, hs⟩ | ⟨hpl, k, hk, hs⟩ <;> rw [hs] at hcov ⊢ <;> rw [others_congr hu]
  · omega
  · rw [hon k hk, hon p hpl]
    omega

/-- **Taking an amount from a chain, down to zero at each node, keeps every node covering its children exactly when it
takes from no node what the children off the chain count on.** -/
theorem Covers.sub_chain_iff (h : Covers dom up u) (hc : ChainTo up t l) (hl : ∀ i ∈ l, i ∈ dom)
    (hu : ∀ i ∈ dom, u' i = if i ∈ l then u i - c else u i) :
    Covers dom up u' ↔ ∀ p ∈ l, others dom up u l p = 0 ∨ c + others dom up u l p ≤ u p := by
  have hoff : ∀ p, others dom up u' l p = others dom up u l p := others_congr hu
  have hon : ∀ i ∈ l, u' i = u i - c := fun i hi => by rw [hu i (hl i hi), if_pos hi]
  constructor
  · intro h' p hp
    have h'p := h' p (hl p hp)
    rw [hon p hp] at h'p
    rcases sum_kids_split hc hl p with ⟨-, hs⟩ | ⟨-, k, -, hs⟩ <;> rw [hs, hoff] at h'p <;> omega
  · intro hcond p hp
    have hcov := h p hp
    by_cases hpl : p ∈ l
    · have := hcond p hpl
      rw [hon p hpl]
      rcases sum_kids_split hc hl p with ⟨-, hs⟩ | ⟨-, k, hk, hs⟩ <;> rw [hs] at hcov ⊢ <;> rw [hoff]
      · omega
      · rw [hon k hk]
        omega
    · rw [hu p hp, if_neg hpl]
      rcases sum_kids_split hc hl p with ⟨-, hs⟩ | ⟨hpl', -⟩
      · rw [hs] at hcov ⊢
        rwa [hoff]
      · exact absurd hpl' hpl

/-- Taking what the first node of a chain holds beyond its children takes from no node what the others count on. -/
theorem Covers.own_share (h : Covers dom up u) (hc : ChainTo up t l) (hl : ∀ i ∈ l, i ∈ dom)
    (hown : c + ∑ i ∈ kids dom up t, u i ≤ u t) : ∀ p ∈ l, c + others dom up u l p ≤ u p := by
  intro p hp
  have hcov := h p (hl p hp)
  rcases sum_kids_split hc hl p with ⟨hpt, hs⟩ | ⟨-, k, hk, hs⟩
  · rw [← hs, hpt hp]
    exact hown
  · have := h.le_of_chain hc hl hk
    rw [hs] at hcov
    omega

theorem Grown.covers (h : Grown up up' k par) (hr : Rooted up) (hc : Covers dom up u)
    (hdom : ∀ i, i ∈ dom ↔ (up i).isSome) (hdom' : ∀ i, i ∈ dom' ↔ (up' i).isSome) (hk : u' k = 0)
    (hu : ∀ i ∈ dom, u' i = u i) : Covers dom' up' u' := by
  have hins : dom' = insert k dom := by
    ext i
    rw [Finset.mem_insert, hdom', hdom]
    by_cases hik : i = k
    · subst hik
      simp [h.here]
    · simp [hik, h.other i hik]
  have hkd : k ∉ dom := by simp [hdom, h.fresh]
  intro p hp
  -- the new node has no child, and adds nothing to its parent's children
  have hsum : ∑ i ∈ kids dom' up' p, u' i = ∑ i ∈ kids dom up p, u i := by
    unfold kids
    rw [hins, Finset.filter_insert]
    have hrest : ∑ i ∈ dom.filter (fun i => up' i = some (some p)), u' i =
        ∑ i ∈ dom.filter (fun i => up i = some (some p)), u i := by
      rw [Finset.filter_congr (q := fun i => up i = some (some p))
        (fun i hi => by rw [h.other i (fun hik => hkd (hik ▸ hi))])]
      exact Finset.sum_congr rfl (fun i hi => hu i (Finset.mem_filter.1 hi).1)
    split
    · rw [Finset.sum_insert (fun hmem => hkd (Finset.mem_filter.1 hmem).1), hk, hrest, Nat.zero_add]
    · exact hrest
  rw [hsum]
  by_cases hpk : p = k
  · subst hpk
    rw [Finset.sum_eq_zero (fun i hi => absurd (mem_kids.1 hi).2 (h.not_edge hr i))]
    exact Nat.zero_le _
  · have hpd : p ∈ dom := by
      rw [hins, Finset.mem_insert] at hp
      exact hp.resolve_left hpk
    rw [hu p hpd]
    exact hc p hpd

theorem Pruned.covers (h : Pruned up up' k) (hc : Covers dom up u)
    (hdom : ∀ i, i ∈ dom ↔ (up i).isSome) (hdom' : ∀ i, i ∈ dom' ↔ (up' i).isSome)
    (hu : ∀ i ∈ dom', u' i = u i) : Covers dom' up' u' := by
  have hsub : ∀ i ∈ dom', i ≠ k ∧ i ∈ dom := by
    intro i hi
    have hik : i ≠ k := by
      rintro rfl
      rw [hdom', h.here] at hi
      cases hi
    rw [hdom', h.other i hik] at hi
    exact ⟨hik, (hdom i).2 hi⟩
  intro p hp
  have hsum : ∑ i ∈ kids dom' up' p, u' i ≤ ∑ i ∈ kids dom up p, u i := by
    rw [Finset.sum_congr rfl (fun i hi => hu i (mem_kids.1 hi).1)]
    refine Finset.sum_le_sum_of_subset fun i hi => ?_
    obtain ⟨hid, hip⟩ := mem_kids.1 hi
    exact mem_kids.2 ⟨(hsub i hid).2, by unfold Edge at hip ⊢; rwa [← h.other i (hsub i hid).1]⟩
  rw [hu p hp]
  exact hsum.trans (hc p (hsub p hp).2)

end Cover

/-! ## Subtrees, leaf by leaf -/

/-- `l` lists the subtree of `r`, each node after all its children. -/
structure TakesApart (up : Pointers ι) (r : ι) (l : List ι) : Prop where
  mem : ∀ x, x ∈ l ↔ Anc up x r
  nodup : l.Nodup
  leaf : ∀ pre x post, l = pre ++ x :: post → ∀ k, Edge up k x → k ∈ pre

theorem anc_iff_child (x r : ι) : Anc up x r ↔ x = r ∨ ∃ k, Edge up k r ∧ Anc up x k := by
  constructor
  · intro h
    cases ReflTransGen.cases_tail h with
    | inl h => exact .inl h.symm
    | inr h =>
      obtain ⟨k, hxk, hkr⟩ := h
      exact .inr ⟨k, hkr, hxk⟩
  · rintro (rfl | ⟨k, hkr, hxk⟩)
    · exact .refl
    · exact hxk.tail hkr

/-- The subtrees of two children of one node are disjoint. -/
theorem Rooted.siblings_disjoint (hr : Rooted up) {r x : ι} (hi : Edge up i r) (hj : Edge up j r) (hxi : Anc up x i)
    (hxj : Anc up x j) : i = j := by
  have hx : ∃ l, ChainTo up x l := by
    cases ReflTransGen.cases_head hxi with
    | inl h => subst h; exact hr x (by rw [hi]; rfl)
    | inr h =>
      obtain ⟨p, hp, -⟩ := h
      exact hr x (by rw [hp]; rfl)
  obtain ⟨l, hl⟩ := hx
  exact hl.child_unique ((hl.mem_iff i).2 hxi) ((hl.mem_iff j).2 hxj) hi hj

section Flatten

variable {ks : List ι} {ls : List (List ι)}

theorem mem_flatten_of_forall₂ (h : List.Forall₂ (TakesApart up) ks ls) (x : ι) :
    x ∈ ls.flatten ↔ ∃ k ∈ ks, Anc up x k := by
  induction h with
  | nil => simp
  | cons hk _ ih => simp [hk.mem, ih]

theorem nodup_flatten_of_forall₂ (h : List.Forall₂ (TakesApart up) ks ls) (hnd : ks.Nodup)
    (hdis : ∀ i ∈ ks, ∀ j ∈ ks, ∀ x, Anc up x i → Anc up x j → i = j) : ls.flatten.Nodup := by
  induction h with
  | nil => simp
  | @cons k l ks ls hk hrest ih =>
    rw [List.flatten_cons, List.nodup_append]
    rw [List.nodup_cons] at hnd
    refine ⟨hk.nodup, ih hnd.2 (fun i hi j hj => hdis i (by simp [hi]) j (by simp [hj])), ?_⟩
    rintro x hx _ hx' rfl
    obtain ⟨k', hk', hxk'⟩ := (mem_flatten_of_forall₂ hrest x).1 hx'
    exact hnd.1 (hdis k (by simp) k' (by simp [hk']) x ((hk.mem x).1 hx) hxk' ▸ hk')

theorem leaf_flatten_of_forall₂ (h : List.Forall₂ (TakesApart up) ks ls) :
    ∀ pre x post, ls.flatten = pre ++ x :: post → ∀ k, Edge up k x → k ∈ pre := by
  induction h with
  | nil => simp
  | @cons _ l _ ls hk _ ih =>
    intro pre x post hs c hc
    rw [List.flatten_cons, List.append_eq_append_iff] at hs
    rcases hs with ⟨pre', hpre, hrest⟩ | ⟨post', hl, hrest⟩
    · rw [hpre]
      exact List.mem_append_right _ (ih pre' x post hrest c hc)
    · cases post' with
      | nil => exact absurd (ih [] x post hrest.symm c hc) (by simp)
      | cons y post' =>
        obtain ⟨rfl, -⟩ := List.cons.inj hrest
        exact hk.leaf pre x post' hl c hc

end Flatten

/-- **Taking a node's children apart one after another, then the node, takes its subtree apart.** -/
theorem TakesApart.node (hr : Rooted up) {r : ι} {ks : List ι} {ls : List (List ι)}
    (hks : ∀ k, k ∈ ks ↔ Edge up k r) (hnd : ks.Nodup) (h : List.Forall₂ (TakesApart up) ks ls) :
    TakesApart up r (ls.flatten ++ [r]) where
  mem x := by
    rw [anc_iff_child, List.mem_append, List.mem_singleton, mem_flatten_of_forall₂ h, or_comm]
    simp only [hks]
  nodup := by
    rw [List.nodup_append]
    refine ⟨nodup_flatten_of_forall₂ h hnd ?_, by simp, ?_⟩
    · intro i hi j hj x
      exact hr.siblings_disjoint ((hks i).1 hi) ((hks j).1 hj)
    · rintro x hx y hy rfl
      rw [List.mem_singleton] at hy
      subst hy
      obtain ⟨k, hk, hxk⟩ := (mem_flatten_of_forall₂ h x).1 hx
      exact hr.acyclic x (TransGen.tail' hxk ((hks k).1 hk))
  leaf := by
    intro pre x post hs c hc
    rcases List.eq_nil_or_concat post with rfl | ⟨post', y, rfl⟩
    · obtain ⟨rfl, hx⟩ := List.append_inj' hs rfl
      obtain rfl := List.singleton_inj.1 hx
      exact (mem_flatten_of_forall₂ h c).2 ⟨c, (hks c).2 hc, .refl⟩
    · rw [List.concat_eq_append, ← List.cons_append, ← List.append_assoc] at hs
      exact leaf_flatten_of_forall₂ h pre x post' (List.append_inj' hs rfl).1 c hc

/-- The subtree of a node has at most `n` levels. -/
def Shallow (up : Pointers ι) : ℕ → ι → Prop
  | 0, _     => False
  | n + 1, r => ∀ k, Edge up k r → Shallow up n k

/-- `l` lists the subtree of `r`, of at most `n` levels, in post-order: child after child, in some order, each with its
whole subtree, and then `r`. -/
def PostOrder (up : Pointers ι) : ℕ → ι → List ι → Prop
  | 0, _, _     => False
  | n + 1, r, l => ∃ ks ls, (∀ k, k ∈ ks ↔ Edge up k r) ∧ ks.Nodup ∧ List.Forall₂ (PostOrder up n) ks ls ∧
      l = ls.flatten ++ [r]

theorem PostOrder.takesApart (hr : Rooted up) {n : ℕ} {r : ι} (h : PostOrder up n r l) : TakesApart up r l := by
  induction n generalizing r l with
  | zero => exact h.elim
  | succ n ih =>
    obtain ⟨ks, ls, hks, hnd, hall, rfl⟩ := h
    exact .node hr hks hnd (hall.imp fun _ _ hk => ih hk)

/-- **A subtree of at most `n` levels reaches fewer than `n` levels below its root.** -/
theorem shallow_iff (n : ℕ) {r : ι} (hl : ChainTo up r l) :
    Shallow up n r ↔ ∀ x lx, Anc up x r → ChainTo up x lx → lx.length < l.length + n := by
  induction n generalizing r l with
  | zero =>
    simp only [Shallow, false_iff, not_forall]
    exact ⟨r, l, .refl, hl, by omega⟩
  | succ n ih =>
    constructor
    · intro h x lx hxr hx
      rcases (anc_iff_child x r).1 hxr with rfl | ⟨k, hkr, hxk⟩
      · rw [hx.unique hl]
        omega
      · have := (ih (.child hkr hl)).1 (h k hkr) x lx hxk hx
        rw [List.length_cons] at this
        omega
    · intro h k hkr
      refine (ih (.child hkr hl)).2 fun x lx hxk hx => ?_
      have := h x lx (hxk.tail hkr) hx
      rw [List.length_cons]
      omega

end Forest
