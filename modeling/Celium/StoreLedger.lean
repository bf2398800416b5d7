import Celium.StoreIndex
/-!
# StoreLedger — usage against the outstanding charges

The usage a tenant carries is meant to be what is charged and not yet released at it and below it.  `Books` is the store
with a ledger of exactly that: an accepted charge is entered, a release that went through strikes one entry.  In a run
whose releases are all of entries of the ledger, the usages equal the ledger in every state iff no accepted charge is
clipped at the integer maximum; with `TenantQuotas::unlimited` nothing else stops one that is.
-/
namespace Celium

open Fixed Forest Runs

namespace StoreState

variable {s s' : StoreState} {d : Dim} {L : List (TenantId × ℕ)}

/-- In dimension `d`, every usage is what `L` books at the tenant and below it. -/
def Tallied (d : Dim) (s : StoreState) (L : List (TenantId × ℕ)) : Prop :=
  ∀ i t, s.tenants.lookup i = some t → t.usage.amount d = tally s.up L ⟨i⟩

/-- An accepted charge leaves, at every level, a sum the integer type can hold. -/
def NoClip (d : Dim) (s : StoreState) : Op → Prop
  | .charge tenant c => s.Chargeable tenant c → ∀ t ∈ s.levels tenant, t.usage.amount d + c.amount d ≤ d.max
  | _ => True

theorem Retouches.tallied {keep : Session → Bool} {id : TenantId} {t t' : Tenant} (hr : Retouches keep s id t t' s')
    (h : s.Tallied d L) : s'.Tallied d L := by
  intro i u hu
  rw [hr.sameIndex.up_eq]
  rw [hr.lookup] at hu
  split at hu
  · rename_i hi
    obtain rfl := Option.some.inj hu
    rw [hr.same.2.2.2.2, hi]
    exact h id.raw t hr.live
  · exact h i u hu

theorem Grows.tallied {t : Tenant} (hg : s.Grows t s') (hwf : s.TreeWf) (hold : ∀ e ∈ L, e.1.raw ≤ s.nextTenantId)
    (h : s.Tallied d L) : s'.Tallied d L := by
  have hgrown := hg.grown hwf
  have hne : ∀ e ∈ L, e.1 ≠ t.id := by
    intro e he heq
    have := hold e he
    rw [heq, hg.id] at this
    exact absurd this (Nat.not_succ_le_self _)
  intro i u hu
  rw [hg.lookup] at hu
  split at hu
  · rename_i hi
    obtain rfl := Option.some.inj hu
    rw [hi, ← hg.id, hgrown.tally_here hwf.rooted hne, hg.usage, QuotaUsage.amount_default]
  · rw [hgrown.tally_eq hwf.rooted hne]
    exact h i u hu

theorem Drops.tallied {keep : Session → Bool} {id : TenantId} {t : Tenant} (hd : Drops keep s id t s')
    (h : s.Tallied d L) : s'.Tallied d L := by
  -- an unused tenant has nothing booked below it
  have hzero : tally s.up L id = 0 := by
    have := h id.raw t hd.live
    rw [hd.unused, QuotaUsage.amount_default] at this
    exact this.symm
  intro i u hu
  rw [hd.pruned.tally_eq hzero]
  exact h i u (hd.back hu).2

/-- An entry in the ledger's favour at every level of the chain. -/
theorem Recounts.tallied_iff {tenant : TenantId} {chain : List TenantId} {f : Tenant → QuotaUsage} {c : ℕ}
    (hr : Recounts s chain f s') (hchain : s.chainFrom tenant = .ok chain) (h : s.Tallied d L) :
    s'.Tallied d ((tenant, c) :: L) ↔ ∀ t ∈ s.levels tenant, (f t).amount d = t.usage.amount d + c := by
  have hanc : ∀ i, ⟨i⟩ ∈ chain ↔ Anc s.up tenant ⟨i⟩ := fun i => (chainFrom_ok_iff.1 hchain).1.mem_iff ⟨i⟩
  have htally : ∀ i, tally s'.up ((tenant, c) :: L) ⟨i⟩ = (if ⟨i⟩ ∈ chain then c else 0) + tally s.up L ⟨i⟩ := by
    intro i
    rw [hr.sameIndex.up_eq, tally_cons]
    by_cases hi : ⟨i⟩ ∈ chain
    · rw [if_pos hi, if_pos ((hanc i).1 hi)]
    · rw [if_neg hi, if_neg (fun ha => hi ((hanc i).2 ha))]
  constructor
  · intro h' t ht
    obtain ⟨i, hi, ht⟩ := (mem_levels hchain).1 ht
    have := h' i.raw { t with usage := f t } (by rw [hr.lookup, ht]; simp [hi])
    rw [htally, if_pos hi, ← h i.raw t ht] at this
    rw [this, Nat.add_comm]
  · intro hf i t' ht'
    rw [hr.lookup, Option.map_eq_some_iff] at ht'
    obtain ⟨t, ht, rfl⟩ := ht'
    rw [htally, ← h i t ht]
    split
    · rw [hf t ((mem_levels hchain).2 ⟨⟨i⟩, ‹_›, ht⟩), Nat.add_comm]
    · rw [Nat.zero_add]

/-- Striking an entry that is there, at every level of the chain. -/
theorem Recounts.tallied_erase {tenant : TenantId} {chain : List TenantId} {f : Tenant → QuotaUsage} {c : ℕ}
    (hr : Recounts s chain f s') (hchain : s.chainFrom tenant = .ok chain) (h : s.Tallied d ((tenant, c) :: L))
    (hf : ∀ t, (f t).amount d = t.usage.amount d - c) : s'.Tallied d L := by
  have hanc : ∀ i, ⟨i⟩ ∈ chain ↔ Anc s.up tenant ⟨i⟩ := fun i => (chainFrom_ok_iff.1 hchain).1.mem_iff ⟨i⟩
  intro i t' ht'
  rw [hr.lookup, Option.map_eq_some_iff] at ht'
  obtain ⟨t, ht, rfl⟩ := ht'
  have hold := h i t ht
  rw [tally_cons] at hold
  rw [hr.sameIndex.up_eq]
  split
  · rename_i hi
    rw [if_pos ((hanc i).1 hi)] at hold
    rw [hf, hold, Nat.add_sub_cancel_left]
  · rename_i hi
    rwa [if_neg (fun ha => hi ((hanc i).2 ha)), Nat.zero_add] at hold

end StoreState

open StoreState

/-- Calls other than `charge` and `release` leave the usages with the ledger. -/
theorem Effect.tallied {cr : Crypto} {s s' : StoreState} {op : Op} {d : Dim} {L : List (TenantId × ℕ)} (hwf : s.TreeWf)
    (hold : ∀ e ∈ L, e.1.raw ≤ s.nextTenantId) (h : s.Tallied d L) (he : Effect cr s op s')
    (hc : ∀ tenant c, op ≠ .charge tenant c) (hr : ∀ tenant c, op ≠ .release tenant c) : s'.Tallied d L := by
  cases he with
  | same => exact h
  | bumped => exact h
  | grown hg => exact hg.tallied hwf hold h
  | dropped hd => exact hd.tallied h
  | userAdded hr => exact hr.tallied h
  | userRemoved hr => exact hr.tallied h
  | passwordSet hr => exact hr.tallied h
  | sessionMinted => exact h
  | sessionsRetained => exact h
  | rotated _ hr => exact hr.tallied h
  | charged => exact absurd rfl (hc _ _)
  | released => exact absurd rfl (hr _ _)
  | takenApart hp =>
    clear hold
    induction hp with
    | refl => exact h
    | tail _ hlast ih =>
      obtain ⟨id, t, hd⟩ := hlast
      exact hd.tallied ih

/-! ## The books -/

/-- The store, and the charges that were accepted and not given back. -/
structure Books where
  store : StoreState
  ledger : List (TenantId × QuotaCharge)

namespace Books

/-- The ledger after a call: `charge` and `release` count when they went through. -/
def enter (ledger : List (TenantId × QuotaCharge)) : Op → CelResult Reply → List (TenantId × QuotaCharge)
  | .charge tenant c, .ok _  => (tenant, c) :: ledger
  | .release tenant c, .ok _ => ledger.erase (tenant, c)
  | _, _                     => ledger

/-- The store's own step, with the ledger kept beside it. -/
def step (cr : Crypto) (b : Books) (op : Op) : CelResult Reply × Books :=
  ((Celium.step cr b.store op).1, ⟨(Celium.step cr b.store op).2, enter b.ledger op (Celium.step cr b.store op).1⟩)

def init : Books := ⟨default, []⟩

/-- A release is of a charge that is outstanding. -/
def Matched (b : Books) : Op → Prop
  | .release tenant c => (tenant, c) ∈ b.ledger
  | _ => True

def NoClip (b : Books) (op : Op) : Prop := ∀ d, b.store.NoClip d op

/-- The amounts of the ledger in one dimension. -/
def booked (b : Books) (d : Dim) : List (TenantId × ℕ) := b.ledger.map (fun e => (e.1, e.2.amount d))

/-- In every dimension, every usage is the sum of what is outstanding at the tenant and below it. -/
def Exact (b : Books) : Prop := ∀ d, b.store.Tallied d (b.booked d)

structure Wf (b : Books) : Prop where
  tree : b.store.TreeWf
  old : ∀ e ∈ b.ledger, e.1.raw ≤ b.store.nextTenantId

variable {b : Books}

theorem Wf.booked_old (h : b.Wf) (d : Dim) : ∀ e ∈ b.booked d, e.1.raw ≤ b.store.nextTenantId := by
  intro e he
  obtain ⟨e', he', rfl⟩ := List.mem_map.1 he
  exact h.old e' he'

theorem Wf.step (cr : Crypto) (h : b.Wf) (op : Op) : (b.step cr op).2.Wf := by
  have heff := step_effect cr h.tree op
  refine ⟨heff.treeWf h.tree, fun e he => ?_⟩
  refine le_trans ?_ (heff.counters h.tree).1
  -- a new entry is of a live tenant
  cases op with
  | charge tenant c =>
    simp only [Books.step, Celium.step, answer] at he
    rcases b.store.charge_cases tenant c with ⟨err, hc, -⟩ | ⟨chain, u, s', hc, hchain, -⟩ <;> rw [hc] at he
    · exact h.old e he
    · rcases List.mem_cons.1 he with rfl | he
      · obtain ⟨t, ht⟩ := up_isSome.1 (chainFrom_ok_iff.1 hchain).1.live
        exact (h.tree.ids _ t ht).2
      · exact h.old e he
  | release tenant c =>
    simp only [Books.step, Celium.step, answer] at he
    rcases b.store.release_cases tenant c with ⟨err, hc, -⟩ | ⟨chain, u, s', hc, -⟩ <;> rw [hc] at he
    · exact h.old e he
    · exact h.old e (List.mem_of_mem_erase he)
  | _ => exact h.old e he

/-- **One step of a matched run keeps the books exact iff it is not a clipped charge.** -/
theorem step_exact_iff (cr : Crypto) (hwf : b.Wf) (h : b.Exact) {op : Op} (hm : b.Matched op) :
    (b.step cr op).2.Exact ↔ b.NoClip op := by
  cases op with
  | charge tenant c =>
    rcases b.store.charge_cases tenant c with ⟨err, hc, hno, -⟩ | ⟨chain, u, s', hc, hchain, hfits, hr, -⟩
    · simp only [Books.step, Celium.step, answer, hc]
      exact iff_of_true h (fun d hyes => absurd hyes hno)
    · simp only [Books.step, Celium.step, answer, hc]
      refine forall_congr' fun d => ?_
      have hiff := hr.tallied_iff (c := c.amount d) hchain (h d)
      refine Iff.trans hiff ⟨fun hall _ t ht => ?_, fun hnc t ht => ?_⟩
      · have := hall t ht
        rw [QuotaUsage.amount_plus] at this
        omega
      · have := hnc hfits t ht
        rw [QuotaUsage.amount_plus]
        omega
  | release tenant c =>
    refine iff_of_true ?_ (fun d => trivial)
    rcases b.store.release_cases tenant c with ⟨err, hc, -⟩ | ⟨chain, u, s', hc, hchain, hr, -⟩
    · simp only [Books.step, Celium.step, answer, hc]
      exact h
    · simp only [Books.step, Celium.step, answer, hc]
      intro d
      refine hr.tallied_erase (c := c.amount d) hchain ?_ (fun t => amount_releaseQuota _ _ _)
      -- the ledger is the struck entry and the rest
      intro i t ht
      rw [h d i t ht]
      exact tally_perm ((List.perm_cons_erase hm).map (fun e => (e.1, e.2.amount d))) _
  | _ =>
    refine iff_of_true (fun d => ?_) (fun d => trivial)
    exact (step_effect cr hwf.tree _).tallied hwf.tree (hwf.booked_old d) (h d) (fun _ _ he => by cases he)
      (fun _ _ he => by cases he)

theorem wf_init : init.Wf := ⟨treeWf_default, fun e he => by cases he⟩

theorem exact_init : init.Exact := fun d i t ht => by cases ht

end Books

/-- **In a run whose releases are all of outstanding charges, every usage equals the outstanding amounts of the tenant
and its descendants in every state iff no accepted charge is clipped at any level.** -/
theorem usage_exact_iff (cr : Crypto) (ops : List Op) (hm : Along (Books.step cr) Books.Matched Books.init ops) :
    (∀ b ∈ states (Books.step cr) Books.init ops, b.Exact) ↔ Along (Books.step cr) Books.NoClip Books.init ops :=
  states_iff_along_of (I := Books.Wf) (P := Books.Exact) (fun _ op hwf _ => hwf.step cr op)
    (fun _ _ hwf h hm => Books.step_exact_iff cr hwf h hm) Books.wf_init Books.exact_init hm

/-- A charge and its release. -/
def roundTrip : List Op :=
  [.create ⟨"acme", .unlimited, none⟩ .all, .charge ⟨1⟩ ⟨2, 512, 0, 0, 0⟩, .release ⟨1⟩ ⟨2, 512, 0, 0, 0⟩]

theorem usage_exact_roundTrip :
    Along (Books.step .idle) Books.Matched Books.init roundTrip ∧
    ((∀ b ∈ states (Books.step .idle) Books.init roundTrip, b.Exact) ↔
      Along (Books.step .idle) Books.NoClip Books.init roundTrip) := by
  have hm : Along (Books.step .idle) Books.Matched Books.init roundTrip :=
    ⟨trivial, trivial, by unfold Books.Matched; decide, trivial⟩
  exact ⟨hm, usage_exact_iff .idle roundTrip hm⟩

/-- An unlimited tenant takes two charges whose sum no `u32` holds. -/
def clipping : List Op :=
  [.create ⟨"acme", .unlimited, none⟩ .all, .charge ⟨1⟩ ⟨4294967295, 0, 0, 0, 0⟩, .charge ⟨1⟩ ⟨1, 0, 0, 0, 0⟩]

theorem clipping_loses_one : ¬ ∃ cr : Crypto, Along (Books.step cr) Books.Matched Books.init clipping →
    ∀ b ∈ states (Books.step cr) Books.init clipping, b.Exact := by
  rintro ⟨cr, h⟩
  have hlast := h ⟨trivial, trivial, trivial, trivial⟩ _ (run_mem_states _ _) .vcpus
  have hlive : ∃ t, (run (Books.step cr) Books.init clipping).store.tenants.lookup 1 = some t := ⟨_, rfl⟩
  obtain ⟨t, ht⟩ := hlive
  have husage := hlast 1 t ht
  have hbooked : (run (Books.step cr) Books.init clipping).booked .vcpus = [(⟨1⟩, 1), (⟨1⟩, 4294967295)] := rfl
  rw [hbooked, tally_cons, tally_cons, if_pos .refl, if_pos .refl] at husage
  have := t.usage.amount_le_max .vcpus
  simp only [Dim.max, u32Max] at this
  omega

end Celium
