import Celium.StoreLedger
import Mathlib.Algebra.BigOperators.Group.Finset.Basic
/-!
# StoreShare — a release and the usage of the other subtenants

A release floors at zero at each level on its own, so one that takes more than its tenant holds lowers the ancestors by
more than the tenant gave back; the callers are the ones who match charges and releases.  `Isolates` says that a tenant's
usage is at least what its direct subtenants use together.  Where no charge is clipped it holds in every state of a run
iff no release takes, at any level, what the subtenants off its path use; a release within the tenant's own share never
does.
-/
namespace Celium

open Fixed Forest Runs

namespace StoreState

variable {s s' : StoreState} {d : Dim}

/-- What the direct subtenants use together. -/
def childrenUsage (d : Dim) (s : StoreState) (p : TenantId) : ℕ := ((s.children p).map (·.usage.amount d)).sum

/-- What the direct subtenants of a level use that are not on the path of the release. -/
def othersUsage (d : Dim) (s : StoreState) (path : List Tenant) (p : TenantId) : ℕ :=
  (((s.children p).filter (· ∉ path)).map (·.usage.amount d)).sum

/-- Every tenant's usage is at least what its direct subtenants use together. -/
def Isolates (d : Dim) (s : StoreState) : Prop :=
  ∀ i t, s.tenants.lookup i = some t → s.childrenUsage d ⟨i⟩ ≤ t.usage.amount d

/-- A release takes, at the tenant and at each ancestor, no more than is left beside the usage of the subtenants off its
path, if these use anything. -/
def LeavesOthers (d : Dim) (s : StoreState) : Op → Prop
  | .release tenant c => ∀ t ∈ s.levels tenant, s.othersUsage d (s.levels tenant) t.id = 0 ∨
      c.amount d + s.othersUsage d (s.levels tenant) t.id ≤ t.usage.amount d
  | _ => True

/-- A release takes no more than the tenant holds beyond its direct subtenants. -/
def OwnShare (d : Dim) (s : StoreState) : Op → Prop
  | .release tenant c => ∀ t, s.tenants.lookup tenant.raw = some t →
      c.amount d + s.childrenUsage d tenant ≤ t.usage.amount d
  | _ => True

/-! ## The store as a forest of counts -/

def ids (s : StoreState) : Finset TenantId := (s.tenants.keys.map TenantId.mk).toFinset

def usageAt (d : Dim) (s : StoreState) (i : TenantId) : ℕ := ((s.tenants.lookup i.raw).map (·.usage.amount d)).getD 0

theorem mem_ids (i : TenantId) : i ∈ s.ids ↔ (s.up i).isSome := by
  simp only [ids, List.mem_toFinset, List.mem_map, AList.mem_keys, up, Option.isSome_map, AList.lookup_isSome]
  constructor
  · rintro ⟨n, hn, rfl⟩
    exact hn
  · intro h
    exact ⟨i.raw, h, rfl⟩

theorem ids_congr (h : s'.up = s.up) : s'.ids = s.ids := by
  ext i
  rw [mem_ids, mem_ids, h]

theorem usageAt_of_lookup {i : TenantId} {t : Tenant} (h : s.tenants.lookup i.raw = some t) :
    s.usageAt d i = t.usage.amount d := by
  simp [usageAt, h]

/-- A sum over some of the direct subtenants, as a sum over their ids. -/
theorem sum_children (hwf : s.TreeWf) (p : TenantId) (q : Tenant → Bool) (Q : TenantId → Prop) [DecidablePred Q]
    (hq : ∀ i t, s.tenants.lookup i.raw = some t → (q t = true ↔ Q i)) :
    (((s.children p).filter q).map (·.usage.amount d)).sum = ∑ i ∈ (kids s.ids s.up p).filter Q, s.usageAt d i := by
  have hval : ∀ t ∈ s.values, s.tenants.lookup t.id.raw = some t := by
    intro t ht
    obtain ⟨i, hi⟩ := (Assoc.mem_values s.tenants t).1 ht
    rw [(hwf.ids i t hi).1]
    exact hi
  have hperm : ((s.children p).filter q).Perm ((s.values.filter (fun t => t.parent == some p)).filter q) :=
    ((List.perm_insertionSort _ s.values).filter _).filter q
  -- the same list of ids on both sides
  have hfin : (kids s.ids s.up p).filter Q =
      (((s.values.filter (fun t => t.parent == some p)).filter q).map (·.id)).toFinset := by
    ext i
    simp only [Finset.mem_filter, mem_kids, mem_ids, List.mem_toFinset, List.mem_map, List.mem_filter, beq_iff_eq]
    constructor
    · rintro ⟨⟨-, he⟩, hQ⟩
      obtain ⟨t, ht, hp⟩ := edge_iff.1 he
      exact ⟨t, ⟨⟨(Assoc.mem_values s.tenants t).2 ⟨i.raw, ht⟩, hp⟩, (hq i t ht).2 hQ⟩, (hwf.ids _ t ht).1⟩
    · rintro ⟨t, ⟨⟨ht, hp⟩, hqt⟩, rfl⟩
      have ht := hval t ht
      exact ⟨⟨up_isSome.2 ⟨t, ht⟩, edge_iff.2 ⟨t, ht, hp⟩⟩, (hq t.id t ht).1 hqt⟩
  have hnodup : (((s.values.filter (fun t => t.parent == some p)).filter q).map (·.id)).Nodup :=
    (nodup_kidsOf hwf (HashOrder.asStored Tenant)).sublist (List.filter_sublist.map _)
  rw [(hperm.map _).sum_eq, hfin, List.sum_toFinset _ hnodup, List.map_map]
  refine congrArg List.sum (List.map_congr_left fun t ht => ?_)
  exact (usageAt_of_lookup (hval t (List.mem_filter.1 (List.mem_filter.1 ht).1).1)).symm

theorem childrenUsage_eq (hwf : s.TreeWf) (p : TenantId) :
    s.childrenUsage d p = ∑ i ∈ kids s.ids s.up p, s.usageAt d i := by
  have h := sum_children (d := d) hwf p (fun _ => true) (fun _ => True) (by simp)
  simpa [childrenUsage] using h

theorem isolates_iff_covers (hwf : s.TreeWf) : s.Isolates d ↔ Covers s.ids s.up (s.usageAt d) := by
  constructor
  · intro h p hp
    obtain ⟨t, ht⟩ := up_isSome.1 ((mem_ids p).1 hp)
    rw [usageAt_of_lookup ht, ← childrenUsage_eq hwf]
    exact h p.raw t ht
  · intro h i t ht
    rw [childrenUsage_eq hwf, ← usageAt_of_lookup (i := ⟨i⟩) ht]
    exact h ⟨i⟩ ((mem_ids _).2 (up_isSome.2 ⟨t, ht⟩))

section Release

variable {tenant : TenantId} {chain : List TenantId} (hwf : s.TreeWf) (hchain : s.chainFrom tenant = .ok chain)
include hwf hchain

theorem othersUsage_eq (p : TenantId) :
    s.othersUsage d (s.levels tenant) p = others s.ids s.up (s.usageAt d) chain p := by
  refine (congrArg (fun l => (List.map _ l).sum) ?_).trans
    (sum_children hwf p (fun t => decide (t ∉ s.levels tenant)) (· ∉ chain) fun i t ht => ?_)
  · rfl
  · rw [decide_eq_true_eq, mem_levels hchain, not_iff_not]
    constructor
    · rintro ⟨j, hj, htj⟩
      have hij : i = j := TenantId.ext (by
        have h1 := (hwf.ids _ t ht).1
        rw [(hwf.ids _ t htj).1] at h1
        exact (congrArg TenantId.raw h1).symm)
      rwa [hij]
    · intro hi
      exact ⟨i, hi, ht⟩

/-- The condition on a release, read on the chain. -/
theorem leavesOthers_iff (c : QuotaCharge) : s.LeavesOthers d (.release tenant c) ↔
    ∀ p ∈ chain, others s.ids s.up (s.usageAt d) chain p = 0 ∨
      c.amount d + others s.ids s.up (s.usageAt d) chain p ≤ s.usageAt d p := by
  constructor
  · intro h p hp
    obtain ⟨t, ht⟩ := chain_live hchain p hp
    have := h t ((mem_levels hchain).2 ⟨p, hp, ht⟩)
    rwa [(hwf.ids _ t ht).1, othersUsage_eq hwf hchain, ← usageAt_of_lookup ht] at this
  · intro h t ht
    obtain ⟨p, hp, ht⟩ := (mem_levels hchain).1 ht
    rw [(hwf.ids _ t ht).1, othersUsage_eq hwf hchain, ← usageAt_of_lookup ht]
    exact h p hp

end Release

theorem chain_ids {tenant : TenantId} {chain : List TenantId} (hchain : s.chainFrom tenant = .ok chain) :
    ∀ i ∈ chain, i ∈ s.ids :=
  fun i hi => (mem_ids i).2 (up_isSome.2 (chain_live hchain i hi))

/-- A release within the tenant's own share leaves the others theirs. -/
theorem OwnShare.leavesOthers (hwf : s.TreeWf) (h : s.Isolates d) {op : Op} (hown : s.OwnShare d op) :
    s.LeavesOthers d op := by
  cases op with
  | release tenant c =>
    cases hchain : s.chainFrom tenant with
    | error e =>
      intro t ht
      simp [levels, hchain] at ht
    | ok chain =>
      obtain ⟨hc, -⟩ := chainFrom_ok_iff.1 hchain
      obtain ⟨t, ht⟩ := up_isSome.1 hc.live
      have hshare := hown t ht
      rw [childrenUsage_eq hwf, ← usageAt_of_lookup ht] at hshare
      exact (leavesOthers_iff hwf hchain c).2 fun p hp =>
        .inr (((isolates_iff_covers hwf).1 h).own_share hc (chain_ids hchain) hshare p hp)
  | _ => trivial

/-! ## What a call can do to the counts -/

theorem Recounts.usageAt {chain : List TenantId} {f : Tenant → QuotaUsage} {g : ℕ → ℕ} (hr : Recounts s chain f s')
    (hf : ∀ i t, s.tenants.lookup i = some t → ⟨i⟩ ∈ chain → (f t).amount d = g (t.usage.amount d)) (i : TenantId)
    (hi : i ∈ s.ids) : s'.usageAt d i = if i ∈ chain then g (s.usageAt d i) else s.usageAt d i := by
  obtain ⟨t, ht⟩ := up_isSome.1 ((mem_ids i).1 hi)
  have ht' := hr.lookup i.raw
  rw [ht, Option.map_some] at ht'
  rw [usageAt_of_lookup ht', usageAt_of_lookup ht]
  split
  · exact hf i.raw t ht ‹_›
  · rfl

theorem Retouches.usageAt {keep : Session → Bool} {id : TenantId} {t t' : Tenant} (hr : Retouches keep s id t t' s')
    (i : TenantId) : s'.usageAt d i = s.usageAt d i := by
  unfold StoreState.usageAt
  rw [hr.lookup]
  split
  · rename_i hi
    obtain rfl := TenantId.ext hi
    simp [hr.live, hr.same.2.2.2.2]
  · rfl

end StoreState

open StoreState

/-- Calls other than `charge` and `release` keep every tenant covering its subtenants. -/
theorem Effect.covers {cr : Crypto} {s s' : StoreState} {op : Op} {d : Dim} (hwf : s.TreeWf)
    (h : Covers s.ids s.up (s.usageAt d)) (he : Effect cr s op s') (hc : ∀ tenant c, op ≠ .charge tenant c)
    (hr : ∀ tenant c, op ≠ .release tenant c) : Covers s'.ids s'.up (s'.usageAt d) := by
  have hsame : ∀ s' : StoreState, s'.up = s.up → (∀ i, s'.usageAt d i = s.usageAt d i) →
      Covers s'.ids s'.up (s'.usageAt d) := by
    intro s' hup hu
    rw [ids_congr hup, hup, funext hu]
    exact h
  cases he with
  | same => exact h
  | bumped => exact h
  | @grown _ _ t _ hg =>
    refine (hg.grown hwf).covers hwf.rooted h (fun i => mem_ids i) (fun i => mem_ids i) ?_ fun i hi => ?_
    · rw [usageAt_of_lookup (t := t) (by rw [hg.lookup, hg.id]; simp), hg.usage, QuotaUsage.amount_default]
    · obtain ⟨u, hu⟩ := up_isSome.1 ((mem_ids i).1 hi)
      rw [usageAt_of_lookup (hg.keeps hwf hu), usageAt_of_lookup hu]
  | dropped hd =>
    refine hd.pruned.covers h (fun i => mem_ids i) (fun i => mem_ids i) fun i hi => ?_
    obtain ⟨u, hu⟩ := up_isSome.1 ((mem_ids i).1 hi)
    rw [usageAt_of_lookup hu, usageAt_of_lookup (hd.back hu).2]
  | userAdded hr => exact hsame _ hr.sameIndex.up_eq hr.usageAt
  | userRemoved hr => exact hsame _ hr.sameIndex.up_eq hr.usageAt
  | passwordSet hr => exact hsame _ hr.sameIndex.up_eq hr.usageAt
  | sessionMinted => exact h
  | sessionsRetained => exact h
  | rotated _ hr => exact hsame _ hr.sameIndex.up_eq hr.usageAt
  | charged => exact absurd rfl (hc _ _)
  | released => exact absurd rfl (hr _ _)
  | takenApart hp =>
    clear hsame
    induction hp with
    | refl => exact h
    | tail _ hlast ih =>
      obtain ⟨id, t, hd⟩ := hlast
      refine hd.pruned.covers ih (fun i => mem_ids i) (fun i => mem_ids i) fun i hi => ?_
      obtain ⟨u, hu⟩ := up_isSome.1 ((mem_ids i).1 hi)
      rw [usageAt_of_lookup hu, usageAt_of_lookup (hd.back hu).2]

/-- **One step without a clipped charge keeps the subtenants apart iff it takes nothing the others use.** -/
theorem step_isolates_iff (cr : Crypto) {s : StoreState} {d : Dim} (hwf : s.TreeWf) (h : s.Isolates d) {op : Op}
    (hclip : s.NoClip d op) : (step cr s op).2.Isolates d ↔ s.LeavesOthers d op := by
  have hcov := (isolates_iff_covers hwf).1 h
  cases op with
  | charge tenant c =>
    refine iff_of_true ?_ trivial
    rcases s.charge_cases tenant c with ⟨e, he, -⟩ | ⟨chain, u, s', he, hchain, hfits, hr, -⟩
    · simp only [step, answer_snd, he]
      exact h
    · simp only [step, answer_snd, he]
      have hup := hr.sameIndex.up_eq
      rw [isolates_iff_covers (hr.sameIndex.treeWf hwf), ids_congr hup, hup]
      refine hcov.add_chain (chainFrom_ok_iff.1 hchain).1 (chain_ids hchain)
        (hr.usageAt (g := (· + c.amount d)) fun i t ht hi => ?_)
      have := hclip hfits t ((mem_levels hchain).2 ⟨⟨i⟩, hi, ht⟩)
      rw [QuotaUsage.amount_plus]
      omega
  | release tenant c =>
    rcases s.release_cases tenant c with ⟨e, he, hchain⟩ | ⟨chain, u, s', he, hchain, hr, -⟩
    · simp only [step, answer_snd, he]
      refine iff_of_true h fun t ht => ?_
      simp [levels, hchain] at ht
    · simp only [step, answer_snd, he]
      have hup := hr.sameIndex.up_eq
      rw [isolates_iff_covers (hr.sameIndex.treeWf hwf), ids_congr hup, hup, leavesOthers_iff hwf hchain]
      exact hcov.sub_chain_iff (chainFrom_ok_iff.1 hchain).1 (chain_ids hchain)
        (hr.usageAt (g := (· - c.amount d)) fun i t _ _ => amount_releaseQuota _ _ _)
  | _ =>
    refine iff_of_true ((isolates_iff_covers (step_treeWf cr s _ hwf)).2 ?_) trivial
    exact (step_effect cr hwf _).covers hwf hcov (fun _ _ he => by cases he) (fun _ _ he => by cases he)

theorem isolates_default (d : Dim) : (default : StoreState).Isolates d := fun i t ht => by cases ht

/-- **In a run without clipped charges, a tenant's usage is at least what its direct subtenants use in every state iff
every release leaves the subtenants off its path what they use**; a run whose releases are all within the tenant's own
share is such a run. -/
theorem isolates_iff_leaves_others (cr : Crypto) (d : Dim) (ops : List Op)
    (hclip : Along (step cr) (NoClip d) default ops) :
    ((∀ s ∈ states (step cr) default ops, s.Isolates d) ↔ Along (step cr) (LeavesOthers d) default ops) ∧
    (Along (step cr) (OwnShare d) default ops → ∀ s ∈ states (step cr) default ops, s.Isolates d) := by
  refine ⟨states_iff_along_of (I := TreeWf) (P := Isolates d) (fun s op hwf _ => step_treeWf cr s op hwf)
    (fun s op hwf h hclip => step_isolates_iff cr hwf h hclip) treeWf_default (isolates_default d) hclip, fun hown => ?_⟩
  have hboth : Along (step cr) (fun s op => s.NoClip d op ∧ s.OwnShare d op) default ops := along_and hclip hown
  intro s hs
  refine (of_along (I := fun s => s.TreeWf ∧ s.Isolates d) (fun s op h hc => ?_) ⟨treeWf_default, isolates_default d⟩
    hboth s hs).2
  exact ⟨step_treeWf cr s op h.1, (step_isolates_iff cr h.1 h.2 hc.1).2 (hc.2.leavesOthers h.1 h.2)⟩

/-- Two subtenants of one tenant; one is charged. -/
def siblings : List Op :=
  [.create ⟨"acme", .unlimited, none⟩ .all, .create ⟨"dev", .unlimited, some ⟨1⟩⟩ .all,
    .create ⟨"ops", .unlimited, some ⟨1⟩⟩ .all, .charge ⟨3⟩ ⟨5, 0, 0, 0, 0⟩]

theorem isolates_siblings :
    Along (step .idle) (NoClip .vcpus) default (siblings ++ [.release ⟨3⟩ ⟨5, 0, 0, 0, 0⟩]) ∧
    ((∀ s ∈ states (step .idle) default (siblings ++ [.release ⟨3⟩ ⟨5, 0, 0, 0, 0⟩]), s.Isolates .vcpus) ↔
      Along (step .idle) (LeavesOthers .vcpus) default (siblings ++ [.release ⟨3⟩ ⟨5, 0, 0, 0, 0⟩])) := by
  have hclip : Along (step .idle) (NoClip .vcpus) default (siblings ++ [.release ⟨3⟩ ⟨5, 0, 0, 0, 0⟩]) :=
    ⟨trivial, trivial, trivial, fun _ => by decide, trivial, trivial⟩
  exact ⟨hclip, (isolates_iff_leaves_others .idle .vcpus _ hclip).1⟩

/-- A subtenant that holds nothing releases what its sibling holds: the parent's usage is gone, the sibling's is not. -/
theorem surplus_release_frees_sibling :
    ¬ ∀ s ∈ states (step .idle) default (siblings ++ [.release ⟨2⟩ ⟨5, 0, 0, 0, 0⟩]), s.Isolates .vcpus := by
  intro h
  have hlast := h _ (run_mem_states _ _)
  have hacme : ((run (step .idle) default (siblings ++ [.release ⟨2⟩ ⟨5, 0, 0, 0, 0⟩])).tenants.lookup 1).map
      (·.usage.amount .vcpus) = some 0 := by decide +kernel
  have hkids : (run (step .idle) default (siblings ++ [.release ⟨2⟩ ⟨5, 0, 0, 0, 0⟩])).childrenUsage .vcpus ⟨1⟩ = 5 := by
    decide +kernel
  obtain ⟨t, ht, hzero⟩ := Option.map_eq_some_iff.1 hacme
  have := hlast 1 t ht
  omega

end Celium
