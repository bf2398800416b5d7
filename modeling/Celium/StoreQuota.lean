import Celium.StoreReach
/-!
# StoreQuota — usage stays within the ceilings

`WithinQuota`: every tenant's usage is within its own quotas, and a subtenant's quotas within its parent's.  A charge
is clipped at the integer maximum before it is compared, so the clipped sum is what stays within the ceiling; a release
only lowers a usage; the quotas of a tenant never change after `create`.
-/
namespace Celium

open Fixed Forest Runs

namespace StoreState

variable {s s' : StoreState}

structure WithinQuota (s : StoreState) : Prop where
  usage : ∀ i t, s.tenants.lookup i = some t → ∀ d, t.usage.amount d ≤ t.quotas.ceiling d
  nested : ∀ i t p, s.tenants.lookup i = some t → t.parent = some p →
    ∃ pt, s.tenants.lookup p.raw = some pt ∧ ∀ d, t.quotas.ceiling d ≤ pt.quotas.ceiling d

/-- While parents and quotas stay, only the new usages are to be checked. -/
theorem WithinQuota.of_sameIndex (h : s.WithinQuota) (hs : SameIndex s s')
    (hu : ∀ i t', s'.tenants.lookup i = some t' → ∀ d, t'.usage.amount d ≤ t'.quotas.ceiling d) : s'.WithinQuota where
  usage := hu
  nested i t' p ht' hp := by
    obtain ⟨t, ht, hc⟩ := hs.lookup ht'
    simp only [Tenant.card, Prod.mk.injEq] at hc
    obtain ⟨pt, hpt, hle⟩ := h.nested i t p ht (by rw [hc.2.2.1, hp])
    obtain ⟨pt', hpt', hc'⟩ := hs.symm.lookup hpt
    simp only [Tenant.card, Prod.mk.injEq] at hc'
    refine ⟨pt', hpt', fun d => ?_⟩
    rw [hc'.2.2.2, ← hc.2.2.2]
    exact hle d

theorem Retouches.withinQuota {keep : Session → Bool} {id : TenantId} {t t' : Tenant} (hr : Retouches keep s id t t' s')
    (h : s.WithinQuota) : s'.WithinQuota := by
  refine h.of_sameIndex hr.sameIndex fun i u hu d => ?_
  rw [hr.lookup] at hu
  split at hu
  · obtain ⟨-, -, -, hq, hus⟩ := hr.same
    obtain rfl := Option.some.inj hu
    rw [hq, hus]
    exact h.usage id.raw t hr.live d
  · exact h.usage i u hu d

/-- A new usage within the ceilings at every level of the chain. -/
theorem Recounts.withinQuota {chain : List TenantId} {f : Tenant → QuotaUsage} (hr : Recounts s chain f s')
    (h : s.WithinQuota) (hf : ∀ i t, s.tenants.lookup i = some t → ⟨i⟩ ∈ chain → ∀ d,
      (f t).amount d ≤ t.quotas.ceiling d) : s'.WithinQuota := by
  refine h.of_sameIndex hr.sameIndex fun i t' ht' d => ?_
  rw [hr.lookup, Option.map_eq_some_iff] at ht'
  obtain ⟨t, ht, rfl⟩ := ht'
  split
  · exact hf i t ht ‹_› d
  · exact h.usage i t ht d

theorem Grows.withinQuota {t : Tenant} (hg : s.Grows t s') (hwf : s.TreeWf) (h : s.WithinQuota) : s'.WithinQuota where
  usage i u hu d := by
    rw [hg.lookup] at hu
    split at hu
    · obtain rfl := Option.some.inj hu
      simp [hg.usage]
    · exact h.usage i u hu d
  nested i u p hu hp := by
    rw [hg.lookup] at hu
    split at hu
    · obtain rfl := Option.some.inj hu
      obtain ⟨pt, hpt, -, hle⟩ := hg.parent p hp
      exact ⟨pt, hg.keeps hwf hpt, hle⟩
    · obtain ⟨pt, hpt, hle⟩ := h.nested i u p hu hp
      exact ⟨pt, hg.keeps hwf hpt, hle⟩

theorem Drops.withinQuota {keep : Session → Bool} {id : TenantId} {t : Tenant} (hd : Drops keep s id t s')
    (h : s.WithinQuota) : s'.WithinQuota where
  usage i u hu := h.usage i u (hd.back hu).2
  nested i u p hu hp := by
    obtain ⟨pt, hpt, hle⟩ := h.nested i u p (hd.back hu).2 hp
    exact ⟨pt, hd.keeps_parent (hd.back hu).2 hp hpt, hle⟩

end StoreState

open StoreState

theorem Effect.withinQuota {cr : Crypto} {s s' : StoreState} {op : Op} (hwf : s.TreeWf) (h : s.WithinQuota)
    (he : Effect cr s op s') : s'.WithinQuota := by
  cases he with
  | same => exact h
  | bumped => exact ⟨h.usage, h.nested⟩
  | grown hg => exact hg.withinQuota hwf h
  | dropped hd => exact hd.withinQuota h
  | userAdded hr => exact hr.withinQuota h
  | userRemoved hr => exact hr.withinQuota h
  | passwordSet hr => exact hr.withinQuota h
  | sessionMinted => exact ⟨h.usage, h.nested⟩
  | sessionsRetained => exact ⟨h.usage, h.nested⟩
  | rotated _ hr => exact hr.withinQuota h
  | @charged _ c _ _ hr hfits =>
    refine hr.withinQuota h fun i t ht hi d => ?_
    rw [QuotaUsage.amount_plus]
    exact hfits i t ht hi d
  | @released _ c _ _ hr =>
    refine hr.withinQuota h fun i t ht hi d => ?_
    rw [amount_releaseQuota]
    exact (Nat.sub_le _ _).trans (h.usage i t ht d)
  | takenApart hp =>
    induction hp with
    | refl => exact h
    | tail _ hlast ih =>
      obtain ⟨id, t, hd⟩ := hlast
      exact hd.withinQuota ih

/-- **In every reachable store, usage is within the quotas and a subtenant's quotas are within its parent's**, in each
of the five dimensions. -/
theorem usage_within_quotas (cr : Crypto) (ops : List Op) : (run (step cr) default ops).WithinQuota := by
  refine inv_of_effect cr ⟨?_, ?_⟩ (fun s s' op hwf h he => he.withinQuota hwf h) ops
  · intro i t ht
    cases ht
  · intro i t p ht
    cases ht

end Celium
