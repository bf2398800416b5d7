import Celium.StoreReach
/-!
# StoreCharge — a charge is made at every level of a chain or at none

`charge` walks the chain of a tenant twice, to check and then to write.  The chain has no repeated tenant and no dead
link, so the second pass finds every record as the first one left it: it cannot fail, and it writes each usage once.
-/
namespace Celium

open Fixed Forest Runs StoreState

namespace StoreState

variable {s s' : StoreState} {tid : TenantId} {chain : List TenantId} {c : QuotaCharge}

/-- `chain_from` fails on a tenant that is not there or on a chain that is too long, in no other way. -/
theorem chainLoop_error {left : Nat} {cur : Option TenantId} {e : CelError} (h : s.chainLoop left cur = .error e) :
    e = .invalid "tenant id unknown" ∨ e = .internal "tenant hierarchy too deep" := by
  induction left generalizing cur with
  | zero =>
    cases cur with
    | none => cases h
    | some tid => exact .inr (Except.error.inj h).symm
  | succ left ih =>
    cases cur with
    | none => cases h
    | some tid =>
      unfold chainLoop at h
      split at h
      · exact .inl (Except.error.inj h).symm
      · split at h
        · rename_i e' hrest
          obtain rfl := Except.error.inj h
          exact ih hrest
        · cases h

/-- `charge_quota` accepts the charge at a level. -/
def Accepts (s : StoreState) (c : QuotaCharge) (i : TenantId) : Prop :=
  ∃ t u, s.tenants.lookup i.raw = some t ∧ chargeQuota t.usage t.quotas c = .ok u

theorem accepts_iff (i : TenantId) :
    s.Accepts c i ↔ ∃ t, s.tenants.lookup i.raw = some t ∧ Fits t.usage t.quotas c := by
  constructor
  · rintro ⟨t, u, ht, hu⟩
    exact ⟨t, ht, ((chargeQuota_ok_iff _ _ _ _).1 hu).1⟩
  · rintro ⟨t, ht, hfits⟩
    exact ⟨t, _, ht, (chargeQuota_ok_iff _ _ _ _).2 ⟨hfits, rfl⟩⟩

theorem chargeable_iff (hchain : s.chainFrom tid = .ok chain) :
    s.Chargeable tid c ↔ ∀ i ∈ chain, s.Accepts c i := by
  simp only [accepts_iff]
  constructor
  · rintro ⟨-, hfits⟩ i hi
    obtain ⟨t, ht⟩ := chain_live hchain i hi
    exact ⟨t, ht, hfits t ((mem_levels hchain).2 ⟨i, hi, ht⟩)⟩
  · intro hall
    constructor
    · have htid : tid ∈ chain := List.mem_of_mem_head? (chain_head hchain)
      obtain ⟨t, ht⟩ := chain_live hchain tid htid
      exact List.ne_nil_of_mem ((mem_levels hchain).2 ⟨tid, htid, ht⟩)
    · intro t ht
      obtain ⟨i, hi, ht⟩ := (mem_levels hchain).1 ht
      obtain ⟨t', ht', hfits⟩ := hall i hi
      rwa [Option.some.inj (ht.symm.trans ht')]

/-- The usages on a chain are replaced by what `charge_quota` answers there; every other record is as it was, and so is
everything else. -/
structure Charged (s : StoreState) (chain : List TenantId) (c : QuotaCharge) (s' : StoreState) : Prop where
  on_chain : ∀ i ∈ chain, ∃ t u, s.tenants.lookup i.raw = some t ∧ chargeQuota t.usage t.quotas c = .ok u ∧
    s'.tenants.lookup i.raw = some { t with usage := u }
  off_chain : ∀ i, i ∉ chain → s'.tenants.lookup i.raw = s.tenants.lookup i.raw
  nextTenantId : s'.nextTenantId = s.nextTenantId
  nextUserId : s'.nextUserId = s.nextUserId
  byName : s'.byName = s.byName
  sessions : s'.sessions = s.sessions

theorem Recounts.charged (h : Recounts s chain (fun t => t.usage.plus c) s') (hall : ∀ i ∈ chain, s.Accepts c i) :
    s.Charged chain c s' where
  on_chain i hi := by
    obtain ⟨t, u, ht, hu⟩ := hall i hi
    obtain rfl := ((chargeQuota_ok_iff _ _ _ _).1 hu).2
    refine ⟨t, _, ht, hu, ?_⟩
    rw [h.lookup, ht, Option.map_some, if_pos hi]
  off_chain i hi := by
    rw [h.lookup]
    cases s.tenants.lookup i.raw with
    | none => rfl
    | some t => rw [Option.map_some, if_neg hi]
  nextTenantId := h.nextTenantId
  nextUserId := h.nextUserId
  byName := h.byName
  sessions := h.sessions

/-! ## A charge that is not clipped can be taken back -/

/-- Every ceiling on the tenant's chain is below its integer maximum. -/
def Capped (s : StoreState) (tenant : TenantId) : Prop := ∀ t ∈ s.levels tenant, ∀ d, t.quotas.ceiling d < d.max

instance (s : StoreState) (tenant : TenantId) : Decidable (s.Capped tenant) :=
  inferInstanceAs (Decidable (∀ t ∈ s.levels tenant, ∀ d, t.quotas.ceiling d < d.max))

/-- A charge that fits below ceilings short of the maximum is not clipped. -/
theorem Capped.unclipped (h : s.Capped tid) (hfits : s.Chargeable tid c) {t : Tenant} (ht : t ∈ s.levels tid) (d : Dim) :
    t.usage.amount d + c.amount d ≤ d.max := by
  have hfit := hfits.2 t ht d
  have hcap := h t ht d
  omega

/-- The same store, but for the order of its records. -/
structure Agrees (s s' : StoreState) : Prop where
  lookup : ∀ i, s'.tenants.lookup i = s.tenants.lookup i
  nextTenantId : s'.nextTenantId = s.nextTenantId
  nextUserId : s'.nextUserId = s.nextUserId
  byName : s'.byName = s.byName
  sessions : s'.sessions = s.sessions

theorem Agrees.refl (s : StoreState) : s.Agrees s := ⟨fun _ => rfl, rfl, rfl, rfl, rfl⟩

theorem releaseQuota_plus {u : QuotaUsage} (h : ∀ d, u.amount d + c.amount d ≤ d.max) :
    releaseQuota (u.plus c) c = u := by
  refine QuotaUsage.ext_amount fun d => ?_
  have := h d
  rw [amount_releaseQuota, QuotaUsage.amount_plus]
  omega

/-- **A release takes back an unclipped charge**, at every level of the chain. -/
theorem release_after_charge {u : QuotaUsage} (hcap : s.Capped tid) (h : s.charge tid c = (.ok u, s')) :
    ∃ u' s'', s'.release tid c = (.ok u', s'') ∧ s.Agrees s'' := by
  rcases s.charge_cases tid c with ⟨e, he, -⟩ | ⟨chain, u₁, s₁, heq, hchain, hfits, hrec, -⟩
  · rw [he] at h
    cases h
  obtain ⟨-, rfl⟩ := Prod.mk.inj (heq.symm.trans h)
  have hchain' : s₁.chainFrom tid = .ok chain := by
    rw [chainFrom_ok_iff] at hchain ⊢
    rwa [hrec.sameIndex.up_eq]
  rcases s₁.release_cases tid c with ⟨e, -, he⟩ | ⟨chain', u', s'', hrel, hchain'', hrec', -⟩
  · rw [hchain'] at he
    cases he
  obtain rfl := Except.ok.inj (hchain'.symm.trans hchain'')
  refine ⟨u', s'', hrel, fun i => ?_, hrec'.nextTenantId.trans hrec.nextTenantId,
    hrec'.nextUserId.trans hrec.nextUserId, hrec'.byName.trans hrec.byName, hrec'.sessions.trans hrec.sessions⟩
  rw [hrec'.lookup, hrec.lookup, Option.map_map]
  cases ht : s.tenants.lookup i with
  | none => rfl
  | some t =>
    simp only [Option.map_some, Function.comp_apply]
    by_cases hi : (⟨i⟩ : TenantId) ∈ chain
    · have hback := releaseQuota_plus fun d => hcap.unclipped hfits ((mem_levels hchain).2 ⟨⟨i⟩, hi, ht⟩) d
      simp only [hi, if_true, hback]
    · simp only [hi, if_false]

end StoreState

/-- **A charge is all or nothing along the ancestor chain.**  In every store a run of calls leaves: the charge is made
exactly when the tenant is live, its chain has at most 65 levels and `charge_quota` accepts at each of them; then each
level of the chain, none of which comes twice, has the usage `charge_quota` answers, the tenant's own is returned, and
nothing else moves.  A refusal changes nothing, and is neither of the two errors of the second pass. -/
theorem charge_all_or_nothing (cr : Crypto) (ops : List Op) (tenant : TenantId) (c : QuotaCharge) :
    let s := run (step cr) default ops
    ((∃ u, (s.charge tenant c).1 = .ok u) ↔ (∃ t, s.tenants.lookup tenant.raw = some t) ∧
      ∃ chain, ChainTo s.up tenant chain ∧ chain.length ≤ 65 ∧ ∀ i ∈ chain, s.Accepts c i) ∧
    (∀ u, (s.charge tenant c).1 = .ok u → ∃ chain, ChainTo s.up tenant chain ∧ chain.Nodup ∧
      s.Charged chain c (s.charge tenant c).2 ∧
      ∃ t, (s.charge tenant c).2.tenants.lookup tenant.raw = some t ∧ t.usage = u) ∧
    (∀ e, (s.charge tenant c).1 = .error e → (s.charge tenant c).2 = s ∧
      e ≠ .internal "quota validation race" ∧ e ≠ .internal "tenant disappeared mid-charge") := by
  intro s
  rcases s.charge_cases tenant c with ⟨e, he, hno, hint⟩ | ⟨chain, u, s', he, hchain, hfits, hrec, hself⟩ <;> rw [he]
  · refine ⟨⟨?_, ?_⟩, ?_, ?_⟩
    · rintro ⟨u, hu⟩
      cases hu
    · rintro ⟨-, chain, hto, hlen, hall⟩
      have hchain : s.chainFrom tenant = .ok chain := chainFrom_ok_iff.2 ⟨hto, hlen⟩
      exact absurd ((chargeable_iff hchain).2 hall) hno
    · intro u hu
      cases hu
    · intro e' he'
      obtain rfl := Except.error.inj he'
      -- an `Internal` answer is `chain_from`'s, which has only one
      refine ⟨rfl, ?_, ?_⟩ <;>
      · rintro rfl
        rcases chainLoop_error (hint rfl) with h | h <;> revert h <;> decide
  · obtain ⟨hto, hlen⟩ := chainFrom_ok_iff.1 hchain
    have hall := (chargeable_iff hchain).1 hfits
    have htenant : tenant ∈ chain := hto.self_mem
    have hch := hrec.charged hall
    refine ⟨⟨fun _ => ⟨chain_live hchain tenant htenant, chain, hto, hlen, hall⟩, fun _ => ⟨u, rfl⟩⟩, ?_, ?_⟩
    · intro u' hu'
      obtain rfl := Except.ok.inj hu'
      obtain ⟨t, v, ht, hv, ht'⟩ := hch.on_chain tenant htenant
      refine ⟨chain, hto, hto.nodup, hch, _, ht', ?_⟩
      rw [hself t ht]
      exact ((chargeQuota_ok_iff _ _ _ _).1 hv).2
    · intro e he
      cases he

end Celium
