import Celium.StoreSpec
import Celium.Lib.Forest
/-!
# StoreTree — the hierarchy of a store

The parent field of the tenants as the pointers of a forest (`up`).  `chain_from` finds the chain of a tenant when it
has at most 65 levels and answers `Internal` past that (`chainFrom_ok_iff`, `chainLoop_deep`); `charge_cases` and
`release_cases` say what the two walks along a chain do to the usages on it.
-/
namespace Celium

open Fixed Forest

namespace StoreState

/-- The parent pointers of a store. -/
def up (s : StoreState) : Pointers TenantId := fun i => (s.tenants.lookup i.raw).map (·.parent)

variable {s s' : StoreState} {t : Tenant} {i p tid : TenantId} {chain l : List TenantId}

theorem up_eq_some {o : Option TenantId} : s.up i = some o ↔ ∃ t, s.tenants.lookup i.raw = some t ∧ t.parent = o := by
  simp [up, Option.map_eq_some_iff]

theorem up_isSome : (s.up i).isSome ↔ ∃ t, s.tenants.lookup i.raw = some t := by
  simp [up, Option.isSome_iff_exists]

theorem edge_iff : Edge s.up i p ↔ ∃ t, s.tenants.lookup i.raw = some t ∧ t.parent = some p := up_eq_some

/-! ## The chain of a tenant -/

theorem chainLoop_ok_iff (left : Nat) :
    s.chainLoop left (some tid) = .ok l ↔ ChainTo s.up tid l ∧ l.length ≤ left := by
  induction left generalizing tid l with
  | zero =>
    simp only [chainLoop, reduceCtorEq, Nat.le_zero_eq, List.length_eq_zero_iff, false_iff, not_and]
    rintro h rfl
    cases h
  | succ left ih =>
    unfold chainLoop
    cases ht : s.tenants.lookup tid.raw with
    | none =>
      simp only [reduceCtorEq, false_iff, not_and]
      intro h
      have := h.live
      simp [up, ht] at this
    | some t =>
      have hup : s.up tid = some t.parent := up_eq_some.2 ⟨t, ht, rfl⟩
      cases hp : t.parent with
      | none =>
        rw [hp] at hup
        simp only [hp, chainLoop, Except.ok.injEq]
        constructor
        · rintro rfl
          exact ⟨.root hup, by simp⟩
        · rintro ⟨h, -⟩
          exact (ChainTo.root hup).unique h
      | some p =>
        rw [hp] at hup
        simp only [hp]
        constructor
        · intro h
          split at h
          · cases h
          · rename_i rest hrest
            obtain ⟨hc, hlen⟩ := ih.1 hrest
            obtain rfl := Except.ok.inj h
            exact ⟨.child hup hc, by simpa using hlen⟩
        · rintro ⟨h, hlen⟩
          cases h with
          | root hr => rw [hup] at hr; cases hr
          | @child _ q rest hq hc =>
            rw [Edge.unique hq hup] at hc
            rw [ih.2 ⟨hc, by simpa using hlen⟩]

/-- **`chain_from` answers the chain of a tenant of at most 65 levels.** -/
theorem chainFrom_ok_iff : s.chainFrom tid = .ok l ↔ ChainTo s.up tid l ∧ l.length ≤ 65 := chainLoop_ok_iff 65

theorem chainLoop_deep (left : Nat) (h : ChainTo s.up tid l) (hlen : left < l.length) :
    s.chainLoop left (some tid) = .error (.internal "tenant hierarchy too deep") := by
  induction left generalizing tid l with
  | zero => rfl
  | succ left ih =>
    cases h with
    | root _ => simp at hlen
    | @child _ p rest hp hc =>
      obtain ⟨t, ht, hpar⟩ := edge_iff.1 hp
      unfold chainLoop
      simp only [ht, hpar]
      rw [ih hc (by simpa using hlen)]

/-! ## Writing a usage along a chain -/

theorem lookup_put (s : StoreState) (k : Nat) (t : Tenant) (j : Nat) :
    (s.put k t).tenants.lookup j = if j = k then some t else s.tenants.lookup j :=
  Assoc.lookup_insert_ite s.tenants k j t

/-- A usage loop over distinct live levels whose new usage is known writes it at every level. -/
theorem usageLoop_spec (gone : CelError) (new : Tenant → CelResult QuotaUsage) (f : Tenant → QuotaUsage)
    (chain : List TenantId) (k : Nat) (newSelf : QuotaUsage) (s : StoreState) (hnd : chain.Nodup)
    (h : ∀ i ∈ chain, ∃ t, s.tenants.lookup i.raw = some t ∧ new t = .ok (f t)) :
    ∃ u s', usageLoop gone new chain k newSelf s = (.ok u, s') ∧ Recounts s chain f s' ∧ (k ≠ 0 → u = newSelf) ∧
      (k = 0 → ∀ i ∈ chain.head?, ∀ t, s.tenants.lookup i.raw = some t → u = f t) := by
  induction chain generalizing k newSelf s with
  | nil => exact ⟨newSelf, s, rfl, ⟨by simp, rfl, rfl, rfl, rfl⟩, fun _ => rfl, by simp⟩
  | cons tid rest ih =>
    rw [List.nodup_cons] at hnd
    obtain ⟨t, ht, hnew⟩ := h tid (by simp)
    have hrest : ∀ i ∈ rest, ∃ t', (s.put tid.raw { t with usage := f t }).tenants.lookup i.raw = some t' ∧
        new t' = .ok (f t') := by
      intro i hi
      have hne : i.raw ≠ tid.raw := fun he => hnd.1 (TenantId.ext he ▸ hi)
      rw [lookup_put, if_neg hne]
      exact h i (by simp [hi])
    obtain ⟨u, s', hrun, hrec, hself, -⟩ := ih (k + 1) (if k = 0 then f t else newSelf) _ hnd.2 hrest
    refine ⟨u, s', ?_, ⟨fun j => ?_, hrec.nextTenantId, hrec.nextUserId, hrec.byName, hrec.sessions⟩, fun hk => ?_, ?_⟩
    · simp only [usageLoop, ht, hnew]
      exact hrun
    · rw [hrec.lookup, lookup_put]
      by_cases hj : j = tid.raw
      · subst hj
        simp [ht, hnd.1]
      · have hne : (⟨j⟩ : TenantId) ≠ tid := fun he => hj (by rw [← he])
        simp [hj, hne]
    · rw [hself (by omega), if_neg hk]
    · rintro rfl i hi t' ht'
      obtain rfl := Option.mem_some_iff.1 hi
      rw [ht] at ht'
      rw [hself (by omega), if_pos rfl, Option.some.inj ht']

/-- The records on the chain of a tenant, itself first; none where `chain_from` fails. -/
def levels (s : StoreState) (tenant : TenantId) : List Tenant :=
  match s.chainFrom tenant with
  | .error _ => []
  | .ok chain => chain.filterMap (fun i => s.tenants.lookup i.raw)

theorem mem_levels (h : s.chainFrom tid = .ok chain) : t ∈ s.levels tid ↔ ∃ i ∈ chain, s.tenants.lookup i.raw = some t := by
  simp [levels, h]

/-- `charge` accepts: the chain has at most 65 levels and the charge fits at each of them. -/
def Chargeable (s : StoreState) (tenant : TenantId) (c : QuotaCharge) : Prop :=
  s.levels tenant ≠ [] ∧ ∀ t ∈ s.levels tenant, Fits t.usage t.quotas c

theorem chargeCheck_cases (c : QuotaCharge) (chain : List TenantId)
    (hlive : ∀ i ∈ chain, ∃ t, s.tenants.lookup i.raw = some t) :
    (∃ e, s.chargeCheck c chain = .error e ∧ e.isInternal = false ∧
      ∃ i ∈ chain, ∃ t, s.tenants.lookup i.raw = some t ∧ ¬ Fits t.usage t.quotas c) ∨
    s.chargeCheck c chain = .ok () ∧
      ∀ i ∈ chain, ∃ t, s.tenants.lookup i.raw = some t ∧ Fits t.usage t.quotas c := by
  induction chain with
  | nil => exact .inr ⟨rfl, by simp⟩
  | cons tid rest ih =>
    obtain ⟨t, ht⟩ := hlive tid (by simp)
    simp only [chargeCheck, ht]
    cases hq : chargeQuota t.usage t.quotas c with
    | error e =>
      refine .inl ⟨e, rfl, chargeQuota_error hq, tid, by simp, t, ht, fun hfits => ?_⟩
      rw [(chargeQuota_ok_iff _ _ _ _).2 ⟨hfits, rfl⟩] at hq
      cases hq
    | ok u =>
      rcases ih (fun i hi => hlive i (by simp [hi])) with ⟨e, he, hint, i, hi, hno⟩ | ⟨hok, hall⟩
      · exact .inl ⟨e, he, hint, i, by simp [hi], hno⟩
      · refine .inr ⟨hok, fun i hi => ?_⟩
        rcases List.mem_cons.1 hi with rfl | hi
        · exact ⟨t, ht, ((chargeQuota_ok_iff _ _ _ _).1 hq).1⟩
        · exact hall i hi

/-- The mutation pass of a charge that fits at every level. -/
theorem chargeApply_spec {c : QuotaCharge} (hnd : chain.Nodup)
    (h : ∀ i ∈ chain, ∃ t, s.tenants.lookup i.raw = some t ∧ Fits t.usage t.quotas c) :
    ∃ u s', chargeApply c chain s = (.ok u, s') ∧ Recounts s chain (fun t => t.usage.plus c) s' ∧
      ∀ i ∈ chain.head?, ∀ t, s.tenants.lookup i.raw = some t → u = t.usage.plus c := by
  refine Exists.imp (fun u => Exists.imp fun s' h => ⟨h.1, h.2.1, h.2.2.2 rfl⟩)
    (usageLoop_spec _ _ (fun t => t.usage.plus c) chain 0 default s hnd fun i hi => ?_)
  obtain ⟨t, ht, hfits⟩ := h i hi
  exact ⟨t, ht, by rw [(chargeQuota_ok_iff _ _ _ _).2 ⟨hfits, rfl⟩]⟩

theorem chain_live (h : s.chainFrom tid = .ok chain) : ∀ i ∈ chain, ∃ t, s.tenants.lookup i.raw = some t :=
  fun _ hi => up_isSome.1 ((chainFrom_ok_iff.1 h).1.mem_live hi)

theorem chain_head (h : s.chainFrom tid = .ok chain) : chain.head? = some tid := by
  cases (chainFrom_ok_iff.1 h).1 <;> rfl

/-- **What `charge` does**: it refuses and changes nothing, or the charge fits at every level of the chain and is added
there. -/
theorem charge_cases (s : StoreState) (tenant : TenantId) (c : QuotaCharge) :
    (∃ e, s.charge tenant c = (.error e, s) ∧ ¬ s.Chargeable tenant c ∧
      (e.isInternal = true → s.chainFrom tenant = .error e)) ∨
    ∃ chain u s', s.charge tenant c = (.ok u, s') ∧ s.chainFrom tenant = .ok chain ∧ s.Chargeable tenant c ∧
      Recounts s chain (fun t => t.usage.plus c) s' ∧
      ∀ t, s.tenants.lookup tenant.raw = some t → u = t.usage.plus c := by
  unfold charge
  cases hc : s.chainFrom tenant with
  | error e => exact .inl ⟨e, rfl, fun h => h.1 (by simp [levels, hc]), fun _ => rfl⟩
  | ok chain =>
    rcases chargeCheck_cases c chain (chain_live hc) with ⟨e, he, hint, i, hi, t, ht, hno⟩ | ⟨hok, hall⟩
    · refine .inl ⟨e, by simp [he], fun h => hno (h.2 t ((mem_levels hc).2 ⟨i, hi, ht⟩)), fun h => ?_⟩
      rw [hint] at h
      cases h
    · obtain ⟨u, s', hrun, hrec, hself⟩ := chargeApply_spec (chainFrom_ok_iff.1 hc).1.nodup hall
      have hfits : s.Chargeable tenant c := by
        constructor
        · obtain ⟨t, ht⟩ := chain_live hc tenant (List.mem_of_mem_head? (chain_head hc))
          exact List.ne_nil_of_mem ((mem_levels hc).2 ⟨tenant, List.mem_of_mem_head? (chain_head hc), ht⟩)
        · intro t ht
          obtain ⟨i, hi, ht⟩ := (mem_levels hc).1 ht
          obtain ⟨t', ht', hf⟩ := hall i hi
          rwa [Option.some.inj (ht.symm.trans ht')]
      refine .inr ⟨chain, u, s', ?_, rfl, hfits, hrec, fun t ht => hself tenant (by rw [chain_head hc]; rfl) t ht⟩
      simp only [hok]
      exact hrun

/-- **What `release` does**: it fails with `chain_from` and changes nothing, or every level of the chain is reduced. -/
theorem release_cases (s : StoreState) (tenant : TenantId) (c : QuotaCharge) :
    (∃ e, s.release tenant c = (.error e, s) ∧ s.chainFrom tenant = .error e) ∨
    ∃ chain u s', s.release tenant c = (.ok u, s') ∧ s.chainFrom tenant = .ok chain ∧
      Recounts s chain (fun t => releaseQuota t.usage c) s' ∧
      ∀ t, s.tenants.lookup tenant.raw = some t → u = releaseQuota t.usage c := by
  unfold release
  cases hc : s.chainFrom tenant with
  | error e => exact .inl ⟨e, rfl, rfl⟩
  | ok chain =>
    have hnew : ∀ i ∈ chain, ∃ t, s.tenants.lookup i.raw = some t ∧
        (Except.ok (releaseQuota t.usage c) : CelResult QuotaUsage) = .ok (releaseQuota t.usage c) := by
      intro i hi
      obtain ⟨t, ht⟩ := chain_live hc i hi
      exact ⟨t, ht, rfl⟩
    obtain ⟨u, s', hrun, hrec, -, hself⟩ := usageLoop_spec (.internal "tenant disappeared mid-release") _
      (fun t => releaseQuota t.usage c) chain 0 default s (chainFrom_ok_iff.1 hc).1.nodup hnew
    exact .inr ⟨chain, u, s', hrun, rfl, hrec, fun t ht => hself rfl tenant (by rw [chain_head hc]; rfl) t ht⟩

end StoreState

end Celium
