import Celium.RuntimeQuota
import Celium.StoreCharge
import Mathlib.Tactic.Ring
/-!
# RuntimeAudit — the audit trail of a wrapper against the usage of its tenant

Every part of `handle` that moves the tenant's usage emits an event with the amount (`Records`), so the trail adds up to
the usage.  What it rests on is that no release is clipped at zero: the charge maps never hold more than is on the
tenant (`Covered`).  The inner host plays no part in it, so between two calls it may change in any way, and so may the
store, as long as it leaves the tenant's usage alone.
-/
namespace Celium

open Fixed Forest Runs StoreState

/-! ## What the trail says -/

/-- The charges of the events that `p` picks, together. -/
def posted (p : AuditEvent → Bool) (d : Dim) (evs : List AuditEvent) : ℤ :=
  ((evs.filter p).map (fun ev => ((ev.charge.getD default).amount d : ℤ))).sum

/-- The `Charge` events, less the `Release` events, less the `Deny` events noted as refunded. -/
def reconciled (d : Dim) (evs : List AuditEvent) : ℤ :=
  posted (fun ev => ev.action = .charge) d evs - posted (fun ev => ev.action = .release) d evs -
    posted (fun ev => ev.action = .deny ∧ ev.note = some "refunded") d evs

def denials (evs : List AuditEvent) : Nat := evs.countP (fun ev => ev.action = .deny)

theorem posted_append (p : AuditEvent → Bool) (d : Dim) (evs evs' : List AuditEvent) :
    posted p d (evs ++ evs') = posted p d evs + posted p d evs' := by
  simp [posted]

theorem reconciled_append (d : Dim) (evs evs' : List AuditEvent) :
    reconciled d (evs ++ evs') = reconciled d evs + reconciled d evs' := by
  simp only [reconciled, posted_append]
  ring

theorem denials_append (evs evs' : List AuditEvent) : denials (evs ++ evs') = denials evs + denials evs' :=
  List.countP_append

theorem reconciled_nil (d : Dim) : reconciled d [] = 0 := rfl

/-- One event, by its kind. -/
theorem reconciled_charge {ev : AuditEvent} {c : QuotaCharge} (ha : ev.action = .charge) (hc : ev.charge = some c)
    (d : Dim) : reconciled d [ev] = c.amount d := by
  simp [reconciled, posted, ha, hc]

theorem reconciled_release {ev : AuditEvent} {c : QuotaCharge} (ha : ev.action = .release) (hc : ev.charge = some c)
    (d : Dim) : reconciled d [ev] = - c.amount d := by
  simp [reconciled, posted, ha, hc]

theorem reconciled_refunded {ev : AuditEvent} {c : QuotaCharge} (ha : ev.action = .deny) (hc : ev.charge = some c)
    (hn : ev.note = some "refunded") (d : Dim) : reconciled d [ev] = - c.amount d := by
  simp [reconciled, posted, ha, hc, hn]

theorem reconciled_denied {ev : AuditEvent} (ha : ev.action = .deny) (hn : ev.note = none) (d : Dim) :
    reconciled d [ev] = 0 := by
  simp [reconciled, posted, ha, hn]

namespace TenantVmHost

variable {t t' t'' : TenantVmHost} {evs evs' : List AuditEvent}

/-- From `t` to `t'` the events `evs` are emitted, and they add up to what the usage has moved. -/
structure Records (t t' : TenantVmHost) (evs : List AuditEvent) : Prop where
  tenant : t'.tenant = t.tenant
  audit : t'.audit = t.audit.map (· ++ evs)
  moved : ∀ d, (t'.store.usageAt d t.tenant : ℤ) = t.store.usageAt d t.tenant + reconciled d evs

theorem Records.trans (h : t.Records t' evs) (h' : t'.Records t'' evs') : t.Records t'' (evs ++ evs') where
  tenant := h'.tenant.trans h.tenant
  audit := by
    rw [h'.audit, h.audit, Option.map_map]
    simp [Function.comp_def]
  moved d := by
    have := h'.moved d
    rw [h.tenant, h.moved] at this
    rw [this, reconciled_append]
    ring

/-- The tenant and the store as they were, and nothing emitted. -/
theorem Records.quiet (htenant : t'.tenant = t.tenant) (hstore : t'.store = t.store) (haudit : t'.audit = t.audit) :
    t.Records t' [] where
  tenant := htenant
  audit := by
    rw [haudit]
    cases t.audit <;> simp
  moved d := by simp [hstore, reconciled_nil]

/-! ## The charge maps -/

/-- What the charge maps hold together. -/
def booked (t : TenantVmHost) (d : Dim) : ℕ :=
  (t.vmCharges.entries.map (fun e => e.2.amount d)).sum + (t.volumeCharges.entries.map (fun e => e.2.amount d)).sum

/-- No more than is on the tenant. -/
def Covered (t : TenantVmHost) : Prop := ∀ d, t.booked d ≤ t.store.usageAt d t.tenant

theorem covered_fresh (h : t.Fresh) : t.Covered := by
  intro d
  simp [booked, h.1, h.2]

/-- **`reconcile`, when the inner host did not refuse**: a create's charge is entered, a delete's is taken out, or
nothing happens. -/
theorem reconcile_booked (t : TenantVmHost) (nowMs : UInt64) (op : VmOp) (reply : VmOpReply) :
    t.Records (t.reconcile nowMs op (.ok reply)).2 [] ∧
    (t.reconcile nowMs op (.ok reply)).2.store = t.store ∧
    ((t.reconcile nowMs op (.ok reply)).1 = none ∧ (∀ d, (t.reconcile nowMs op (.ok reply)).2.booked d ≤
        t.booked d + ((chargeFor op).getD default).amount d) ∨
      ∃ c, (t.reconcile nowMs op (.ok reply)).1 = some c ∧
        ∀ d, (t.reconcile nowMs op (.ok reply)).2.booked d + c.amount d = t.booked d) := by
  unfold reconcile
  split
  · rename_i heq
    cases heq
  · rename_i vmId heq
    refine ⟨.quiet rfl rfl rfl, rfl, .inl ⟨rfl, fun d => ?_⟩⟩
    have := Assoc.sum_insert_le (fun c : QuotaCharge => c.amount d) t.vmCharges vmId
    simp only [booked, chargeFor, Option.getD_some] at this ⊢
    grind
  · rename_i volume heq
    refine ⟨.quiet rfl rfl rfl, rfl, .inl ⟨rfl, fun d => ?_⟩⟩
    have := Assoc.sum_insert_le (fun c : QuotaCharge => c.amount d) t.volumeCharges volume.id
    simp only [booked, chargeFor, Option.getD_some] at this ⊢
    grind
  · rename_i vmId _ heq
    refine ⟨.quiet rfl rfl rfl, rfl, ?_⟩
    cases hc : t.vmCharges.lookup vmId with
    | none =>
      refine .inl ⟨rfl, fun d => ?_⟩
      have := Assoc.sum_erase_le (fun c : QuotaCharge => c.amount d) t.vmCharges vmId
      simp only [booked]
      omega
    | some c =>
      refine .inr ⟨c, rfl, fun d => ?_⟩
      have := Assoc.sum_erase (fun c : QuotaCharge => c.amount d) hc
      simp only [booked]
      omega
  · rename_i id _ heq
    refine ⟨.quiet rfl rfl rfl, rfl, ?_⟩
    cases hc : t.volumeCharges.lookup id with
    | none =>
      refine .inl ⟨rfl, fun d => ?_⟩
      have := Assoc.sum_erase_le (fun c : QuotaCharge => c.amount d) t.volumeCharges id
      simp only [booked]
      omega
    | some c =>
      refine .inr ⟨c, rfl, fun d => ?_⟩
      have := Assoc.sum_erase (fun c : QuotaCharge => c.amount d) hc
      simp only [booked]
      omega
  · exact ⟨.quiet rfl rfl rfl, rfl, .inl ⟨rfl, fun d => Nat.le_add_right _ _⟩⟩

/-! ## Part by part -/

/-- The tenant's own usage takes an unclipped charge whole. -/
theorem usageAt_unclipped (h : t.store.Capped t.tenant) {c : QuotaCharge} (hfits : t.store.Chargeable t.tenant c)
    (d : Dim) : t.store.usageAt d t.tenant + c.amount d ≤ d.max := by
  cases hc : t.store.chainFrom t.tenant with
  | error e => exact absurd (by simp [levels, hc]) hfits.1
  | ok chain =>
    have hmem : t.tenant ∈ chain := List.mem_of_mem_head? (chain_head hc)
    obtain ⟨r, hr⟩ := chain_live hc t.tenant hmem
    have hlevel : r ∈ t.store.levels t.tenant := (mem_levels hc).2 ⟨t.tenant, hmem, hr⟩
    rw [usageAt_of_lookup hr]
    exact h.unclipped hfits hlevel d

/-- **`bill`**: the call is denied and nothing has moved, or the planned charge is on the tenant. -/
theorem bill_records (t : TenantVmHost) (nowMs : UInt64) (op : VmOp) (hcap : t.store.Capped t.tenant) :
    (∀ d, (t.bill nowMs op).2.booked d = t.booked d) ∧
    ∃ evs, t.Records (t.bill nowMs op).2 evs ∧
    ((∃ e, (t.bill nowMs op).1 = .error e) ∧ denials evs = 1 ∧ (t.bill nowMs op).2.store = t.store ∨
      (t.bill nowMs op).1 = .ok () ∧ denials evs = 0 ∧
      (∀ d, (t.bill nowMs op).2.store.usageAt d t.tenant =
        t.store.usageAt d t.tenant + ((chargeFor op).getD default).amount d) ∧
      ((chargeFor op).getD default ≠ default → ∃ chain, (t.bill nowMs op).2.store.chainFrom t.tenant = .ok chain)) := by
  unfold bill
  cases hc : chargeFor op with
  | none => exact ⟨fun d => rfl, [], .quiet rfl rfl rfl, .inr ⟨rfl, rfl, fun d => by simp, fun h => absurd rfl h⟩⟩
  | some c =>
    simp only [Option.getD_some]
    split
    · rename_i hzero
      subst hzero
      exact ⟨fun d => rfl, [], .quiet rfl rfl rfl, .inr ⟨rfl, rfl, fun d => by simp, fun h => absurd rfl h⟩⟩
    · rcases charge_usageAt t.store t.tenant c with ⟨e, he, -⟩ | ⟨u, s', hs, hfits, ⟨chain, hchain⟩, hup, husage⟩
      · rw [he]
        exact ⟨fun d => rfl, _, ⟨rfl, rfl, fun d => (by rw [reconciled_denied rfl rfl]; simp [emit])⟩,
          .inl ⟨⟨_, rfl⟩, rfl, rfl⟩⟩
      · rw [hs]
        have hexact : ∀ d, s'.usageAt d t.tenant = t.store.usageAt d t.tenant + c.amount d :=
          fun d => (husage d).trans (Nat.min_eq_left (usageAt_unclipped hcap hfits d))
        refine ⟨fun d => rfl, _, ⟨rfl, rfl, fun d => ?_⟩, .inr ⟨rfl, rfl, hexact, fun _ => ⟨chain, ?_⟩⟩⟩
        · rw [reconciled_charge rfl rfl]
          exact_mod_cast hexact d
        · rw [chainFrom_ok_iff] at hchain ⊢
          change ChainTo s'.up t.tenant chain ∧ _
          rwa [hup]

/-- **`denied`**: one denial, and a planned charge is given back. -/
theorem denied_records (t : TenantVmHost) (nowMs : UInt64) (op : VmOp) (err : String)
    (hheld : ∀ d, ((chargeFor op).getD default).amount d ≤ t.store.usageAt d t.tenant)
    (hchain : (chargeFor op).getD default ≠ default → ∃ chain, t.store.chainFrom t.tenant = .ok chain) :
    (∀ d, (t.denied nowMs op err).booked d = t.booked d) ∧
    (∀ d, (t.denied nowMs op err).store.usageAt d t.tenant + ((chargeFor op).getD default).amount d =
      t.store.usageAt d t.tenant) ∧
    ∃ evs, t.Records (t.denied nowMs op err) evs ∧ denials evs = 1 := by
  unfold denied
  cases hc : chargeFor op with
  | none =>
    exact ⟨fun d => rfl, fun d => by simp [emit], _,
      ⟨rfl, rfl, fun d => (by rw [reconciled_denied rfl rfl]; simp [emit])⟩, rfl⟩
  | some c =>
    simp only [hc, Option.getD_some] at hheld hchain ⊢
    split
    · rename_i hzero
      subst hzero
      exact ⟨fun d => rfl, fun d => by simp [emit], _,
        ⟨rfl, rfl, fun d => (by rw [reconciled_denied rfl rfl]; simp [emit])⟩, rfl⟩
    · rename_i hne
      have hback : ∀ d, (t.store.release t.tenant c).2.usageAt d t.tenant + c.amount d =
          t.store.usageAt d t.tenant := by
        intro d
        have := hheld d
        rw [usageAt_release (hchain hne)]
        omega
      refine ⟨fun d => rfl, hback, _, ⟨rfl, rfl, fun d => ?_⟩, rfl⟩
      have := hback d
      rw [reconciled_refunded rfl rfl rfl]
      change ((t.store.release t.tenant c).2.usageAt d t.tenant : ℤ) = _
      omega

/-- **`refund`**: the charge is taken off and a release recorded, or neither. -/
theorem refund_records (t : TenantVmHost) (nowMs : UInt64) (op : VmOp) (c : QuotaCharge)
    (hheld : ∀ d, c.amount d ≤ t.store.usageAt d t.tenant) :
    (∀ d, (t.refund nowMs op c).booked d = t.booked d) ∧
    (∀ d, t.store.usageAt d t.tenant ≤ (t.refund nowMs op c).store.usageAt d t.tenant + c.amount d) ∧
    ∃ evs, t.Records (t.refund nowMs op c) evs ∧ denials evs = 0 := by
  unfold refund
  rcases release_cases t.store t.tenant c with ⟨e, he, -⟩ | ⟨chain, u, s', hs, hchain, hrec, -⟩
  · rw [he]
    exact ⟨fun d => rfl, fun d => Nat.le_add_right _ _, [], .quiet rfl rfl rfl, rfl⟩
  · rw [hs]
    have husage : ∀ d, s'.usageAt d t.tenant = t.store.usageAt d t.tenant - c.amount d :=
      hrec.usageAt_self (g := fun d n => n - c.amount d) hchain (fun r d => amount_releaseQuota r.usage c d)
    refine ⟨fun d => rfl, fun d => ?_, _, ⟨rfl, rfl, fun d => ?_⟩, rfl⟩
    · change _ ≤ s'.usageAt d t.tenant + c.amount d
      rw [husage d]
      omega
    · have := hheld d
      rw [reconciled_release rfl rfl]
      change (s'.usageAt d t.tenant : ℤ) = _
      rw [husage d]
      omega

/-- **One call**: its events add up to what it moves, the charge maps stay covered, and a refusal is denied once. -/
theorem handle_records (t : TenantVmHost) (nowMs : UInt64) (op : VmOp) (hcap : t.store.Capped t.tenant) (hcov : t.Covered) :
    ∃ evs, t.Records (t.handle nowMs op).2 evs ∧ (t.handle nowMs op).2.Covered ∧
      ∀ e, (t.handle nowMs op).1 = .error e → denials evs = 1 := by
  obtain ⟨hbook, evs, hrec, hcase⟩ := t.bill_records nowMs op hcap
  unfold handle
  cases hb : t.bill nowMs op with
  | mk r t₁ =>
  rw [hb] at hbook hrec hcase
  simp only at hbook hrec hcase
  rcases hcase with ⟨⟨e, rfl⟩, hden, hstore⟩ | ⟨rfl, hden, husage, hchain⟩
  · -- denied before the inner host is asked
    refine ⟨evs, hrec, fun d => ?_, fun _ _ => hden⟩
    have := hcov d
    rw [hbook, hrec.tenant, hstore]
    exact this
  · obtain ⟨t₂, hfwd⟩ : ∃ t₂, t₂ = (t₁.forward op).2 := ⟨_, rfl⟩
    have hrec₂ : t.Records t₂ (evs ++ []) := hrec.trans (by rw [hfwd]; exact .quiet rfl rfl rfl)
    rw [List.append_nil] at hrec₂
    have hstore₂ : t₂.store = t₁.store := by rw [hfwd]; rfl
    have hbook₂ : ∀ d, t₂.booked d = t.booked d := fun d => by rw [hfwd]; exact hbook d
    have husage₂ : ∀ d, t₂.store.usageAt d t₂.tenant =
        t.store.usageAt d t.tenant + ((chargeFor op).getD default).amount d := by
      intro d
      rw [hrec₂.tenant, hstore₂, husage d]
    simp only [← hfwd]
    cases hreply : (t₁.forward op).1 with
    | error err =>
      obtain ⟨hbook₃, hback, evs₃, hrec₃, hden₃⟩ := t₂.denied_records nowMs op err
        (fun d => by rw [husage₂ d]; omega) (fun h => by rw [hstore₂, hrec₂.tenant]; exact hchain h)
      simp only [reconcile]
      refine ⟨evs ++ evs₃, hrec₂.trans hrec₃, fun d => ?_, fun _ _ => by rw [denials_append, hden, hden₃]⟩
      have h1 := hcov d
      have h2 := hback d
      have h3 := husage₂ d
      rw [hbook₃, hbook₂, hrec₃.tenant]
      omega
    | ok reply =>
      obtain ⟨hrec₃, hstore₃, hfound⟩ := t₂.reconcile_booked nowMs op reply
      cases hr : t₂.reconcile nowMs op (.ok reply) with
      | mk found t₃ =>
      rw [hr] at hrec₃ hstore₃ hfound
      simp only at hrec₃ hstore₃ hfound
      rcases hfound with ⟨rfl, hle⟩ | ⟨c, rfl, heq⟩
      · refine ⟨evs ++ [], hrec₂.trans hrec₃, fun d => ?_, fun e he => by cases he⟩
        have h1 := hcov d
        have h2 := hle d
        have h3 := husage₂ d
        have h4 := hbook₂ d
        change t₃.booked d ≤ t₃.store.usageAt d t₃.tenant
        rw [hrec₃.tenant, hstore₃]
        omega
      · -- the charge was in a map, so it is on the tenant
        have hheld : ∀ d, t₃.booked d + c.amount d ≤ t₃.store.usageAt d t₃.tenant := by
          intro d
          have h1 := hcov d
          have h2 := heq d
          have h3 := husage₂ d
          have h4 := hbook₂ d
          rw [hrec₃.tenant, hstore₃]
          omega
        obtain ⟨hbook₄, hback, evs₄, hrec₄, -⟩ := t₃.refund_records nowMs op c
          (fun d => le_trans (Nat.le_add_left _ _) (hheld d))
        refine ⟨evs ++ [] ++ evs₄, (hrec₂.trans hrec₃).trans hrec₄, fun d => ?_, fun e he => by cases he⟩
        have h1 := hheld d
        have h2 := hback d
        change (t₃.refund nowMs op c).booked d ≤ (t₃.refund nowMs op c).store.usageAt d (t₃.refund nowMs op c).tenant
        rw [hbook₄, hrec₄.tenant]
        omega

/-! ## Runs -/

/-- What can happen to a wrapper: one of its calls runs from start to end, or others leave the store and the inner host
in some other state. -/
inductive Turn where
  | handle (nowMs : UInt64) (op : VmOp)
  | others (store : StoreState) (inner : MemVmHost)

def turn (t : TenantVmHost) : Turn → Option HostResult × TenantVmHost
  | .handle nowMs op =>
    let (reply, t) := t.handle nowMs op
    (some reply, t)
  | .others store inner => (none, { t with store, inner })

/-- A call finds every ceiling below its maximum; others leave the tenant's usage alone. -/
def Undisturbed (t : TenantVmHost) : Turn → Prop
  | .handle .. => t.store.Capped t.tenant
  | .others store _ => ∀ d, store.usageAt d t.tenant = t.store.usageAt d t.tenant

instance (t : TenantVmHost) : ∀ x, Decidable (t.Undisturbed x)
  | .handle .. => inferInstanceAs (Decidable (t.store.Capped t.tenant))
  | .others store _ => inferInstanceAs (Decidable (∀ d, store.usageAt d t.tenant = t.store.usageAt d t.tenant))

/-- The trail since `t₀` adds up to what the usage has moved since, and the charge maps are covered. -/
structure Reconciles (t₀ t : TenantVmHost) : Prop where
  trail : ∃ evs, t₀.Records t evs
  covered : t.Covered

theorem Reconciles.turn {t₀ : TenantVmHost} (h : t₀.Reconciles t) {x : Turn} (hx : t.Undisturbed x) :
    t₀.Reconciles (t.turn x).2 := by
  obtain ⟨evs, hrec⟩ := h.trail
  cases x with
  | handle nowMs op =>
    obtain ⟨evs', hrec', hcov, -⟩ := t.handle_records nowMs op hx h.covered
    exact ⟨⟨_, hrec.trans hrec'⟩, hcov⟩
  | others store inner =>
    refine ⟨⟨evs, hrec.tenant, hrec.audit, fun d => ?_⟩, fun d => ?_⟩
    · rw [← hrec.moved d, ← hrec.tenant]
      exact congrArg Nat.cast (hx d)
    · exact (h.covered d).trans (hx d).ge

end TenantVmHost

open TenantVmHost

/-- **The audit trail reconciles with the books.**  Take a wrapper with an audit sink that has recorded no charge yet,
and any run of its calls, one after another, between which others may do what they like with the store, short of moving
the tenant's usage, and with the inner host.  After every call the usage has moved by the `Charge` events of the run less
its `Release` events less its refunded `Deny` events, and a call that returns an error emits exactly one `Deny`. -/
theorem audit_reconciles (t : TenantVmHost) (hfresh : t.Fresh) (sink : List AuditEvent) (haudit : t.audit = some sink)
    (turns : List Turn) (h : Along turn Undisturbed t turns) :
    (∀ t' ∈ states turn t turns, ∃ evs, t'.audit = some (sink ++ evs) ∧
      ∀ d, (t'.store.usageAt d t.tenant : ℤ) - t.store.usageAt d t.tenant = reconciled d evs) ∧
    ∀ pre nowMs op post e, turns = pre ++ .handle nowMs op :: post →
      ((run turn t pre).handle nowMs op).1 = .error e →
      ∃ trail evs, (run turn t pre).audit = some trail ∧
        (run turn t (pre ++ [.handle nowMs op])).audit = some (trail ++ evs) ∧ denials evs = 1 := by
  have hstart : t.Reconciles t := ⟨⟨[], .quiet rfl rfl rfl⟩, covered_fresh hfresh⟩
  have hall : ∀ t' ∈ states turn t turns, t.Reconciles t' :=
    of_along (I := fun t' => t.Reconciles t') (fun t' x ht' hx => ht'.turn hx) hstart h
  constructor
  · intro t' ht'
    obtain ⟨evs, hrec⟩ := (hall t' ht').trail
    refine ⟨evs, by rw [hrec.audit, haudit]; rfl, fun d => ?_⟩
    rw [hrec.moved d]
    ring
  · rintro pre nowMs op post e rfl he
    obtain ⟨hpre, hcap, -⟩ := along_append.1 h
    have hmid := of_along (I := fun t' => t.Reconciles t') (fun t' x ht' hx => ht'.turn hx) hstart hpre _
      (run_mem_states _ _)
    obtain ⟨evs₀, hrec₀⟩ := hmid.trail
    obtain ⟨evs, hrec, -, hden⟩ := (run turn t pre).handle_records nowMs op hcap hmid.covered
    refine ⟨sink ++ evs₀, evs, by rw [hrec₀.audit, haudit]; rfl, ?_, hden e he⟩
    rw [run_append]
    change ((run turn t pre).handle nowMs op).2.audit = _
    rw [hrec.audit, hrec₀.audit, haudit]
    rfl

/-- A wrapper with a sink, for a tenant with small quotas on an empty host. -/
def auditedHost : TenantVmHost :=
  (TenantVmHost.new ⟨1⟩ (run (step .idle) default [.create ⟨"acme", ⟨4, 4096, 16384, 1000, 10000⟩, none⟩ .all])
    .new).withAudit []

/-- A create that fits, one that does not, one without a shape, a refused one, and the delete of the first VM. -/
def mixedCalls : List Turn :=
  [.handle 0 (createVm 2), .handle 0 (createVm 5), .handle 0 (.create "bare" .never none none none none),
   .handle 0 (.createVolume "disk" 512), .handle 0 (.stop 0), .handle 0 (.delete 0), .handle 0 (.delete 9)]

theorem mixedCalls_reconcile :
    auditedHost.Fresh ∧ auditedHost.audit = some [] ∧ Along turn Undisturbed auditedHost mixedCalls ∧
    ∀ t' ∈ states turn auditedHost mixedCalls, ∃ evs, t'.audit = some ([] ++ evs) ∧
      ∀ d, (t'.store.usageAt d ⟨1⟩ : ℤ) - auditedHost.store.usageAt d ⟨1⟩ = reconciled d evs := by
  have hfresh : auditedHost.Fresh := ⟨rfl, rfl⟩
  have h : Along turn Undisturbed auditedHost mixedCalls := by decide +kernel
  exact ⟨hfresh, rfl, h, (audit_reconciles auditedHost hfresh [] rfl mixedCalls h).1⟩

end Celium
