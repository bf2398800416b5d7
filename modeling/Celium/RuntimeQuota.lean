import Celium.RuntimeSpec
import Celium.VolumeCalls
import Celium.Lib.Posting
import Celium.Lib.Runs
/-!
# RuntimeQuota — the usage of a tenant against what its host runs

With calls in flight, what a wrapper has put on its tenant is the charge of every live resource it created, and what
the calls in flight still owe: a charge that waits for the inner host, one that waits to be refunded, and one that a
delete has yet to find in a charge map.  The maps lag behind the inner host, so this holds as long as, resource by
resource, calls reach the maps in the order in which the inner host answered them (`InTurn`).
-/
namespace Celium

open Fixed Posting Runs StoreState

/-! ## What a call in flight owes, and where it waits -/

namespace Phase

/-- The resource whose entry in a charge map the call writes or removes next. -/
def resource : Phase → Option Resource
  | .reconcile op reply => (issued op reply).or (freed op reply)
  | _ => none

/-- That resource, with the charge to be entered, if it is a create that waits. -/
def waits : Phase → Option (Resource × Option QuotaCharge)
  | .reconcile op reply => ((issued op reply).or (freed op reply)).map (·, chargeFor op)
  | _ => none

/-- The charge made for a call and neither spent on a resource nor given back. -/
def held : Phase → QuotaCharge
  | .forward op => (chargeFor op).getD default
  | .reconcile op (.error _) => (chargeFor op).getD default
  | .refund _ c _ => c
  | _ => default

theorem waits_resource {p : Phase} {r : Resource} {c : Option QuotaCharge} (h : p.waits = some (r, c)) :
    p.resource = some r := by
  cases p with
  | reconcile op reply =>
    obtain ⟨r', hr', heq⟩ := Option.map_eq_some_iff.1 h
    cases heq
    exact hr'
  | _ => cases h

end Phase

theorem issued_error (op : VmOp) (e : String) : issued op (.error e) = none := by
  cases op <;> rfl

theorem freed_error (op : VmOp) (e : String) : freed op (.error e) = none := by
  cases op <;> rfl

/-- What the charge maps hold for a resource. -/
def TenantVmHost.book (t : TenantVmHost) : Resource → QuotaCharge
  | .vm vmId   => (t.vmCharges.lookup vmId).getD default
  | .volume id => (t.volumeCharges.lookup id).getD default

def VmOp.isCreateVolume : VmOp → Bool
  | .createVolume .. => true
  | _ => false

namespace Fleet

/-- The planned charge of the live resources the wrapper created. -/
def live (w : Fleet) (r : Resource) : QuotaCharge := if r ∈ w.made then w.host.inner.charged r else default

/-- **Quota conservation**, for a wrapper that started at `t₀`: with no call in flight, the tenant's usage has grown by
the planned charges of the VMs and volumes the wrapper created that are still live in the inner host. -/
def Conserved (t₀ : TenantVmHost) (w : Fleet) : Prop :=
  w.inFlight = [] → ∀ d, w.host.store.usageAt d w.host.tenant =
    t₀.store.usageAt d t₀.tenant + ∑ r ∈ w.made, (w.host.inner.charged r).amount d

/-- Nothing that will be charged is clipped at the integer maximum. -/
def Unclipped (t : TenantVmHost) : Phase → Prop
  | .bill op => ∀ c ∈ chargeFor op, t.store.Chargeable t.tenant c →
      ∀ d, t.store.usageAt d t.tenant + c.amount d ≤ d.max
  | _ => True

/-- A volume that will be created gets an id of its own: the counter is not at its end. -/
def IdLeft (t : TenantVmHost) : Phase → Prop
  | .forward op => op.isCreateVolume = true → t.inner.vault.next.toNat < u64Max
  | _ => True

/-- No call that the inner host answered earlier still waits for the same entry of a charge map. -/
def InTurn (w : Fleet) (k : Nat) (p : Phase) : Prop :=
  ∀ earlier ∈ w.inFlight.take k, ∀ r ∈ p.resource, r ∉ earlier.resource

def Orderly (w : Fleet) : Act → Prop
  | .advance k _ => ∀ p ∈ w.inFlight[k]?, Unclipped w.host p ∧ IdLeft w.host p ∧ w.InTurn k p
  | _ => True

instance (t : TenantVmHost) : ∀ p, Decidable (Unclipped t p)
  | .bill op => inferInstanceAs (Decidable (∀ c ∈ chargeFor op, (_ ∧ _) → ∀ _ : Dim, _ ≤ _))
  | .forward _ | .reconcile .. | .refund .. => .isTrue trivial

instance (t : TenantVmHost) : ∀ p, Decidable (IdLeft t p)
  | .forward op => inferInstanceAs (Decidable (op.isCreateVolume = true → _ < _))
  | .bill _ | .reconcile .. | .refund .. => .isTrue trivial

instance (w : Fleet) (k : Nat) (p : Phase) : Decidable (w.InTurn k p) :=
  inferInstanceAs (Decidable (∀ earlier ∈ w.inFlight.take k, ∀ r ∈ p.resource, r ∉ earlier.resource))

instance (w : Fleet) : ∀ act, Decidable (w.Orderly act)
  | .advance k _ => inferInstanceAs (Decidable (∀ p ∈ w.inFlight[k]?, _ ∧ _ ∧ _))
  | .call _ | .snapshot _ | .attachPreserved .. => .isTrue trivial

end Fleet

/-! ## The parts of a call, from the books' side -/

/-- The inner host and the charge maps are as they were. -/
structure TenantVmHost.Keeps (t t' : TenantVmHost) : Prop where
  inner : t'.inner = t.inner
  book : t'.book = t.book

/-- The wrapper's tenant still sits where it sat in the tree; where it cannot be charged, nothing has moved. -/
structure TenantVmHost.SameTree (t₀ t : TenantVmHost) : Prop where
  tenant : t.tenant = t₀.tenant
  up : t.store.up = t₀.store.up
  stuck : ∀ e, t₀.store.chainFrom t₀.tenant = .error e → t.store = t₀.store

namespace TenantVmHost

variable {t₀ t : TenantVmHost} {op : VmOp}

/-- The wrapper has recorded no charge. -/
def Fresh (t : TenantVmHost) : Prop := t.vmCharges = ∅ ∧ t.volumeCharges = ∅

theorem fresh_new (tenant : TenantId) (store : StoreState) (inner : MemVmHost) : (new tenant store inner).Fresh :=
  ⟨rfl, rfl⟩

theorem SameTree.refl (t : TenantVmHost) : t.SameTree t := ⟨rfl, rfl, fun _ _ => rfl⟩

theorem SameTree.chain_ok (h : t₀.SameTree t) {chain : List TenantId} (hc : t.store.chainFrom t.tenant = .ok chain) :
    t₀.store.chainFrom t₀.tenant = .ok chain := by
  rw [chainFrom_ok_iff] at hc ⊢
  rwa [← h.up, ← h.tenant]

theorem SameTree.chain_error (h : t₀.SameTree t) {e : CelError} (hc : t.store.chainFrom t.tenant = .error e) :
    t.store = t₀.store := by
  cases h₀ : t₀.store.chainFrom t₀.tenant with
  | error e' => exact h.stuck e' h₀
  | ok chain =>
    have : t.store.chainFrom t.tenant = .ok chain := by
      rw [chainFrom_ok_iff] at h₀ ⊢
      rwa [h.up, h.tenant]
    rw [this] at hc
    cases hc

/-- The store of a wrapper moves, on the same tree, where the tenant can be charged. -/
theorem SameTree.move (h : t₀.SameTree t) {t' : TenantVmHost} (ht : t'.tenant = t.tenant)
    (hup : t'.store.up = t.store.up) (hc : ∃ chain, t.store.chainFrom t.tenant = .ok chain) : t₀.SameTree t' := by
  obtain ⟨chain, hc⟩ := hc
  refine ⟨ht.trans h.tenant, hup.trans h.up, fun e he => ?_⟩
  rw [h.chain_ok hc] at he
  cases he

theorem SameTree.still (h : t₀.SameTree t) {t' : TenantVmHost} (ht : t'.tenant = t.tenant)
    (hs : t'.store = t.store) : t₀.SameTree t' :=
  ⟨ht.trans h.tenant, by rw [hs, h.up], fun e he => by rw [hs, h.stuck e he]⟩

/-- **`bill`**: the call returns and nothing has moved, or the planned charge is on the tenant. -/
theorem bill_cases (nowMs : UInt64) (h : t₀.SameTree t) (hclip : Fleet.Unclipped t (.bill op)) :
    t.Keeps (t.bill nowMs op).2 ∧ t₀.SameTree (t.bill nowMs op).2 ∧
    ((∃ e, (t.bill nowMs op).1 = .error e) ∧ (t.bill nowMs op).2.store = t.store ∨
      (t.bill nowMs op).1 = .ok () ∧ ∀ d, (t.bill nowMs op).2.store.usageAt d t.tenant =
        t.store.usageAt d t.tenant + ((chargeFor op).getD default).amount d) := by
  unfold bill
  cases hc : chargeFor op with
  | none => exact ⟨⟨rfl, rfl⟩, h, .inr ⟨rfl, fun d => by simp⟩⟩
  | some c =>
    simp only
    split
    · rename_i hzero
      subst hzero
      exact ⟨⟨rfl, rfl⟩, h, .inr ⟨rfl, fun d => by simp⟩⟩
    · rcases charge_usageAt t.store t.tenant c with ⟨e, he, -⟩ | ⟨u, s', hs, hfits, hchain, hup, husage⟩
      · rw [he]
        exact ⟨⟨rfl, rfl⟩, h.still rfl rfl, .inl ⟨⟨_, rfl⟩, rfl⟩⟩
      · rw [hs]
        refine ⟨⟨rfl, rfl⟩, h.move rfl hup hchain, .inr ⟨rfl, fun d => ?_⟩⟩
        have hle := hclip c hc hfits d
        exact (husage d).trans (Nat.min_eq_left hle)

/-- A release of a charge that is on the tenant. -/
theorem release_held (h : t₀.SameTree t) {c : QuotaCharge}
    (hheld : ∀ d, t₀.store.usageAt d t₀.tenant + c.amount d ≤ t.store.usageAt d t.tenant) {t' : TenantVmHost}
    (ht : t'.tenant = t.tenant) (hs : t'.store = (t.store.release t.tenant c).2) :
    t₀.SameTree t' ∧ ∀ d, t'.store.usageAt d t'.tenant + c.amount d = t.store.usageAt d t.tenant := by
  rcases release_usageAt t.store t.tenant c with ⟨e, hchain, hsame⟩ | ⟨hchain, hup, husage⟩
  · rw [hsame] at hs
    refine ⟨h.still ht hs, fun d => ?_⟩
    -- nothing was ever charged, so the charge is empty
    have := hheld d
    rw [h.chain_error hchain, h.tenant] at this
    rw [hs, ht]
    omega
  · refine ⟨h.move ht (by rw [hs, hup]) hchain, fun d => ?_⟩
    have := hheld d
    rw [ht, hs, husage d]
    omega

theorem refund_store (t : TenantVmHost) (nowMs : UInt64) (op : VmOp) (c : QuotaCharge) :
    (t.refund nowMs op c).store = (t.store.release t.tenant c).2 ∧ (t.refund nowMs op c).tenant = t.tenant ∧
      t.Keeps (t.refund nowMs op c) := by
  unfold refund
  split
  · rename_i hr
    exact ⟨by rw [hr], rfl, rfl, rfl⟩
  · rename_i hr
    exact ⟨by rw [hr]; rfl, rfl, rfl, rfl⟩

/-- **`denied`**: the planned charge is released, if there was one. -/
theorem denied_store (t : TenantVmHost) (nowMs : UInt64) (op : VmOp) (err : String) :
    ((chargeFor op).getD default ≠ default ∧
        (t.denied nowMs op err).store = (t.store.release t.tenant ((chargeFor op).getD default)).2 ∨
      (chargeFor op).getD default = default ∧ (t.denied nowMs op err).store = t.store) ∧
    (t.denied nowMs op err).tenant = t.tenant ∧ t.Keeps (t.denied nowMs op err) := by
  unfold denied
  cases hc : chargeFor op with
  | none => exact ⟨.inr ⟨rfl, rfl⟩, rfl, rfl, rfl⟩
  | some c =>
    simp only
    split
    · exact ⟨.inr ⟨‹_›, rfl⟩, rfl, rfl, rfl⟩
    · exact ⟨.inl ⟨‹_›, rfl⟩, rfl, rfl, rfl⟩

theorem book_vm_insert (t : TenantVmHost) (vmId : UInt32) (c : QuotaCharge) :
    book { t with vmCharges := t.vmCharges.insert vmId c } = Function.update t.book (.vm vmId) c := by
  funext r
  cases r with
  | volume id => rfl
  | vm j =>
    simp only [book, Assoc.lookup_insert_ite, Function.update_apply, Resource.vm.injEq]
    split <;> rfl

theorem book_volume_insert (t : TenantVmHost) (id : VolumeId) (c : QuotaCharge) :
    book { t with volumeCharges := t.volumeCharges.insert id c } = Function.update t.book (.volume id) c := by
  funext r
  cases r with
  | vm j => rfl
  | volume id' =>
    simp only [book, Assoc.lookup_insert_ite, Function.update_apply, Resource.volume.injEq]
    split <;> rfl

theorem book_vm_erase (t : TenantVmHost) (vmId : UInt32) :
    book { t with vmCharges := t.vmCharges.erase vmId } = Function.update t.book (.vm vmId) default := by
  funext r
  cases r with
  | volume id => rfl
  | vm j =>
    simp only [book, Assoc.lookup_erase_ite, Function.update_apply, Resource.vm.injEq]
    split <;> rfl

theorem book_volume_erase (t : TenantVmHost) (id : VolumeId) :
    book { t with volumeCharges := t.volumeCharges.erase id } = Function.update t.book (.volume id) default := by
  funext r
  cases r with
  | vm j => rfl
  | volume id' =>
    simp only [book, Assoc.lookup_erase_ite, Function.update_apply, Resource.volume.injEq]
    split <;> rfl

/-- **`reconcile`, when the inner host did not refuse**: a create's charge is entered, a delete's is taken out, or
nothing happens. -/
theorem reconcile_cases (t : TenantVmHost) (nowMs : UInt64) (op : VmOp) (reply : VmOpReply) :
    (t.reconcile nowMs op (.ok reply)).2.tenant = t.tenant ∧ (t.reconcile nowMs op (.ok reply)).2.store = t.store ∧
    (t.reconcile nowMs op (.ok reply)).2.inner = t.inner ∧
    ((∃ r c, issued op (.ok reply) = some r ∧ chargeFor op = some c ∧ (t.reconcile nowMs op (.ok reply)).1 = none ∧
        (t.reconcile nowMs op (.ok reply)).2.book = Function.update t.book r c) ∨
      (∃ r, issued op (.ok reply) = none ∧ freed op (.ok reply) = some r ∧ chargeFor op = none ∧
        ((t.reconcile nowMs op (.ok reply)).1).getD default = t.book r ∧
        (t.reconcile nowMs op (.ok reply)).2.book = Function.update t.book r default) ∨
      issued op (.ok reply) = none ∧ freed op (.ok reply) = none ∧ t.reconcile nowMs op (.ok reply) = (none, t)) := by
  unfold reconcile
  split
  · rename_i heq
    cases heq
  · rename_i vmId heq
    cases heq
    exact ⟨rfl, rfl, rfl, .inl ⟨.vm vmId, _, rfl, rfl, rfl, t.book_vm_insert vmId _⟩⟩
  · rename_i volume heq
    cases heq
    exact ⟨rfl, rfl, rfl, .inl ⟨.volume volume.id, _, rfl, rfl, rfl, t.book_volume_insert volume.id _⟩⟩
  · rename_i vmId _ heq
    cases heq
    exact ⟨rfl, rfl, rfl, .inr (.inl ⟨.vm vmId, rfl, rfl, rfl, rfl, t.book_vm_erase vmId⟩)⟩
  · rename_i id _ heq
    cases heq
    exact ⟨rfl, rfl, rfl, .inr (.inl ⟨.volume id, rfl, rfl, rfl, rfl, t.book_volume_erase id⟩)⟩
  · rename_i h1 h2 h3 h4 h5
    refine ⟨rfl, rfl, rfl, .inr (.inr ⟨?_, ?_, rfl⟩)⟩
    · unfold issued
      split
      · rename_i heq
        exact absurd heq (h2 _ _ _ _ _ _ _ rfl)
      · rename_i heq
        exact absurd heq (h3 _ _ _ rfl)
      · rfl
    · unfold freed
      split
      · rename_i heq
        exact absurd heq (h4 _ _ rfl)
      · rename_i heq
        exact absurd heq (h5 _ _ rfl)
      · rfl

end TenantVmHost

/-! ## The books -/

namespace Fleet

variable {t₀ : TenantVmHost} {w : Fleet}

/-- What a waiting entry shows of itself: a delete does not know what it will find. -/
def stub : Entry Resource QuotaCharge → Resource × Option QuotaCharge
  | .opened r c => (r, some c)
  | .closed r _ => (r, none)

/-- The books, with the entries `q` still to be posted: the charge maps plus `q` are the live resources, and the usage
is what is live, held by calls and still entered for what is gone. -/
structure Booked (t₀ : TenantVmHost) (w : Fleet) (q : List (Entry Resource QuotaCharge)) : Prop where
  aligned : w.inFlight.filterMap Phase.waits = q.map stub
  posts : Posts w.host.book q w.live
  balanced : ∀ d, w.host.store.usageAt d w.host.tenant = t₀.store.usageAt d t₀.tenant +
    ∑ r ∈ w.made, (w.live r).amount d + (w.inFlight.map (fun p => p.held.amount d)).sum +
    (q.map (fun e => e.was.amount d)).sum

/-- The volumes in `made` have ids the host has given out. -/
def Minted (made : Finset Resource) (h : MemVmHost) : Prop :=
  ∀ v, .volume v ∈ made → ∃ owner n, h.owner = some owner ∧ n ≤ h.vault.next ∧ v = MemVolumeStore.volumeId owner n

theorem Minted.same {made : Finset Resource} {h h' : MemVmHost} (hm : Minted made h) (hids : h.SameIds h') :
    Minted made h' := by
  intro v hv
  rw [hids.1, hids.2]
  exact hm v hv

/-- The invariant of the machine. -/
structure Sound (t₀ : TenantVmHost) (w : Fleet) : Prop where
  tree : t₀.SameTree w.host
  ids : Minted w.made w.host.inner
  books : ∃ q, Booked t₀ w q

theorem live_sum (w : Fleet) (d : Dim) :
    ∑ r ∈ w.made, (w.live r).amount d = ∑ r ∈ w.made, (w.host.inner.charged r).amount d :=
  Finset.sum_congr rfl fun r hr => by rw [live, if_pos hr]

/-- **Sound books conserve the quota**: with no call in flight, no entry waits. -/
theorem Sound.conserved (h : w.Sound t₀) : w.Conserved t₀ := by
  intro hidle d
  obtain ⟨q, hq⟩ := h.books
  have hnil : q = [] := by
    have := hq.aligned
    rw [hidle] at this
    exact List.map_eq_nil_iff.1 this.symm
  have := hq.balanced d
  rw [hidle, hnil, live_sum] at this
  simpa using this

/-! ## One step -/

/-- What a call holds after its step, if it is still in flight. -/
def heldBy (next : Option Phase) (d : Dim) : ℕ := (next.toList.map (fun p => p.held.amount d)).sum

section Moves

variable {w' : Fleet} {q : List (Entry Resource QuotaCharge)} {pre post : List Phase} {p : Phase}

/-- A part of a call that touches neither the inner host nor a map: what it moves, it moves between the usage and what
it holds. -/
theorem Booked.pass (next : Option Phase) (hq : w.Booked t₀ q) (hin : w.inFlight = pre ++ p :: post) (hp : p.waits = none)
    (hin' : w'.inFlight = pre ++ post ++ next.toList) (hnext : ∀ n ∈ next, n.waits = none)
    (hbook : w'.host.book = w.host.book) (hlive : w'.live = w.live) (hmade : w'.made = w.made)
    (husage : ∀ d, w'.host.store.usageAt d w'.host.tenant + p.held.amount d =
      w.host.store.usageAt d w.host.tenant + heldBy next d) : w'.Booked t₀ q where
  aligned := by
    rw [← hq.aligned, hin, hin']
    cases next with
    | none => simp [List.filterMap_append, hp]
    | some n => simp [List.filterMap_append, hp, hnext n rfl]
  posts := by
    rw [hbook, hlive]
    exact hq.posts
  balanced := by
    intro d
    have hb := hq.balanced d
    have hu := husage d
    rw [hin] at hb
    rw [hin', hmade, hlive]
    simp only [heldBy, List.map_append, List.map_cons, List.sum_append, List.sum_cons] at hb hu ⊢
    omega

/-- What a call holds is on the tenant. -/
theorem Booked.held_le (hq : w.Booked t₀ q) (hin : w.inFlight = pre ++ p :: post) (d : Dim) :
    t₀.store.usageAt d t₀.tenant + p.held.amount d ≤ w.host.store.usageAt d w.host.tenant := by
  have hb := hq.balanced d
  rw [hin] at hb
  simp only [List.map_append, List.map_cons, List.sum_append, List.sum_cons] at hb
  omega

/-- The inner host has answered a create or a delete: a cell opens or closes, and its entry waits last. -/
theorem Booked.answer (hq : w.Booked t₀ q) (hin : w.inFlight = pre ++ p :: post) (hp : p.waits = none) {n : Phase}
    (e : Entry Resource QuotaCharge) (hin' : w'.inFlight = pre ++ post ++ [n]) (hn : n.waits = some (stub e))
    (hheld : n.held = default) (hnow : p.held = e.now) (hbook : w'.host.book = w.host.book)
    (hwas : w.live e.key = e.was) (hlive : w'.live = Function.update w.live e.key e.now)
    (htotal : ∀ d, ∑ r ∈ w'.made, (w'.live r).amount d + e.was.amount d =
      ∑ r ∈ w.made, (w.live r).amount d + e.now.amount d)
    (husage : ∀ d, w'.host.store.usageAt d w'.host.tenant = w.host.store.usageAt d w.host.tenant) :
    w'.Booked t₀ (q ++ [e]) where
  aligned := by
    rw [List.map_append, ← hq.aligned, hin, hin']
    simp [List.filterMap_append, hp, hn]
  posts := by
    rw [hbook, hlive]
    exact hq.posts.append_one hwas
  balanced := by
    intro d
    have hb := hq.balanced d
    have ht := htotal d
    rw [hin] at hb
    rw [hin', husage d]
    simp only [List.map_append, List.map_cons, List.map_nil, List.sum_append, List.sum_cons, List.sum_nil, hheld, hnow,
      QuotaCharge.amount_default] at hb ⊢
    omega

/-- The first waiting call for a resource reaches its map. -/
theorem Booked.reach (hq : w.Booked t₀ q) (hin : w.inFlight = pre ++ p :: post) {r : Resource} {c : Option QuotaCharge}
    (hp : p.waits = some (r, c)) (hturn : ∀ earlier ∈ pre, r ∉ earlier.resource) :
    ∃ q₁ e q₂, q = q₁ ++ e :: q₂ ∧ stub e = (r, c) ∧ (pre ++ post).filterMap Phase.waits = (q₁ ++ q₂).map stub ∧
      w.host.book r = e.was ∧ Posts (Function.update w.host.book r e.now) (q₁ ++ q₂) w.live := by
  have hal := hq.aligned
  rw [hin, List.filterMap_append, List.filterMap_cons_some hp] at hal
  obtain ⟨q₁, rest, rfl, hq₁, hrest⟩ := List.map_eq_append_iff.1 hal.symm
  obtain ⟨e, q₂, rfl, he, hq₂⟩ := List.map_eq_cons_iff.1 hrest
  have hkey : e.key = r := by
    cases e <;> exact congrArg Prod.fst he
  have hne : ∀ x ∈ q₁, x.key ≠ e.key := by
    intro x hx heq
    have hmem : stub x ∈ pre.filterMap Phase.waits := by
      rw [← hq₁]
      exact List.mem_map_of_mem hx
    obtain ⟨earlier, hearlier, hw⟩ := List.mem_filterMap.1 hmem
    have hfst : (stub x).1 = r := by
      rw [← hkey, ← heq]
      cases x <;> rfl
    exact hturn earlier hearlier (Phase.waits_resource (by rw [hw, ← hfst]))
  obtain ⟨hwas, hposts⟩ := hq.posts.take_out hne
  rw [hkey] at hwas hposts
  refine ⟨q₁, e, q₂, rfl, he, ?_, hwas, hposts⟩
  rw [List.filterMap_append, List.map_append, hq₁, hq₂]

/-- A call has reached its map: its entry waits no longer, and what it found there, if it closes the cell, it holds. -/
theorem Booked.posted {q₁ q₂ : List (Entry Resource QuotaCharge)} {e : Entry Resource QuotaCharge}
    (next : Option Phase) (hq : w.Booked t₀ (q₁ ++ e :: q₂)) (hin : w.inFlight = pre ++ p :: post) (hheld : p.held = default)
    (hal : (pre ++ post).filterMap Phase.waits = (q₁ ++ q₂).map stub)
    (hposts : Posts (Function.update w.host.book e.key e.now) (q₁ ++ q₂) w.live)
    (hin' : w'.inFlight = pre ++ post ++ next.toList) (hnext : ∀ n ∈ next, n.waits = none)
    (hfound : ∀ d, heldBy next d = e.was.amount d)
    (hbook : w'.host.book = Function.update w.host.book e.key e.now) (hlive : w'.live = w.live)
    (hmade : w'.made = w.made)
    (husage : ∀ d, w'.host.store.usageAt d w'.host.tenant = w.host.store.usageAt d w.host.tenant) :
    w'.Booked t₀ (q₁ ++ q₂) where
  aligned := by
    rw [hin', List.filterMap_append, hal]
    cases next with
    | none => simp
    | some n => simp [hnext n rfl]
  posts := by
    rw [hbook, hlive]
    exact hposts
  balanced := by
    intro d
    have hb := hq.balanced d
    have hf := hfound d
    rw [hin] at hb
    rw [hin', husage d, hmade, hlive]
    simp only [heldBy, List.map_append, List.map_cons, List.sum_append, List.sum_cons, hheld,
      QuotaCharge.amount_default] at hb hf ⊢
    omega

end Moves

section Step

variable {nowMs : UInt64} {op : VmOp} {pre post : List Phase}

/-- The fleet after a call at `p`, between `pre` and `post`, has taken its next part. -/
def after (w : Fleet) (nowMs : UInt64) (pre post : List Phase) (p : Phase) : Fleet :=
  { (w.advance nowMs p).2 with inFlight := pre ++ post ++ (w.advance nowMs p).1.2.toList }

/-- Parts that leave the inner host alone keep what is live and the ids. -/
theorem Sound.of_booked (h : w.Sound t₀) {w' : Fleet} (htree : t₀.SameTree w'.host) (hmade : w'.made = w.made)
    (hinner : w'.host.inner = w.host.inner) (hbooks : w'.live = w.live → ∃ q, w'.Booked t₀ q) : w'.Sound t₀ where
  tree := htree
  ids := by
    rw [hmade, hinner]
    exact h.ids
  books := by
    refine hbooks ?_
    funext r
    rw [live, live, hmade, hinner]

theorem Sound.bill (h : w.Sound t₀) (hin : w.inFlight = pre ++ .bill op :: post)
    (hclip : Unclipped w.host (.bill op)) : (w.after nowMs pre post (.bill op)).Sound t₀ := by
  obtain ⟨hkeep, htree, hcase⟩ := TenantVmHost.bill_cases nowMs h.tree hclip
  obtain ⟨q, hq⟩ := h.books
  cases hb : w.host.bill nowMs op with
  | mk r host =>
    rw [hb] at hkeep htree hcase
    have htenant : host.tenant = w.host.tenant := htree.tenant.trans h.tree.tenant.symm
    cases r with
    | error e =>
      have hafter : w.after nowMs pre post (.bill op) = { w with host, inFlight := pre ++ post ++ [] } := by
        simp [after, advance, hb]
      have hstore : host.store = w.host.store := by
        rcases hcase with ⟨-, hstore⟩ | ⟨hok, -⟩
        · exact hstore
        · cases hok
      rw [hafter]
      refine h.of_booked htree rfl hkeep.inner fun hlive => ⟨q, ?_⟩
      refine hq.pass none hin rfl rfl (fun n hn => by cases hn) hkeep.book hlive rfl fun d => ?_
      rw [hstore, htenant]
      simp [heldBy, Phase.held]
    | ok u =>
      have hafter : w.after nowMs pre post (.bill op) =
          { w with host, inFlight := pre ++ post ++ [.forward op] } := by
        simp [after, advance, hb]
      have husage : ∀ d, host.store.usageAt d w.host.tenant =
          w.host.store.usageAt d w.host.tenant + ((chargeFor op).getD default).amount d := by
        rcases hcase with ⟨⟨e, he⟩, -⟩ | ⟨-, husage⟩
        · cases he
        · exact husage
      rw [hafter]
      refine h.of_booked htree rfl hkeep.inner fun hlive => ⟨q, ?_⟩
      refine hq.pass (some (.forward op)) hin rfl rfl ?_ hkeep.book hlive rfl fun d => ?_
      · rintro n ⟨⟩
        rfl
      · rw [htenant, husage d]
        simp [heldBy, Phase.held]

/-- A call that gives back what it holds and returns. -/
theorem Sound.give_back {p : Phase} (h : w.Sound t₀) (hin : w.inFlight = pre ++ p :: post) (hp : p.waits = none)
    {host : TenantVmHost} (hkeep : w.host.Keeps host) (htenant : host.tenant = w.host.tenant)
    (hstore : host.store = (w.host.store.release w.host.tenant p.held).2 ∨
      p.held = default ∧ host.store = w.host.store) :
    Sound t₀ { w with host, inFlight := pre ++ post ++ [] } := by
  obtain ⟨q, hq⟩ := h.books
  have hgive : t₀.SameTree host ∧
      ∀ d, host.store.usageAt d host.tenant + p.held.amount d = w.host.store.usageAt d w.host.tenant := by
    rcases hstore with hstore | ⟨hzero, hstore⟩
    · exact TenantVmHost.release_held h.tree (hq.held_le hin) htenant hstore
    · refine ⟨h.tree.still htenant hstore, fun d => ?_⟩
      rw [hstore, htenant, hzero, QuotaCharge.amount_default, Nat.add_zero]
  refine h.of_booked hgive.1 rfl hkeep.inner fun hlive => ⟨q, ?_⟩
  refine hq.pass none hin hp rfl (fun n hn => by cases hn) hkeep.book hlive rfl fun d => ?_
  simpa [heldBy] using hgive.2 d

theorem Sound.refund {c : QuotaCharge} {reply : HostResult} (h : w.Sound t₀)
    (hin : w.inFlight = pre ++ .refund op c reply :: post) :
    (w.after nowMs pre post (.refund op c reply)).Sound t₀ := by
  obtain ⟨hstore, htenant, hkeep⟩ := w.host.refund_store nowMs op c
  exact h.give_back hin rfl hkeep htenant (.inl hstore)

theorem Sound.denied {e : String} (h : w.Sound t₀) (hin : w.inFlight = pre ++ .reconcile op (.error e) :: post) :
    (w.after nowMs pre post (.reconcile op (.error e))).Sound t₀ := by
  obtain ⟨hstore, htenant, hkeep⟩ := w.host.denied_store nowMs op e
  have hafter : w.after nowMs pre post (.reconcile op (.error e)) =
      { w with host := w.host.denied nowMs op e, inFlight := pre ++ post ++ [] } := by
    cases op <;> rfl
  have hwaits : (Phase.reconcile op (.error e)).waits = none := by
    simp [Phase.waits, issued_error, freed_error]
  rw [hafter]
  exact h.give_back hin hwaits hkeep htenant (hstore.imp_left And.right)

theorem sum_live_of_subset {S : Finset Resource} (h : w.made ⊆ S) (d : Dim) :
    ∑ r ∈ w.made, (w.live r).amount d = ∑ r ∈ S, (w.live r).amount d := by
  apply Finset.sum_subset h
  intro r _ hr
  rw [live, if_neg hr, QuotaCharge.amount_default]

/-- The inner host moves the charge of one resource, which is or becomes one of the wrapper's, or is given up. -/
theorem live_update {w' : Fleet} {r : Resource} {c : QuotaCharge} (hmade : w.made ⊆ w'.made)
    (hnew : w'.made ⊆ insert r w.made) (hr : r ∈ w'.made ∨ c = default)
    (hcharged : w'.host.inner.charged = Function.update w.host.inner.charged r c) :
    w'.live = Function.update w.live r c ∧ ∀ d, ∑ x ∈ w'.made, (w'.live x).amount d + (w.live r).amount d =
      ∑ x ∈ w.made, (w.live x).amount d + c.amount d := by
  have hlive : w'.live = Function.update w.live r c := by
    funext x
    rw [live, hcharged]
    by_cases hx : x = r
    · subst hx
      rcases hr with hr | rfl
      · simp [hr]
      · simp
    · have hiff : x ∈ w'.made ↔ x ∈ w.made :=
        ⟨fun h => (Finset.mem_insert.1 (hnew h)).resolve_left hx, fun h => hmade h⟩
      simp [hx, hiff, live]
  refine ⟨hlive, fun d => ?_⟩
  have hmem : r ∈ insert r w.made := Finset.mem_insert_self r w.made
  have hsame : ∑ x ∈ (insert r w.made).erase r, (w'.live x).amount d =
      ∑ x ∈ (insert r w.made).erase r, (w.live x).amount d := by
    refine Finset.sum_congr rfl fun x hx => ?_
    rw [hlive, Function.update_of_ne (Finset.ne_of_mem_erase hx)]
  have hself : (w'.live r).amount d = c.amount d := by
    rw [hlive, Function.update_self]
  rw [sum_live_of_subset hnew, sum_live_of_subset (Finset.subset_insert r w.made), ← Finset.add_sum_erase _ _ hmem,
    ← Finset.add_sum_erase _ (fun x => (w.live x).amount d) hmem, hsame, hself]
  omega

/-- The id the inner host is about to give a volume is not one it gave before. -/
theorem Sound.fresh (h : w.Sound t₀) {owner : String} (howner : w.host.inner.owner = some owner)
    (hleft : w.host.inner.vault.next.toNat < u64Max) :
    .volume (MemVolumeStore.volumeId owner (satAdd64 w.host.inner.vault.next 1)) ∉ w.made := by
  intro hmem
  obtain ⟨owner', n, howner', hn, heq⟩ := h.ids _ hmem
  obtain rfl : owner = owner' := Option.some.inj (howner.symm.trans howner')
  have hsat : (satAdd64 w.host.inner.vault.next 1).toNat ≤ w.host.inner.vault.next.toNat := by
    rw [(MemVolumeStore.volumeId_inj heq).2]
    exact UInt64.le_iff_toNat_le.1 hn
  rw [toNat_satAdd64, UInt64.toNat_one, Nat.min_eq_left hleft] at hsat
  exact absurd hsat (Nat.not_succ_le_self _)

/-- The fleet after the inner host has answered. -/
def replied (w : Fleet) (pre post : List Phase) (op : VmOp) (reply : HostResult) (inner : MemVmHost) : Fleet :=
  { host := { w.host with inner }, inFlight := pre ++ post ++ [.reconcile op reply],
    made := w.made ∪ (issued op reply).toFinset }

theorem held_ok {reply : HostResult} (h : ((issued op reply).or (freed op reply)).isSome) :
    (Phase.reconcile op reply).held = default := by
  cases reply with
  | ok reply => rfl
  | error e =>
    rw [issued_error, freed_error] at h
    cases h

/-- The inner host has served a create or a delete. -/
theorem Booked.served {q : List (Entry Resource QuotaCharge)} {reply : HostResult} {inner : MemVmHost}
    (hq : w.Booked t₀ q) (hin : w.inFlight = pre ++ .forward op :: post) (e : Entry Resource QuotaCharge)
    (hwaits : (Phase.reconcile op reply).waits = some (stub e)) (hnow : (Phase.forward op).held = e.now)
    (hwas : w.live e.key = e.was) (hnew : ∀ r, issued op reply = some r → r = e.key)
    (hmine : issued op reply = some e.key ∨ e.now = default)
    (eq : inner.charged = Function.update w.host.inner.charged e.key e.now) :
    (w.replied pre post op reply inner).Booked t₀ (q ++ [e]) := by
  have hheld : (Phase.reconcile op reply).held = default := by
    refine held_ok ?_
    have := Phase.waits_resource (r := (stub e).1) (c := (stub e).2) hwaits
    exact Option.isSome_iff_exists.2 ⟨_, this⟩
  have hmade : w.made ⊆ (w.replied pre post op reply inner).made := Finset.subset_union_left
  have hinsert : (w.replied pre post op reply inner).made ⊆ insert e.key w.made := by
    intro r hr
    rcases Finset.mem_union.1 hr with hr | hr
    · exact Finset.mem_insert_of_mem hr
    · rw [hnew r (Option.mem_toFinset.1 hr)]
      exact Finset.mem_insert_self e.key w.made
  have hr : e.key ∈ (w.replied pre post op reply inner).made ∨ e.now = default := by
    refine hmine.imp_left fun h => Finset.mem_union_right _ ?_
    rw [h]
    simp
  obtain ⟨hlive, htotal⟩ := live_update hmade hinsert hr eq
  refine hq.answer hin rfl e rfl hwaits hheld hnow rfl hwas hlive (fun d => ?_) (fun d => rfl)
  rw [← hwas]
  exact htotal d

theorem issued_volume {reply : HostResult} {v : VolumeId} (h : issued op reply = some (.volume v)) :
    ∃ name sizeBytes, op = .createVolume name sizeBytes := by
  unfold issued at h
  split at h
  · cases h
  · exact ⟨_, _, rfl⟩
  · cases h

/-- The id a volume has just been given is one the host has given out. -/
theorem Minted.next {made : Finset Resource} {h h' : MemVmHost} (hm : Minted made h) {owner : String}
    (known : h.owner = some owner) (same : h'.owner = h.owner) (next : h'.vault.next = satAdd64 h.vault.next 1) :
    Minted (insert (.volume (MemVolumeStore.volumeId owner (satAdd64 h.vault.next 1))) made) h' := by
  intro v hv
  rw [same, next]
  rcases Finset.mem_insert.1 hv with hv | hv
  · obtain rfl : v = _ := by simpa using hv
    exact ⟨owner, _, known, UInt64.le_refl _, rfl⟩
  · obtain ⟨owner', n, howner, hn, heq⟩ := hm v hv
    refine ⟨owner', n, howner, UInt64.le_trans hn ?_, heq⟩
    have := le_u64Max h.vault.next
    rw [UInt64.le_iff_toNat_le, toNat_satAdd64]
    omega

theorem Sound.forward (h : w.Sound t₀) (hin : w.inFlight = pre ++ .forward op :: post)
    (hleft : IdLeft w.host (.forward op)) : (w.after nowMs pre post (.forward op)).Sound t₀ := by
  obtain ⟨q, hq⟩ := h.books
  have hserve : MemVmHost.Serves w.host.inner op (w.host.inner.apply op).1 (w.host.inner.apply op).2 :=
    MemVmHost.apply_serves op
  have hafter : w.after nowMs pre post (.forward op) =
      w.replied pre post op (w.host.inner.apply op).1 (w.host.inner.apply op).2 := rfl
  rw [hafter]
  generalize (w.host.inner.apply op).1 = reply at hserve ⊢
  generalize (w.host.inner.apply op).2 = inner at hserve ⊢
  have htree : t₀.SameTree (w.replied pre post op reply inner).host := h.tree.still rfl rfl
  have hmade : (w.replied pre post op reply inner).made = w.made ∪ (issued op reply).toFinset := rfl
  cases hserve with
  | vmOpened vmId c issue plan free eq ids =>
    have hfree : w.live (.vm vmId) = default := by rw [live, free, ite_self]
    have hids : Minted (w.replied pre post op reply inner).made inner := by
      intro v hv
      have hv' : .volume v ∈ w.made := by simpa [hmade, issue] using hv
      exact h.ids.same ids v hv'
    refine ⟨htree, hids, _, hq.served hin (.opened (.vm vmId) c) ?_ ?_ hfree ?_ (.inl issue) eq⟩
    · simp [Phase.waits, issue, plan, stub]
    · simp [Phase.held, plan, Entry.now]
    · exact fun r hr => Option.some.inj (hr.symm.trans issue)
  | volumeOpened owner c known issue plan eq same next =>
    obtain ⟨name, sizeBytes, rfl⟩ := issued_volume issue
    have hfresh := h.fresh known (hleft rfl)
    have hfree : w.live (.volume (MemVolumeStore.volumeId owner (satAdd64 w.host.inner.vault.next 1))) = default := by
      rw [live, if_neg hfresh]
    have hids : Minted (w.replied pre post (.createVolume name sizeBytes) reply inner).made inner := by
      intro v hv
      refine h.ids.next known same next v ?_
      simpa [hmade, issue] using hv
    refine ⟨htree, hids, _, hq.served hin (.opened _ c) ?_ ?_ hfree ?_ (.inl issue) eq⟩
    · simp [Phase.waits, issue, plan, stub]
    · simp [Phase.held, plan, Entry.now]
    · exact fun r hr => Option.some.inj (hr.symm.trans issue)
  | closed r noneIssued free plan eq ids =>
    have hids : Minted (w.replied pre post op reply inner).made inner := by
      intro v hv
      have hv' : .volume v ∈ w.made := by simpa [hmade, noneIssued] using hv
      exact h.ids.same ids v hv'
    refine ⟨htree, hids, _, hq.served hin (.closed r (w.live r)) ?_ ?_ rfl ?_ (.inr rfl) eq⟩
    · simp [Phase.waits, noneIssued, free, plan, stub]
    · simp [Phase.held, plan, Entry.now]
    · intro r hr
      rw [noneIssued] at hr
      cases hr
  | neither noneIssued noneFreed refused eq ids =>
    have hsame : (w.replied pre post op reply inner).made = w.made := by
      simp [hmade, noneIssued]
    refine ⟨htree, ?_, q, hq.pass (some (.reconcile op reply)) hin rfl rfl ?_ rfl ?_ hsame fun d => ?_⟩
    · rw [hsame]
      exact h.ids.same ids
    · rintro n ⟨⟩
      simp [Phase.waits, noneIssued, noneFreed]
    · funext r
      rw [live, live, hsame]
      exact congrArg (fun f => if r ∈ w.made then f r else default) eq
    · -- a call that holds a charge was refused, and keeps holding it
      have hheld : (Phase.reconcile op reply).held = (Phase.forward op).held := by
        cases hc : chargeFor op with
        | none => cases reply <;> simp [Phase.held, hc]
        | some c =>
          obtain ⟨e, rfl⟩ := refused (by rw [hc]; rfl)
          rfl
      simp only [heldBy, Option.toList_some, List.map_cons, List.map_nil, List.sum_cons, List.sum_nil, hheld]
      rfl

theorem Sound.reconcile {reply : VmOpReply} (h : w.Sound t₀) (hin : w.inFlight = pre ++ .reconcile op (.ok reply) :: post)
    (hturn : ∀ earlier ∈ pre, ∀ r ∈ (Phase.reconcile op (.ok reply)).resource, r ∉ earlier.resource) :
    (w.after nowMs pre post (.reconcile op (.ok reply))).Sound t₀ := by
  obtain ⟨q, hq⟩ := h.books
  obtain ⟨htenant, hstore, hinner, hcase⟩ := w.host.reconcile_cases nowMs op reply
  have htree := h.tree.still htenant hstore
  have hafter : w.after nowMs pre post (.reconcile op (.ok reply)) =
      { host := (w.host.reconcile nowMs op (.ok reply)).2,
        inFlight := pre ++ post ++
          ((w.host.reconcile nowMs op (.ok reply)).1.map (fun c => Phase.refund op c (.ok reply))).toList,
        made := w.made } := by
    unfold after advance
    cases hr : w.host.reconcile nowMs op (.ok reply) with
    | mk found host => cases found <;> simp [hr]
  rw [hafter]
  refine h.of_booked htree rfl hinner fun hlive => ?_
  have hnext : ∀ n ∈ (w.host.reconcile nowMs op (.ok reply)).1.map (fun c => Phase.refund op c (.ok reply)),
      n.waits = none := by
    intro n hn
    obtain ⟨c, -, rfl⟩ := Option.map_eq_some_iff.1 hn
    rfl
  have husage : ∀ d, (w.host.reconcile nowMs op (.ok reply)).2.store.usageAt d
      (w.host.reconcile nowMs op (.ok reply)).2.tenant = w.host.store.usageAt d w.host.tenant := by
    intro d
    rw [htenant, hstore]
  rcases hcase with ⟨r, c, hissue, hplan, hfound, hbook⟩ | ⟨r, hissue, hfree, hplan, hfound, hbook⟩ |
    ⟨hissue, hfree, heq⟩
  · -- a create enters its charge
    have hwaits : (Phase.reconcile op (.ok reply)).waits = some (r, some c) := by
      simp [Phase.waits, hissue, hplan]
    obtain ⟨q₁, e, q₂, rfl, he, hal, -, hposts⟩ :=
      hq.reach hin hwaits fun p hp => hturn p hp r (Phase.waits_resource hwaits)
    cases e with
    | closed r' v => cases he
    | opened r' c' =>
      obtain ⟨rfl, rfl⟩ : r' = r ∧ c' = c := by simpa [stub] using he
      refine ⟨_, hq.posted _ hin rfl hal hposts rfl hnext (fun d => ?_) hbook hlive rfl husage⟩
      rw [hfound]
      simp [heldBy, Entry.was]
  · -- a delete takes the charge out
    have hwaits : (Phase.reconcile op (.ok reply)).waits = some (r, none) := by
      simp [Phase.waits, hissue, hfree, hplan]
    obtain ⟨q₁, e, q₂, rfl, he, hal, hwas, hposts⟩ :=
      hq.reach hin hwaits fun p hp => hturn p hp r (Phase.waits_resource hwaits)
    cases e with
    | opened r' v => cases he
    | closed r' v =>
      obtain rfl : r' = r := by simpa [stub] using he
      refine ⟨_, hq.posted _ hin rfl hal hposts rfl hnext (fun d => ?_) hbook hlive rfl husage⟩
      rw [← hwas, ← hfound]
      cases (w.host.reconcile nowMs op (.ok reply)).1 <;> simp [heldBy, Phase.held]
  · -- nothing waits
    have hwaits : (Phase.reconcile op (.ok reply)).waits = none := by
      simp [Phase.waits, hissue, hfree]
    refine ⟨q, hq.pass _ hin hwaits rfl hnext ?_ hlive rfl fun d => ?_⟩
    · rw [heq]
    · rw [husage d, heq]
      simp [heldBy, Phase.held]

/-- The inner host moves, but no charge and no id does. -/
theorem Sound.inner_moves (h : w.Sound t₀) {inner : MemVmHost} (hcharged : inner.charged = w.host.inner.charged)
    (hids : Minted w.made inner) : Sound t₀ { w with host := { w.host with inner } } := by
  obtain ⟨q, hq⟩ := h.books
  have hlive : live { w with host := { w.host with inner } } = w.live := by
    funext r
    exact congrArg (fun f => if r ∈ w.made then f r else default) hcharged
  refine ⟨h.tree.still rfl rfl, hids, q, hq.aligned, ?_, fun d => ?_⟩
  · rw [hlive]
    exact hq.posts
  · rw [hlive]
    exact hq.balanced d

theorem advance_inFlight (w : Fleet) (nowMs : UInt64) (p : Phase) : (w.advance nowMs p).2.inFlight = w.inFlight := by
  cases p with
  | bill op =>
    simp only [advance]
    split <;> rfl
  | reconcile op reply =>
    simp only [advance]
    split <;> rfl
  | _ => rfl

theorem step_advance {k : Nat} {p : Phase} (nowMs : UInt64) (hk : w.inFlight[k]? = some p) :
    w.inFlight = w.inFlight.take k ++ p :: w.inFlight.drop (k + 1) ∧
    (w.step (.advance k nowMs)).2 = w.after nowMs (w.inFlight.take k) (w.inFlight.drop (k + 1)) p := by
  obtain ⟨hlt, rfl⟩ := List.getElem?_eq_some_iff.1 hk
  refine ⟨?_, ?_⟩
  · rw [← List.drop_eq_getElem_cons hlt, List.take_append_drop]
  · simp only [step, hk, after, advance_inFlight, List.eraseIdx_eq_take_drop_succ]

/-- **An orderly step keeps the books sound.** -/
theorem Sound.step (h : w.Sound t₀) {act : Act} (ho : w.Orderly act) : (w.step act).2.Sound t₀ := by
  obtain ⟨q, hq⟩ := h.books
  cases act with
  | call op =>
    refine h.of_booked h.tree rfl rfl fun hlive => ⟨q, ?_, ?_, fun d => ?_⟩
    · rw [← hq.aligned]
      simp [Fleet.step, Phase.waits]
    · rw [hlive]
      exact hq.posts
    · have := hq.balanced d
      rw [hlive]
      simpa [Fleet.step, Phase.held] using this
  | snapshot owner =>
    refine h.inner_moves (MemVmHost.rememberOwner_charged owner) fun v hv => ?_
    obtain ⟨owner', n, howner, hn, heq⟩ := h.ids v hv
    have hsame : (w.host.inner.currentRows owner).2 = w.host.inner := by
      simp [MemVmHost.currentRows, MemVmHost.rememberOwner, howner]
    rw [hsame]
    exact ⟨owner', n, howner, hn, heq⟩
  | attachPreserved vmId attachments =>
    obtain ⟨hcharged, hids⟩ := MemVmHost.attachPreserved_charged (h := w.host.inner) vmId attachments
    exact h.inner_moves hcharged (h.ids.same hids)
  | advance k nowMs =>
    cases hk : w.inFlight[k]? with
    | none => simpa [Fleet.step, hk] using h
    | some p =>
      obtain ⟨hclip, hleft, hturn⟩ := ho p hk
      obtain ⟨hin, hstep⟩ := step_advance nowMs hk
      rw [hstep]
      cases p with
      | bill op => exact h.bill hin hclip
      | forward op => exact h.forward hin hleft
      | refund op c reply => exact h.refund hin
      | reconcile op reply =>
        cases reply with
        | error e => exact h.denied hin
        | ok reply => exact h.reconcile hin hturn

end Step

theorem sound_idle {t : TenantVmHost} (h : t.Fresh) : (idle t).Sound t where
  tree := .refl t
  ids := fun v hv => by simp [idle] at hv
  books := by
    refine ⟨[], rfl, ?_, fun d => by simp [idle]⟩
    funext r
    cases r <;> simp [idle, live, TenantVmHost.book, h.1, h.2]

end Fleet

/-- **Quota conservation.**  Take a wrapper that has recorded no charge yet, and any run of interleaved calls on it whose
steps are all orderly.  Whenever no call is in flight, the usage the wrapper has put on its tenant is the planned charge
of the VMs and volumes it created that are still live. -/
theorem quota_conserved (t : TenantVmHost) (hfresh : t.Fresh) (acts : List Act)
    (ho : Along Fleet.step Fleet.Orderly (.idle t) acts) :
    ∀ w ∈ states Fleet.step (.idle t) acts, w.Conserved t := by
  intro w hw
  have hsound := of_along (I := fun w => w.Sound t) (fun w act hw ho => hw.step ho) (Fleet.sound_idle hfresh) ho
  exact (hsound w hw).conserved

/-- A wrapper for a new tenant without limits, on an empty host. -/
def acmeHost : TenantVmHost := .new ⟨1⟩ (run (step .idle) default [.create ⟨"acme", .unlimited, none⟩ .all]) .new

/-- A `Create` of a VM with so many vCPUs. -/
def createVm (cpus : UInt32) : VmOp := .create "vm" .never none (some cpus) none none

/-- Two creates side by side, and the delete of the first VM while the second create is still on its way. -/
def sideBySide : List Act :=
  [.call (createVm 2), .call (createVm 5), .advance 0 0, .advance 0 0, .advance 0 0, .advance 1 0, .advance 0 0,
   .call (.stop 0), .advance 1 0, .advance 1 0, .advance 1 0,
   .call (.delete 0), .advance 1 0, .advance 1 0, .advance 1 0, .advance 0 0, .advance 0 0]

theorem quota_conserved_sideBySide :
    acmeHost.Fresh ∧ Along Fleet.step Fleet.Orderly (.idle acmeHost) sideBySide ∧
    ∀ w ∈ states Fleet.step (.idle acmeHost) sideBySide, w.Conserved acmeHost := by
  have hfresh : acmeHost.Fresh := TenantVmHost.fresh_new ..
  have ho : Along Fleet.step Fleet.Orderly (.idle acmeHost) sideBySide := by decide +kernel
  exact ⟨hfresh, ho, quota_conserved acmeHost hfresh sideBySide ho⟩

/-- A delete comes between the inner host's answer to a create and the create's entry in the charge map. -/
def overtaken : List Act :=
  [.call (createVm 2), .advance 0 0, .advance 0 0,
   .call (.stop 0), .advance 1 0, .advance 1 0, .advance 1 0,
   .call (.delete 0), .advance 1 0, .advance 1 0, .advance 1 0,
   .advance 0 0]

/-- A create gets the slot of a VM whose delete has not yet reached the charge map. -/
def reused : List Act :=
  [.call (createVm 2), .advance 0 0, .advance 0 0, .advance 0 0,
   .call (.stop 0), .advance 0 0, .advance 0 0, .advance 0 0,
   .call (.delete 0), .advance 0 0, .advance 0 0,
   .call (createVm 5), .advance 1 0, .advance 1 0, .advance 1 0,
   .advance 0 0, .advance 0 0]

/-- The first run leaves two vCPUs charged for no VM; the second, a VM of five vCPUs charged as two. -/
theorem overlap_breaks_quota :
    ¬ (∀ w ∈ states Fleet.step (.idle acmeHost) overtaken, w.Conserved acmeHost) ∧
    ¬ (∀ w ∈ states Fleet.step (.idle acmeHost) reused, w.Conserved acmeHost) := by
  constructor
  · intro h
    have hlast := h _ (run_mem_states _ _) (by decide +kernel) .vcpus
    revert hlast
    decide +kernel
  · intro h
    have hlast := h _ (run_mem_states _ _) (by decide +kernel) .vcpus
    revert hlast
    decide +kernel

end Celium
