import Celium.StoreSubtree
import Celium.Lib.Runs
/-!
# StoreReach — every call keeps the hierarchy in order

`step_effect` for all fourteen operations, and the hierarchy invariant `TreeWf` along every run from the empty store.
Most calls leave the index alone (`SameIndex`); the others add a leaf, remove leaves or move the counter.
-/
namespace Celium

open Fixed Forest Runs

/-- What the index and the hierarchy read of a record. -/
def Tenant.card (t : Tenant) : TenantId × String × Option TenantId × TenantQuotas := (t.id, t.name, t.parent, t.quotas)

/-- Rewriting one entry in a part `g` does not read changes nothing that `g` reads. -/
theorem map_modify_same {α β : Type} {f : α → α} {g : α → β} (h : ∀ a, g (f a) = g a) (l : List α) (i : Nat) :
    (l.modify i f).map g = l.map g := by
  refine List.ext_getElem? fun j => ?_
  simp only [List.getElem?_map, List.getElem?_modify]
  split <;> simp [Function.comp_def, h]

namespace StoreState

variable {s s' : StoreState}

/-- The counter, the name index and every record's card are the same. -/
structure SameIndex (s s' : StoreState) : Prop where
  next : s'.nextTenantId = s.nextTenantId
  byName : s'.byName = s.byName
  cards : ∀ i, (s'.tenants.lookup i).map Tenant.card = (s.tenants.lookup i).map Tenant.card

theorem SameIndex.symm (h : SameIndex s s') : SameIndex s' s :=
  ⟨h.next.symm, h.byName.symm, fun i => (h.cards i).symm⟩

theorem SameIndex.lookup (h : SameIndex s s') {i : Nat} {t' : Tenant} (ht : s'.tenants.lookup i = some t') :
    ∃ t, s.tenants.lookup i = some t ∧ t.card = t'.card := by
  have := h.cards i
  rw [ht, Option.map_some] at this
  exact Option.map_eq_some_iff.1 this.symm

theorem SameIndex.live (h : SameIndex s s') {i : Nat} {t' : Tenant} (ht : s'.tenants.lookup i = some t') :
    ∃ t, s.tenants.lookup i = some t := by
  obtain ⟨t, ht, -⟩ := h.lookup ht
  exact ⟨t, ht⟩

theorem SameIndex.up_eq (h : SameIndex s s') : s'.up = s.up := by
  funext i
  have := congrArg (Option.map (·.2.2.1)) (h.cards i.raw)
  simpa [up, Option.map_map, Function.comp_def, Tenant.card] using this

theorem SameIndex.treeWf (h : SameIndex s s') (hwf : s.TreeWf) : s'.TreeWf where
  ids i t' ht' := by
    obtain ⟨t, ht, hc⟩ := h.lookup ht'
    obtain ⟨hid, hle⟩ := hwf.ids i t ht
    simp only [Tenant.card, Prod.mk.injEq] at hc
    exact ⟨by rw [← hc.1, hid], by rwa [h.next]⟩
  names n i := by
    rw [h.byName, hwf.names]
    constructor
    · rintro ⟨t, ht, hn⟩
      obtain ⟨t', ht', hc⟩ := h.symm.lookup ht
      simp only [Tenant.card, Prod.mk.injEq] at hc
      exact ⟨t', ht', by rw [hc.2.1, hn]⟩
    · rintro ⟨t', ht', hn⟩
      obtain ⟨t, ht, hc⟩ := h.lookup ht'
      simp only [Tenant.card, Prod.mk.injEq] at hc
      exact ⟨t, ht, by rw [hc.2.1, hn]⟩
  valid i t' ht' := by
    obtain ⟨t, ht, hc⟩ := h.lookup ht'
    simp only [Tenant.card, Prod.mk.injEq] at hc
    rw [← hc.2.1]
    exact hwf.valid i t ht
  parents i t' p ht' hp := by
    obtain ⟨t, ht, hc⟩ := h.lookup ht'
    simp only [Tenant.card, Prod.mk.injEq] at hc
    obtain ⟨⟨pt, hpt⟩, hlt⟩ := hwf.parents i t p ht (by rw [hc.2.2.1, hp])
    obtain ⟨pt', hpt', -⟩ := h.symm.lookup hpt
    exact ⟨⟨pt', hpt'⟩, hlt⟩

theorem Retouches.lookup {keep : Session → Bool} {id : TenantId} {t t' : Tenant} (h : Retouches keep s id t t' s')
    (i : Nat) : s'.tenants.lookup i = if i = id.raw then some t' else s.tenants.lookup i := by
  rw [h.tenants]
  exact Assoc.lookup_insert_ite s.tenants id.raw i t'

theorem Retouches.sameIndex {keep : Session → Bool} {id : TenantId} {t t' : Tenant} (h : Retouches keep s id t t' s') :
    SameIndex s s' where
  next := h.nextTenantId
  byName := h.byName
  cards i := by
    rw [h.lookup]
    split
    · rename_i hi
      obtain ⟨h1, h2, h3, h4, -⟩ := h.same
      rw [hi, h.live]
      simp [Tenant.card, h1, h2, h3, h4]
    · rfl

theorem Recounts.sameIndex {chain : List TenantId} {f : Tenant → QuotaUsage} (h : Recounts s chain f s') :
    SameIndex s s' where
  next := h.nextTenantId
  byName := h.byName
  cards i := by
    rw [h.lookup, Option.map_map]
    congr 1
    funext t
    simp only [Function.comp_apply]
    split <;> rfl

theorem sameIndex_sessions (ss : List Session) : SameIndex s { s with sessions := ss } := ⟨rfl, rfl, fun _ => rfl⟩

/-! ## Leaves come and go -/

theorem Grows.lookup {t : Tenant} (h : s.Grows t s') (i : Nat) :
    s'.tenants.lookup i = if i = s.nextTenantId + 1 then some t else s.tenants.lookup i := by
  rw [h.eq]
  exact Assoc.lookup_insert_ite s.tenants (s.nextTenantId + 1) i t

theorem TreeWf.fresh (hwf : s.TreeWf) : s.tenants.lookup (s.nextTenantId + 1) = none := by
  refine Option.eq_none_iff_forall_ne_some.2 fun t ht => ?_
  have := (hwf.ids _ t ht).2
  omega

/-- The records that were there are still there. -/
theorem Grows.keeps {t : Tenant} (h : s.Grows t s') (hwf : s.TreeWf) {i : Nat} {u : Tenant}
    (hu : s.tenants.lookup i = some u) : s'.tenants.lookup i = some u := by
  have := (hwf.ids i u hu).2
  rw [h.lookup, if_neg (by omega), hu]

theorem Grows.grown {t : Tenant} (h : s.Grows t s') (hwf : s.TreeWf) : Grown s.up s'.up t.id t.parent where
  fresh := by rw [h.id]; simp [up, hwf.fresh]
  here := by rw [h.id]; simp [up, h.lookup]
  other i hi := by
    have : i.raw ≠ s.nextTenantId + 1 := fun he => hi (by rw [h.id]; exact TenantId.ext he)
    simp [up, h.lookup, this]
  parent p hp := by
    obtain ⟨pt, hpt, -⟩ := h.parent p hp
    exact up_isSome.2 ⟨pt, hpt⟩

theorem Grows.treeWf {t : Tenant} (h : s.Grows t s') (hwf : s.TreeWf) : s'.TreeWf where
  ids i u hu := by
    rw [h.lookup] at hu
    split at hu
    · rename_i hi
      obtain rfl := Option.some.inj hu
      exact ⟨by rw [h.id, hi], by rw [h.eq, hi]⟩
    · obtain ⟨hid, hle⟩ := hwf.ids i u hu
      exact ⟨hid, by rw [h.eq]; exact Nat.le_succ_of_le hle⟩
  names n i := by
    have hbn : s'.byName.lookup n = if n = t.name then some (s.nextTenantId + 1) else s.byName.lookup n := by
      rw [h.eq]
      exact Assoc.lookup_insert_ite s.byName t.name n (s.nextTenantId + 1)
    rw [hbn, h.lookup]
    by_cases hn : n = t.name
    · subst hn
      by_cases hi : i = s.nextTenantId + 1
      · simp [hi]
      · -- the name was free, so no older record has it
        have hfree := (hwf.names t.name i).not.1 (by rw [h.fresh]; simp)
        simp only [if_true, Option.some.injEq, hi, if_false]
        exact ⟨fun he => absurd he.symm hi, fun he => absurd he hfree⟩
    · by_cases hi : i = s.nextTenantId + 1
      · have hfree := hwf.fresh
        simp only [hn, if_false, hi, if_true, Option.some.injEq, exists_eq_left', hwf.names, hfree]
        simp [Ne.symm hn]
      · simp only [hn, if_false, hi, hwf.names]
  valid i u hu := by
    rw [h.lookup] at hu
    split at hu
    · obtain rfl := Option.some.inj hu
      exact h.valid
    · exact hwf.valid i u hu
  parents i u p hu hp := by
    rw [h.lookup] at hu
    split at hu
    · rename_i hi
      obtain rfl := Option.some.inj hu
      obtain ⟨pt, hpt, -⟩ := h.parent p hp
      have := (hwf.ids p.raw pt hpt).2
      exact ⟨⟨pt, h.keeps hwf hpt⟩, by omega⟩
    · obtain ⟨⟨pt, hpt⟩, hlt⟩ := hwf.parents i u p hu hp
      exact ⟨⟨pt, h.keeps hwf hpt⟩, hlt⟩

theorem Drops.lookup {keep : Session → Bool} {id : TenantId} {t : Tenant} (h : Drops keep s id t s') (i : Nat) :
    s'.tenants.lookup i = if i = id.raw then none else s.tenants.lookup i := by
  rw [h.eq]
  exact Assoc.lookup_erase_ite s.tenants id.raw i

theorem Drops.back {keep : Session → Bool} {id : TenantId} {t : Tenant} (h : Drops keep s id t s') {i : Nat} {u : Tenant}
    (hu : s'.tenants.lookup i = some u) : i ≠ id.raw ∧ s.tenants.lookup i = some u := by
  rw [h.lookup] at hu
  split at hu
  · cases hu
  · exact ⟨‹_›, hu⟩

/-- The removed tenant was nobody's parent, so every parent is still there. -/
theorem Drops.keeps_parent {keep : Session → Bool} {id p : TenantId} {t u pt : Tenant} (h : Drops keep s id t s')
    {i : Nat} (hu : s.tenants.lookup i = some u) (hp : u.parent = some p) (hpt : s.tenants.lookup p.raw = some pt) :
    s'.tenants.lookup p.raw = some pt := by
  have hpid : p.raw ≠ id.raw := fun he => h.leaf i u hu (by rw [hp, TenantId.ext he])
  rw [h.lookup, if_neg hpid, hpt]

theorem Drops.pruned {keep : Session → Bool} {id : TenantId} {t : Tenant} (h : Drops keep s id t s') :
    Pruned s.up s'.up id where
  leaf i hi := by
    obtain ⟨c, hc, hp⟩ := edge_iff.1 hi
    exact h.leaf i.raw c hc hp
  here := by simp [up, h.lookup]
  other i hi := by
    have : i.raw ≠ id.raw := fun he => hi (TenantId.ext he)
    simp [up, h.lookup, this]

theorem Drops.treeWf {keep : Session → Bool} {id : TenantId} {t : Tenant} (h : Drops keep s id t s') (hwf : s.TreeWf) :
    s'.TreeWf where
  ids i u hu := by
    obtain ⟨hid, hle⟩ := hwf.ids i u (h.back hu).2
    exact ⟨hid, by rw [h.eq]; exact hle⟩
  names n i := by
    have hbn : s'.byName.lookup n = if n = t.name then none else s.byName.lookup n := by
      rw [h.eq]
      exact Assoc.lookup_erase_ite s.byName t.name n
    rw [hbn, h.lookup]
    by_cases hn : n = t.name
    · -- the removed record was the only one with its name
      simp only [hn, if_true, reduceCtorEq, false_iff, not_exists, not_and]
      intro u hu hun
      split at hu
      · cases hu
      · rename_i hi
        have h1 := (hwf.names t.name i).2 ⟨u, hu, hun⟩
        have h2 := (hwf.names t.name id.raw).2 ⟨t, h.live, rfl⟩
        rw [h1] at h2
        exact hi (Option.some.inj h2)
    · simp only [hn, if_false, hwf.names]
      by_cases hi : i = id.raw
      · subst hi
        simp only [h.live, if_true, reduceCtorEq, false_and, exists_false, iff_false, Option.some.injEq,
          exists_eq_left']
        exact Ne.symm hn
      · simp [hi]
  valid i u hu := hwf.valid i u (h.back hu).2
  parents i u p hu hp := by
    obtain ⟨⟨pt, hpt⟩, hlt⟩ := hwf.parents i u p (h.back hu).2 hp
    exact ⟨⟨pt, h.keeps_parent (h.back hu).2 hp hpt⟩, hlt⟩

end StoreState

open StoreState

/-! ## Every operation -/

theorem treeWf_default : (default : StoreState).TreeWf where
  ids i t h := by cases h
  names n i := by simp [default]
  valid i t h := by cases h
  parents i t p h := by cases h

/-- **What one call can do**, for all fourteen operations. -/
theorem step_effect (cr : Crypto) {s : StoreState} (h : s.TreeWf) (op : Op) : Effect cr s op (step cr s op).2 := by
  cases op with
  | create spec rootCaps =>
    rcases s.create_cases spec rootCaps with ⟨e, he, -⟩ | ⟨e, he, hadm, hbad⟩ | ⟨t, s', he, hadm, hg, hspec⟩ <;>
      simp only [step, answer_snd, he]
    · exact .same
    · exact .bumped hadm hbad
    · exact .grown hg hadm hspec
  | delete id =>
    rcases s.delete_cases id with ⟨e, he, -⟩ | ⟨t, s', he, hd⟩ <;> simp only [step, answer_snd, he]
    · exact .same
    · exact .dropped hd
  | addUser tenant userName requestedCaps =>
    rcases s.addUser_cases tenant userName requestedCaps with ⟨e, he⟩ | ⟨t, u, s', he, hr, hid, hn, hname, hcaps⟩ <;>
      simp only [step, answer_snd, he]
    · exact .same
    · exact .userAdded hr hid hn hname hcaps
  | removeUser tenant user =>
    rcases s.removeUser_cases tenant user with ⟨e, he⟩ | ⟨t, s', he, hr, hn⟩ <;> simp only [step, answer_snd, he]
    · exact .same
    · exact .userRemoved hr hn
  | charge tenant c =>
    rcases s.charge_cases tenant c with ⟨e, he, -⟩ | ⟨chain, u, s', he, hchain, hfits, hr, -⟩ <;>
      simp only [step, answer_snd, he]
    · exact .same
    · exact .charged hr fun i t ht hi => hfits.2 t ((mem_levels hchain).2 ⟨⟨i⟩, hi, ht⟩)
  | release tenant c =>
    rcases s.release_cases tenant c with ⟨e, he, -⟩ | ⟨chain, u, s', he, -, hr, -⟩ <;> simp only [step, answer_snd, he]
    · exact .same
    · exact .released hr
  | setPassword tenant user plain salt =>
    rcases s.setPassword_cases cr tenant user plain salt with ⟨e, he⟩ | ⟨t, i, hash, s', he, hr, hn⟩ <;>
      simp only [step, answer_snd, he]
    · exact .same
    · exact .passwordSet hr hn
  | createSession tenant user requestedCaps ttlSecs rand nowMs =>
    rcases s.createSession_cases cr tenant user requestedCaps ttlSecs rand nowMs with
      ⟨e, he⟩ | ⟨t, u, token, session, he, ht, hu, hid, hnames, hcaps⟩ <;> simp only [step, answer_snd, he]
    · exact .same
    · exact .sessionMinted ht hu hid hnames hcaps
  | revokeToken token => exact .sessionsRetained _
  | purgeExpiredSessions nowMs => exact .sessionsRetained _
  | revokeUserSessions tenant user =>
    simp only [step, answer_snd, revokeUserSessions]
    split
    · exact .same
    · exact .sessionsRetained _
  | revokeTenantSessions tenant =>
    simp only [step, answer_snd, revokeTenantSessions]
    split
    · exact .same
    · exact .sessionsRetained _
  | rotateRootCaps tenant newCaps =>
    rcases s.rotateRootCaps_cases tenant newCaps with ⟨e, he, -⟩ | ⟨t, report, s', he, hc, hr, hn⟩ <;>
      simp only [step, answer_snd, he]
    · exact .same
    · exact .rotated hc hr hn
  | deleteTenantRecursive tenant ord =>
    rcases deleteTenantRecursive_cases h tenant ord with ⟨e, he, -⟩ | ⟨report, s', he, hp, -⟩ <;>
      simp only [step, answer_snd, he]
    · exact .same
    · exact .takenApart hp

/-- The ways a call can change the hierarchy. -/
theorem Effect.treeWf {cr : Crypto} {s s' : StoreState} {op : Op} (he : Effect cr s op s') (h : s.TreeWf) : s'.TreeWf := by
  cases he with
  | same => exact h
  | bumped =>
    exact ⟨fun i t ht => ⟨(h.ids i t ht).1, Nat.le_succ_of_le (h.ids i t ht).2⟩, h.names, h.valid, h.parents⟩
  | grown hg => exact hg.treeWf h
  | dropped hd => exact hd.treeWf h
  | userAdded hr => exact hr.sameIndex.treeWf h
  | userRemoved hr => exact hr.sameIndex.treeWf h
  | passwordSet hr => exact hr.sameIndex.treeWf h
  | sessionMinted => exact (sameIndex_sessions _).treeWf h
  | sessionsRetained => exact (sameIndex_sessions _).treeWf h
  | rotated _ hr => exact hr.sameIndex.treeWf h
  | charged hr => exact hr.sameIndex.treeWf h
  | released hr => exact hr.sameIndex.treeWf h
  | takenApart hp =>
    induction hp with
    | refl => exact h
    | tail _ hlast ih =>
      obtain ⟨id, t, hd⟩ := hlast
      exact hd.treeWf ih

theorem step_treeWf (cr : Crypto) (s : StoreState) (op : Op) (h : s.TreeWf) : (step cr s op).2.TreeWf :=
  (step_effect cr h op).treeWf h

theorem run_treeWf (cr : Crypto) (ops : List Op) : (run (step cr) default ops).TreeWf :=
  inv_run (step_treeWf cr) treeWf_default ops

/-- **An invariant of the store holds along every run** once the empty store has it and every effect keeps it. -/
theorem inv_of_effect (cr : Crypto) {I : StoreState → Prop} (h0 : I default)
    (hI : ∀ s s' op, s.TreeWf → I s → Effect cr s op s' → I s') (ops : List Op) : I (run (step cr) default ops) :=
  (inv_run (I := fun s => s.TreeWf ∧ I s)
    (fun s op h => ⟨step_treeWf cr s op h.1, hI s _ op h.1 h.2 (step_effect cr h.1 op)⟩) ⟨treeWf_default, h0⟩ ops).2

end Celium
