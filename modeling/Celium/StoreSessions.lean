import Celium.StoreReach
/-!
# StoreSessions — what a session and a subtenant may hold

Two laws on capabilities.  `SessionAuthority`: a stored session speaks for a live user of a live tenant, within that
user's caps.  `CapsNest`: a tenant's caps, its users' and its sessions' are within those of every ancestor.  Neither is
kept by every call.  `delete` leaves the sessions of the tenant it removes, and `rotate_root_caps` narrows a tenant
without its subtenants; for both the exact condition along a run is proved.  What does hold without a condition is
`Backed`: a user is within its tenant, and a session of a live tenant is within its user.
-/
namespace Celium

open Fixed Forest Runs

namespace StoreState

variable {s s' : StoreState}

structure Backed (s : StoreState) : Prop where
  caps : ∀ i t, s.tenants.lookup i = some t → ∀ u ∈ t.users, u.caps ⊆ t.rootCaps
  old : ∀ ss ∈ s.sessions, ss.tenant.raw ≤ s.nextTenantId
  user : ∀ ss ∈ s.sessions, ∀ t, s.tenants.lookup ss.tenant.raw = some t →
    ∃ u ∈ t.users, u.id = ss.user ∧ ss.caps ⊆ u.caps

theorem Retouches.backed {keep : Session → Bool} {id : TenantId} {t t' : Tenant} (hr : Retouches keep s id t t' s')
    (h : s.Backed) (hcaps : ∀ u ∈ t'.users, u.caps ⊆ t'.rootCaps)
    (hkeep : ∀ ss, keep ss = true → ss.tenant = id → ∀ u ∈ t.users, u.id = ss.user →
      ∃ u' ∈ t'.users, u'.id = u.id ∧ u'.caps = u.caps) : s'.Backed where
  caps i u hu := by
    rw [hr.lookup] at hu
    split at hu
    · obtain rfl := Option.some.inj hu
      exact hcaps
    · exact h.caps i u hu
  old ss hss := by
    rw [hr.sessions] at hss
    rw [hr.nextTenantId]
    exact h.old ss (List.mem_filter.1 hss).1
  user ss hss u hu := by
    rw [hr.sessions] at hss
    obtain ⟨hss, hk⟩ := List.mem_filter.1 hss
    rw [hr.lookup] at hu
    split at hu
    · rename_i hid
      obtain rfl := Option.some.inj hu
      obtain ⟨v, hv, hvid, hle⟩ := h.user ss hss t (by rw [hid]; exact hr.live)
      obtain ⟨v', hv', hid', hc'⟩ := hkeep ss hk (TenantId.ext hid) v hv hvid
      exact ⟨v', hv', hid'.trans hvid, hc' ▸ hle⟩
    · exact h.user ss hss u hu

theorem Recounts.backed {chain : List TenantId} {f : Tenant → QuotaUsage} (hr : Recounts s chain f s') (h : s.Backed) :
    s'.Backed := by
  -- users and caps are those of the old record
  have hback : ∀ i t', s'.tenants.lookup i = some t' →
      ∃ t, s.tenants.lookup i = some t ∧ t'.users = t.users ∧ t'.rootCaps = t.rootCaps := by
    intro i t' ht'
    rw [hr.lookup, Option.map_eq_some_iff] at ht'
    obtain ⟨t, ht, rfl⟩ := ht'
    exact ⟨t, ht, by split <;> rfl, by split <;> rfl⟩
  constructor
  · intro i t' ht'
    obtain ⟨t, ht, hu, hc⟩ := hback i t' ht'
    rw [hu, hc]
    exact h.caps i t ht
  · rw [hr.sessions, hr.nextTenantId]
    exact h.old
  · intro ss hss t' ht'
    rw [hr.sessions] at hss
    obtain ⟨t, ht, hu, -⟩ := hback _ t' ht'
    rw [hu]
    exact h.user ss hss t ht

theorem Grows.backed {t : Tenant} (hg : s.Grows t s') (h : s.Backed) : s'.Backed where
  caps i u hu := by
    rw [hg.lookup] at hu
    split at hu
    · obtain rfl := Option.some.inj hu
      simp [hg.users]
    · exact h.caps i u hu
  old ss hss := by
    rw [hg.eq] at hss ⊢
    exact Nat.le_succ_of_le (h.old ss hss)
  user ss hss u hu := by
    have hss : ss ∈ s.sessions := by rwa [hg.eq] at hss
    have := h.old ss hss
    rw [hg.lookup, if_neg (by omega)] at hu
    exact h.user ss hss u hu

theorem Drops.backed {keep : Session → Bool} {id : TenantId} {t : Tenant} (hd : Drops keep s id t s') (h : s.Backed) :
    s'.Backed where
  caps i u hu := h.caps i u (hd.back hu).2
  old ss hss := by
    rw [hd.eq] at hss ⊢
    exact h.old ss (List.mem_filter.1 hss).1
  user ss hss u hu := by
    rw [hd.eq] at hss
    exact h.user ss (List.mem_filter.1 hss).1 u (hd.back hu).2

end StoreState

open StoreState

theorem Effect.backed {cr : Crypto} {s s' : StoreState} {op : Op} (hwf : s.TreeWf) (h : s.Backed)
    (he : Effect cr s op s') : s'.Backed := by
  cases he with
  | same => exact h
  | bumped => exact ⟨h.caps, fun ss hss => Nat.le_succ_of_le (h.old ss hss), h.user⟩
  | grown hg => exact hg.backed h
  | dropped hd => exact hd.backed h
  | @userAdded _ _ _ t _ _ hr _ _ _ hcaps =>
    refine hr.backed h ?_ (fun ss _ _ u hu _ => ⟨u, List.mem_append_left _ hu, rfl, rfl⟩)
    intro u hu
    rcases List.mem_append.1 hu with hu | hu
    · exact h.caps _ t hr.live u hu
    · rw [List.mem_singleton.1 hu]
      exact hcaps
  | @userRemoved _ _ t _ hr =>
    refine hr.backed h (fun u hu => h.caps _ t hr.live u (List.mem_filter.1 hu).1) fun ss hk hid u hu hus => ?_
    refine ⟨u, List.mem_filter.2 ⟨hu, ?_⟩, rfl, rfl⟩
    simpa [hid, hus] using hk
  | @passwordSet _ _ _ _ t i hash _ hr =>
    have hsame : (t.users.modify i (fun u => { u with passwordHash := some hash })).map (fun u => (u.id, u.caps)) =
        t.users.map (fun u => (u.id, u.caps)) := by
      rw [map_modify_same]
      exact fun _ => rfl
    refine hr.backed h (fun u hu => ?_) fun ss _ _ u hu _ => ?_
    · obtain ⟨v, hv, he⟩ := List.mem_map.1 (hsame ▸ List.mem_map_of_mem hu)
      rw [Prod.mk.injEq] at he
      exact he.2 ▸ h.caps _ t hr.live v hv
    · obtain ⟨v, hv, he⟩ := List.mem_map.1 (hsame.symm ▸ List.mem_map_of_mem hu)
      rw [Prod.mk.injEq] at he
      exact ⟨v, hv, he.1, he.2⟩
  | @sessionMinted _ _ _ _ _ _ t u session live mem id names caps =>
    refine ⟨h.caps, fun ss hss => ?_, fun ss hss t' ht' => ?_⟩
    all_goals rcases List.mem_append.1 hss with hss | hss
    · exact h.old ss (List.mem_filter.1 hss).1
    · rw [List.mem_singleton.1 hss, names.1]
      exact (hwf.ids _ t live).2
    · exact h.user ss (List.mem_filter.1 hss).1 t' ht'
    · rw [List.mem_singleton.1 hss] at ht' ⊢
      rw [names.1, live] at ht'
      obtain rfl := Option.some.inj ht'
      exact ⟨u, mem, by rw [id, names.2], caps⟩
  | sessionsRetained keep =>
    exact ⟨h.caps, fun ss hss => h.old ss (List.mem_filter.1 hss).1, fun ss hss => h.user ss (List.mem_filter.1 hss).1⟩
  | @rotated _ newCaps t _ _ hr =>
    refine hr.backed h (fun u hu => ?_) fun ss hk hid => by simp [hid] at hk
    obtain ⟨v, -, rfl⟩ := List.mem_map.1 hu
    split
    · exact (TenantCaps.truncate_and_subset v.caps newCaps).2
    · rename_i hsame
      rw [← not_not.1 hsame]
      exact (TenantCaps.truncate_and_subset v.caps newCaps).2
  | charged hr => exact hr.backed h
  | released hr => exact hr.backed h
  | takenApart hp =>
    induction hp with
    | refl => exact h
    | tail _ hlast ih =>
      obtain ⟨id, t, hd⟩ := hlast
      exact hd.backed ih

theorem backed_default : (default : StoreState).Backed where
  caps i t ht := by cases ht
  old ss hss := by cases hss
  user ss hss := by cases hss

/-- The two invariants that every call keeps. -/
theorem step_wf (cr : Crypto) (s : StoreState) (op : Op) (h : s.TreeWf ∧ s.Backed) :
    (step cr s op).2.TreeWf ∧ (step cr s op).2.Backed :=
  ⟨step_treeWf cr s op h.1, (step_effect cr h.1 op).backed h.1 h.2⟩

/-! ## Sessions speak for live principals -/

namespace StoreState

variable {s s' : StoreState}

/-- The session's tenant is live, its user is there, and the caps are within the user's, which are within the
tenant's. -/
def Speaks (s : StoreState) (ss : Session) : Prop :=
  ∃ t, s.tenants.lookup ss.tenant.raw = some t ∧ ∃ u ∈ t.users, u.id = ss.user ∧ ss.caps ⊆ u.caps ∧ u.caps ⊆ t.rootCaps

/-- Every stored session, and every session a token is accepted for, speaks for a live principal. -/
def SessionAuthority (cr : Crypto) (s : StoreState) : Prop :=
  (∀ ss ∈ s.sessions, s.Speaks ss) ∧
  ∀ token nowMs ss, s.validateToken cr token nowMs = .ok ss → s.Speaks ss

def SessionsLive (s : StoreState) : Prop := ∀ ss ∈ s.sessions, ∃ t, s.tenants.lookup ss.tenant.raw = some t

theorem validateToken_mem {cr : Crypto} {token : SessionToken} {nowMs : UInt64} {ss : Session}
    (h : s.validateToken cr token nowMs = .ok ss) : ss ∈ s.sessions := by
  unfold validateToken at h
  split at h
  · cases h
  · rename_i ss' hfind
    split at h
    · cases h
    · obtain rfl := Except.ok.inj h
      exact List.mem_of_find?_eq_some hfind

theorem sessionAuthority_iff (cr : Crypto) (h : s.Backed) : s.SessionAuthority cr ↔ s.SessionsLive := by
  constructor
  · intro ha ss hss
    obtain ⟨t, ht, -⟩ := ha.1 ss hss
    exact ⟨t, ht⟩
  · intro hl
    have hspeaks : ∀ ss ∈ s.sessions, s.Speaks ss := by
      intro ss hss
      obtain ⟨t, ht⟩ := hl ss hss
      obtain ⟨u, hu, hid, hc⟩ := h.user ss hss t ht
      exact ⟨t, ht, u, hu, hid, hc, h.caps _ t ht u hu⟩
    exact ⟨hspeaks, fun token nowMs ss hv => hspeaks ss (validateToken_mem hv)⟩

theorem SessionsLive.of_sameIndex (h : s.SessionsLive) (hs : SameIndex s s')
    (hsub : ∀ ss ∈ s'.sessions, ss ∈ s.sessions) : s'.SessionsLive := by
  intro ss hss
  obtain ⟨t, ht⟩ := h ss (hsub ss hss)
  exact hs.symm.live ht

theorem Retouches.sessionsLive {keep : Session → Bool} {id : TenantId} {t t' : Tenant} (hr : Retouches keep s id t t' s')
    (h : s.SessionsLive) : s'.SessionsLive :=
  h.of_sameIndex hr.sameIndex fun ss hss => by
    rw [hr.sessions] at hss
    exact (List.mem_filter.1 hss).1

/-- A removal leaves no orphan exactly when no session it keeps is of the removed tenant. -/
theorem Drops.sessionsLive_iff {keep : Session → Bool} {id : TenantId} {t : Tenant} (hd : Drops keep s id t s')
    (h : s.SessionsLive) : s'.SessionsLive ↔ ∀ ss ∈ s.sessions, keep ss = true → ss.tenant ≠ id := by
  have hmem : ∀ ss, ss ∈ s'.sessions ↔ ss ∈ s.sessions ∧ keep ss = true := by
    intro ss
    rw [hd.eq]
    exact List.mem_filter
  constructor
  · rintro h' ss hss hk rfl
    obtain ⟨t', ht'⟩ := h' ss ((hmem ss).2 ⟨hss, hk⟩)
    exact (hd.back ht').1 rfl
  · intro hne ss hss
    obtain ⟨hss, hk⟩ := (hmem ss).1 hss
    obtain ⟨t', ht'⟩ := h ss hss
    exact ⟨t', by rw [hd.lookup, if_neg (fun he => hne ss hss hk (TenantId.ext he)), ht']⟩

/-- An accepted `delete` finds no session of its tenant. -/
def NoSessionsLeft (s : StoreState) : Op → Prop
  | .delete id => s.Deletable id → ∀ ss ∈ s.sessions, ss.tenant ≠ id
  | _ => True

end StoreState

theorem Effect.sessionsLive {cr : Crypto} {s s' : StoreState} {op : Op} (hwf : s.TreeWf) (h : s.SessionsLive)
    (he : Effect cr s op s') (hop : ∀ id, op ≠ .delete id) : s'.SessionsLive := by
  cases he with
  | same => exact h
  | bumped => exact h
  | grown hg =>
    intro ss hss
    obtain ⟨t, ht⟩ := h ss (by rwa [hg.eq] at hss)
    exact ⟨t, hg.keeps hwf ht⟩
  | dropped => exact absurd rfl (hop _)
  | userAdded hr => exact hr.sessionsLive h
  | userRemoved hr => exact hr.sessionsLive h
  | passwordSet hr => exact hr.sessionsLive h
  | sessionMinted live _ _ names =>
    intro ss hss
    rcases List.mem_append.1 hss with hss | hss
    · exact h ss (List.mem_filter.1 hss).1
    · rw [List.mem_singleton.1 hss, names.1]
      exact ⟨_, live⟩
  | sessionsRetained keep => exact fun ss hss => h ss (List.mem_filter.1 hss).1
  | rotated _ hr => exact hr.sessionsLive h
  | charged hr => exact h.of_sameIndex hr.sameIndex (fun ss hss => by rwa [hr.sessions] at hss)
  | released hr => exact h.of_sameIndex hr.sameIndex (fun ss hss => by rwa [hr.sessions] at hss)
  | takenApart hp =>
    induction hp with
    | refl => exact h
    | tail _ hlast ih =>
      obtain ⟨id, t, hd⟩ := hlast
      exact (hd.sessionsLive_iff ih).2 (fun ss _ hk => by simpa using hk)

/-- One step keeps every session's tenant live iff it deletes no tenant that has sessions. -/
theorem step_sessionsLive_iff (cr : Crypto) {s : StoreState} (hwf : s.TreeWf) (h : s.SessionsLive) (op : Op) :
    (step cr s op).2.SessionsLive ↔ s.NoSessionsLeft op := by
  cases op with
  | delete id =>
    rcases s.delete_cases id with ⟨e, he, hno⟩ | ⟨t, s', he, hd⟩ <;> simp only [step, answer_snd, he]
    · exact iff_of_true h (fun hdel => absurd hdel hno)
    · rw [hd.sessionsLive_iff h]
      exact ⟨fun hne _ ss hss => hne ss hss rfl, fun hne ss hss _ => hne ⟨t, hd.live, hd.leaf, hd.unused⟩ ss hss⟩
  | _ => exact iff_of_true ((step_effect cr hwf _).sessionsLive hwf h (fun _ hid => by cases hid)) trivial

/-- **Every session speaks for a live principal in every state of a run iff no `delete` that is accepted removes a
tenant that still has sessions.** -/
theorem session_authority_iff (cr : Crypto) (ops : List Op) :
    (∀ s ∈ states (step cr) default ops, s.SessionAuthority cr) ↔ Along (step cr) NoSessionsLeft default ops := by
  have hwf := inv_states (step_wf cr) ⟨treeWf_default, backed_default⟩ ops
  rw [← states_iff_along (P := SessionsLive) (step_wf cr) (fun s op hI hP => step_sessionsLive_iff cr hI.1 hP op)
    ⟨treeWf_default, backed_default⟩ (fun ss hss => by cases hss) ops]
  exact forall₂_congr fun s hs => sessionAuthority_iff cr (hwf s hs).2

/-- Log in, delete the tenant: the session is still there. -/
def orphaning : List Op :=
  [.create ⟨"acme", .unlimited, none⟩ .all, .addUser ⟨1⟩ "alice" .all,
    .createSession ⟨1⟩ ⟨1⟩ .all none (Vector.replicate 32 0) 0, .delete ⟨1⟩]

theorem delete_leaves_session : ¬ ∃ cr : Crypto, ∀ s ∈ states (step cr) default orphaning, s.SessionAuthority cr := by
  rintro ⟨cr, h⟩
  obtain ⟨hall, -⟩ := h _ (run_mem_states _ _)
  have hss : ∃ ss, (run (step cr) default orphaning).sessions = [ss] ∧ ss.tenant = ⟨1⟩ := ⟨_, rfl, rfl⟩
  obtain ⟨ss, hss, ht⟩ := hss
  obtain ⟨t, hlive, -⟩ := hall ss (by rw [hss]; exact List.mem_singleton_self ss)
  have hgone : (run (step cr) default orphaning).tenants.lookup 1 = none := rfl
  rw [ht, hgone] at hlive
  cases hlive

/-! ## Caps nest along the hierarchy -/

namespace StoreState

variable {s s' : StoreState}

/-- A tenant's caps, its users' and its sessions' are within those of every ancestor. -/
def CapsNest (s : StoreState) : Prop :=
  ∀ i j t a, s.tenants.lookup i.raw = some t → Relation.TransGen (Edge s.up) i j → s.tenants.lookup j.raw = some a →
    t.rootCaps ⊆ a.rootCaps ∧ (∀ u ∈ t.users, u.caps ⊆ a.rootCaps) ∧
    ∀ ss ∈ s.sessions, ss.tenant = i → ss.caps ⊆ a.rootCaps

/-- A subtenant's caps are within its parent's. -/
def EdgeCaps (s : StoreState) : Prop :=
  ∀ i t p pt, s.tenants.lookup i = some t → t.parent = some p → s.tenants.lookup p.raw = some pt →
    t.rootCaps ⊆ pt.rootCaps

theorem EdgeCaps.ancestor (h : s.EdgeCaps) (hwf : s.TreeWf) {i j : TenantId} (hij : Relation.TransGen (Edge s.up) i j)
    {t a : Tenant} (ht : s.tenants.lookup i.raw = some t) (ha : s.tenants.lookup j.raw = some a) :
    t.rootCaps ⊆ a.rootCaps := by
  induction hij using Relation.TransGen.head_induction_on generalizing t with
  | single he =>
    obtain ⟨t', ht', hp⟩ := edge_iff.1 he
    obtain rfl := Option.some.inj (ht.symm.trans ht')
    exact h _ t _ a ht hp ha
  | head he _ ih =>
    obtain ⟨t', ht', hp⟩ := edge_iff.1 he
    obtain rfl := Option.some.inj (ht.symm.trans ht')
    obtain ⟨⟨pt, hpt⟩, -⟩ := hwf.parents _ t _ ht hp
    exact TenantCaps.subset_trans (h _ t _ pt ht hp hpt) (ih hpt)

theorem capsNest_iff (hwf : s.TreeWf) (hb : s.Backed) : s.CapsNest ↔ s.EdgeCaps := by
  constructor
  · intro h i t p pt ht hp hpt
    exact (h ⟨i⟩ p t pt ht (.single (edge_iff.2 ⟨t, ht, hp⟩)) hpt).1
  · intro h i j t a ht hij ha
    have hroot := h.ancestor hwf hij ht ha
    refine ⟨hroot, fun u hu => TenantCaps.subset_trans (hb.caps _ t ht u hu) hroot, fun ss hss hi => ?_⟩
    obtain ⟨u, hu, -, hc⟩ := hb.user ss hss t (by rw [hi]; exact ht)
    exact TenantCaps.subset_trans hc (TenantCaps.subset_trans (hb.caps _ t ht u hu) hroot)

/-- While every record keeps its parent and its caps, or goes, nothing is to be checked. -/
theorem EdgeCaps.of_back (h : s.EdgeCaps) (hback : ∀ i t', s'.tenants.lookup i = some t' →
      ∃ t, s.tenants.lookup i = some t ∧ t'.parent = t.parent ∧ t'.rootCaps = t.rootCaps) : s'.EdgeCaps := by
  intro i t' p pt' ht' hp hpt'
  obtain ⟨t, ht, hpar, hc⟩ := hback i t' ht'
  obtain ⟨pt, hpt, -, hpc⟩ := hback _ pt' hpt'
  rw [hc, hpc]
  exact h i t p pt ht (by rw [← hpar, hp]) hpt

theorem Retouches.edgeCaps {keep : Session → Bool} {id : TenantId} {t t' : Tenant} (hr : Retouches keep s id t t' s')
    (h : s.EdgeCaps) (hc : t'.rootCaps = t.rootCaps) : s'.EdgeCaps := by
  refine h.of_back fun i u hu => ?_
  rw [hr.lookup] at hu
  split at hu
  · rename_i hi
    obtain rfl := Option.some.inj hu
    subst hi
    exact ⟨t, hr.live, hr.same.2.2.1, hc⟩
  · exact ⟨u, hu, rfl, rfl⟩

theorem Recounts.edgeCaps {chain : List TenantId} {f : Tenant → QuotaUsage} (hr : Recounts s chain f s')
    (h : s.EdgeCaps) : s'.EdgeCaps := by
  refine h.of_back fun i t' ht' => ?_
  rw [hr.lookup, Option.map_eq_some_iff] at ht'
  obtain ⟨t, ht, rfl⟩ := ht'
  exact ⟨t, ht, by split <;> rfl, by split <;> rfl⟩

theorem Drops.edgeCaps {keep : Session → Bool} {id : TenantId} {t : Tenant} (hd : Drops keep s id t s')
    (h : s.EdgeCaps) : s'.EdgeCaps :=
  h.of_back fun _ u hu => ⟨u, (hd.back hu).2, rfl, rfl⟩

theorem Grows.edgeCaps {t : Tenant} (hg : s.Grows t s') (hwf : s.TreeWf) (h : s.EdgeCaps) : s'.EdgeCaps := by
  intro i u p pt hu hp hpt
  rw [hg.lookup] at hu
  split at hu
  · obtain rfl := Option.some.inj hu
    obtain ⟨pt', hpt', hc, -⟩ := hg.parent p hp
    rw [hg.keeps hwf hpt'] at hpt
    rwa [← Option.some.inj hpt]
  · obtain ⟨⟨pt', hpt'⟩, -⟩ := hwf.parents i u p hu hp
    have := hg.keeps hwf hpt'
    rw [hpt] at this
    rw [Option.some.inj this]
    exact h i u p pt' hu hp hpt'

/-- A rotation keeps the caps nested exactly when the new caps still cover the direct subtenants. -/
theorem Retouches.rotated_edgeCaps_iff {keep : Session → Bool} {id : TenantId} {t t' : Tenant}
    (hr : Retouches keep s id t t' s') (hwf : s.TreeWf) (h : s.EdgeCaps)
    (hup : ∀ p, t.parent = some p → ∃ pt, s.tenants.lookup p.raw = some pt ∧ t'.rootCaps ⊆ pt.rootCaps) :
    s'.EdgeCaps ↔ ∀ j c, s.tenants.lookup j = some c → c.parent = some id → c.rootCaps ⊆ t'.rootCaps := by
  have hkeep : ∀ j u, j ≠ id.raw → (s'.tenants.lookup j = some u ↔ s.tenants.lookup j = some u) := by
    intro j u hj
    rw [hr.lookup, if_neg hj]
  have hself : s'.tenants.lookup id.raw = some t' := by rw [hr.lookup, if_pos rfl]
  constructor
  · intro h' j c hc hp
    -- a tenant is not its own parent
    have hj : j ≠ id.raw := by
      have := (hwf.parents j c id hc hp).2
      omega
    exact h' j c id t' ((hkeep j c hj).2 hc) hp hself
  · intro hkids j u p pt hu hp hpt
    by_cases hj : j = id.raw
    · subst hj
      rw [hself] at hu
      obtain rfl := Option.some.inj hu
      rw [hr.same.2.2.1] at hp
      obtain ⟨pt', hpt', hc⟩ := hup p hp
      have hne : p.raw ≠ id.raw := by
        have := (hwf.parents _ t p hr.live hp).2
        omega
      rw [(hkeep _ pt' hne).2 hpt'] at hpt
      rwa [← Option.some.inj hpt]
    · rw [hkeep j u hj] at hu
      by_cases hpid : p = id
      · subst hpid
        rw [hself] at hpt
        rw [← Option.some.inj hpt]
        exact hkids j u hu hp
      · rw [hkeep _ pt (fun he => hpid (TenantId.ext he))] at hpt
        exact h j u p pt hu hp hpt

/-- An accepted `rotate_root_caps` still covers the caps of every direct subtenant. -/
def CoversChildren (s : StoreState) : Op → Prop
  | .rotateRootCaps id newCaps => s.Rotatable id newCaps →
      ∀ j c, s.tenants.lookup j = some c → c.parent = some id → c.rootCaps ⊆ newCaps
  | _ => True

end StoreState

theorem Effect.edgeCaps {cr : Crypto} {s s' : StoreState} {op : Op} (hwf : s.TreeWf) (h : s.EdgeCaps)
    (he : Effect cr s op s') (hop : ∀ id newCaps, op ≠ .rotateRootCaps id newCaps) : s'.EdgeCaps := by
  cases he with
  | same => exact h
  | bumped => exact h
  | grown hg => exact hg.edgeCaps hwf h
  | dropped hd => exact hd.edgeCaps h
  | userAdded hr => exact hr.edgeCaps h rfl
  | userRemoved hr => exact hr.edgeCaps h rfl
  | passwordSet hr => exact hr.edgeCaps h rfl
  | sessionMinted => exact h
  | sessionsRetained => exact h
  | rotated => exact absurd rfl (hop _ _)
  | charged hr => exact hr.edgeCaps h
  | released hr => exact hr.edgeCaps h
  | takenApart hp =>
    induction hp with
    | refl => exact h
    | tail _ hlast ih =>
      obtain ⟨id, t, hd⟩ := hlast
      exact hd.edgeCaps ih

/-- One step keeps the caps nested iff it rotates no tenant below its subtenants. -/
theorem step_edgeCaps_iff (cr : Crypto) {s : StoreState} (hwf : s.TreeWf) (h : s.EdgeCaps) (op : Op) :
    (step cr s op).2.EdgeCaps ↔ s.CoversChildren op := by
  cases op with
  | rotateRootCaps id newCaps =>
    rcases s.rotateRootCaps_cases id newCaps with ⟨e, he, hno⟩ | ⟨t, report, s', he, hup, hr, -⟩ <;>
      simp only [step, answer_snd, he]
    · exact iff_of_true h (fun hrot => absurd hrot hno)
    · rw [hr.rotated_edgeCaps_iff hwf h hup]
      exact ⟨fun hkids _ => hkids, fun hkids => hkids ⟨t, hr.live, hup⟩⟩
  | _ => exact iff_of_true ((step_effect cr hwf _).edgeCaps hwf h (fun _ _ hid => by cases hid)) trivial

/-- **Caps nest along the hierarchy in every state of a run iff every accepted `rotate_root_caps` still covers the caps
of the tenant's direct subtenants.** -/
theorem caps_nest_iff (cr : Crypto) (ops : List Op) :
    (∀ s ∈ states (step cr) default ops, s.CapsNest) ↔ Along (step cr) CoversChildren default ops := by
  have hwf := inv_states (step_wf cr) ⟨treeWf_default, backed_default⟩ ops
  rw [← states_iff_along (P := EdgeCaps) (step_wf cr) (fun s op hI hP => step_edgeCaps_iff cr hI.1 hP op)
    ⟨treeWf_default, backed_default⟩ (fun i t p pt ht => by cases ht) ops]
  exact forall₂_congr fun s hs => capsNest_iff (hwf s hs).1 (hwf s hs).2

/-- A subtenant keeps what its parent loses. -/
def outliving : List Op :=
  [.create ⟨"acme", .unlimited, none⟩ .all, .create ⟨"dev", .unlimited, some ⟨1⟩⟩ .all, .rotateRootCaps ⟨1⟩ .none]

theorem rotate_leaves_subtenant : ¬ ∃ cr : Crypto, ∀ s ∈ states (step cr) default outliving, s.CapsNest := by
  rintro ⟨cr, h⟩
  have hlast := h _ (run_mem_states _ _)
  have hdev : ∃ t, (run (step cr) default outliving).tenants.lookup 2 = some t ∧ t.parent = some ⟨1⟩ ∧
      t.rootCaps = .all := ⟨_, rfl, rfl, rfl⟩
  have hacme : ∃ t, (run (step cr) default outliving).tenants.lookup 1 = some t ∧ t.rootCaps = .none := ⟨_, rfl, rfl⟩
  obtain ⟨t, ht, hp, hc⟩ := hdev
  obtain ⟨a, ha, hac⟩ := hacme
  have := (hlast ⟨2⟩ ⟨1⟩ t a ht (.single (edge_iff.2 ⟨t, ht, hp⟩)) ha).1
  rw [hc, hac] at this
  exact absurd this (by decide)

end Celium
