import Celium.StoreReach
/-!
# StoreIndex — names, ids and token hashes are unique

The two counters only grow and every id handed out is above them at the time, so ids never repeat, not even across
deletions.  What a call can do to the users is read off the `roster` of each tenant: rosters only shrink, except that
`add_user` appends one entry with a fresh id and a fresh name.
-/
namespace Celium

open Fixed Forest Runs

namespace StoreState

variable {s s' : StoreState}

/-- The ids and names of a tenant's users; none where there is no such tenant. -/
def roster (s : StoreState) (i : Nat) : List (UserId × String) :=
  ((s.tenants.lookup i).map (fun t => t.users.map (fun u => (u.id, u.name)))).getD []

theorem roster_of_lookup {i : Nat} {t : Tenant} (h : s.tenants.lookup i = some t) :
    s.roster i = t.users.map (fun u => (u.id, u.name)) := by
  simp [roster, h]

theorem Retouches.roster {keep : Session → Bool} {id : TenantId} {t t' : Tenant} (h : Retouches keep s id t t' s')
    (i : Nat) : s'.roster i = if i = id.raw then t'.users.map (fun u => (u.id, u.name)) else s.roster i := by
  unfold StoreState.roster
  rw [h.lookup]
  by_cases hi : i = id.raw <;> simp [hi]

/-- A rewrite that keeps some of the users, with their ids and names, shrinks the rosters. -/
theorem Retouches.roster_sublist {keep : Session → Bool} {id : TenantId} {t t' : Tenant}
    (h : Retouches keep s id t t' s')
    (hsub : (t'.users.map (fun u => (u.id, u.name))).Sublist (t.users.map (fun u => (u.id, u.name)))) (i : Nat) :
    (s'.roster i).Sublist (s.roster i) := by
  rw [h.roster]
  split
  · rename_i hi
    rw [hi, roster_of_lookup h.live]
    exact hsub
  · exact .refl _

theorem Recounts.roster {chain : List TenantId} {f : Tenant → QuotaUsage} (h : Recounts s chain f s') (i : Nat) :
    s'.roster i = s.roster i := by
  unfold StoreState.roster
  rw [h.lookup]
  cases s.tenants.lookup i with
  | none => rfl
  | some t =>
    simp only [Option.map_some]
    split <;> rfl

theorem Grows.roster {t : Tenant} (h : s.Grows t s') (hwf : s.TreeWf) (i : Nat) : s'.roster i = s.roster i := by
  unfold StoreState.roster
  rw [h.lookup]
  split
  · rename_i hi
    subst hi
    simp [hwf.fresh, h.users]
  · rfl

theorem Drops.roster_sublist {keep : Session → Bool} {id : TenantId} {t : Tenant} (h : Drops keep s id t s') (i : Nat) :
    (s'.roster i).Sublist (s.roster i) := by
  unfold StoreState.roster
  rw [h.lookup]
  split
  · exact List.nil_sublist _
  · exact .refl _

end StoreState

open StoreState

/-- **What a call can do to the users**: rosters shrink, or one gains an entry with the next id and a new name. -/
theorem Effect.roster_cases {cr : Crypto} {s s' : StoreState} {op : Op} (hwf : s.TreeWf) (he : Effect cr s op s') :
    s'.nextUserId = s.nextUserId ∧ (∀ i, (s'.roster i).Sublist (s.roster i)) ∨
    ∃ k u, (∃ userName caps, op = .addUser ⟨k⟩ userName caps) ∧ s'.nextUserId = s.nextUserId + 1 ∧
      u.1 = ⟨s.nextUserId + 1⟩ ∧ (∀ v ∈ s.roster k, v.2 ≠ u.2) ∧
      ∀ i, s'.roster i = if i = k then s.roster k ++ [u] else s.roster i := by
  cases he with
  | same => exact .inl ⟨rfl, fun i => .refl _⟩
  | bumped => exact .inl ⟨rfl, fun i => .refl _⟩
  | grown hg => exact .inl ⟨by rw [hg.eq], fun i => by rw [hg.roster hwf]⟩
  | dropped hd => exact .inl ⟨by rw [hd.eq], hd.roster_sublist⟩
  | @userAdded tenant _ _ t u _ hr hid hnext hname =>
    refine .inr ⟨tenant.raw, (u.id, u.name), ⟨_, _, rfl⟩, hnext, hid, ?_, fun i => ?_⟩
    · rw [roster_of_lookup hr.live]
      intro v hv
      obtain ⟨w, hw, rfl⟩ := List.mem_map.1 hv
      exact hname w hw
    · rw [hr.roster, roster_of_lookup hr.live]
      simp
  | userRemoved hr hnext => exact .inl ⟨hnext, hr.roster_sublist (List.filter_sublist.map _)⟩
  | passwordSet hr hnext =>
    refine .inl ⟨hnext, hr.roster_sublist ?_⟩
    dsimp only
    rw [map_modify_same]
    exact fun _ => rfl
  | sessionMinted => exact .inl ⟨rfl, fun i => .refl _⟩
  | sessionsRetained => exact .inl ⟨rfl, fun i => .refl _⟩
  | rotated _ hr hnext =>
    refine .inl ⟨hnext, hr.roster_sublist ?_⟩
    rw [List.map_map, List.map_congr_left (g := fun u => (u.id, u.name)) (fun u _ => ?_)]
    simp only [Function.comp_apply]
    split <;> rfl
  | charged hr => exact .inl ⟨hr.nextUserId, fun i => by rw [hr.roster]⟩
  | released hr => exact .inl ⟨hr.nextUserId, fun i => by rw [hr.roster]⟩
  | takenApart hp =>
    left
    induction hp with
    | refl => exact ⟨rfl, fun i => .refl _⟩
    | tail _ hlast ih =>
      obtain ⟨id, t, hd⟩ := hlast
      exact ⟨by rw [hd.eq]; exact ih.1, fun i => (hd.roster_sublist i).trans (ih.2 i)⟩

/-! ## The index -/

/-- The two maps are inverse to each other, and what should be unique is. -/
structure StoreState.Coherent (s : StoreState) : Prop where
  inverse : ∀ n i, s.byName.lookup n = some i ↔ ∃ t, s.tenants.lookup i = some t ∧ t.id = ⟨i⟩ ∧ t.name = n
  tenantIds : ∀ i t, s.tenants.lookup i = some t → i ≤ s.nextTenantId
  userIds : ∀ i t u, s.tenants.lookup i = some t → u ∈ t.users → u.id.raw ≤ s.nextUserId
  userIdsNodup : ∀ i t, s.tenants.lookup i = some t → (t.users.map (·.id)).Nodup
  userIdsApart : ∀ i j t t' u u', s.tenants.lookup i = some t → s.tenants.lookup j = some t' → u ∈ t.users →
    u' ∈ t'.users → u.id = u'.id → i = j
  userNames : ∀ i t, s.tenants.lookup i = some t → (t.users.map (·.name)).Nodup
  tokens : (s.sessions.map (·.tokenHash)).Nodup

/-- The part of it that is about users, on the rosters. -/
structure StoreState.UsersWf (s : StoreState) : Prop where
  le : ∀ i, ∀ v ∈ s.roster i, v.1.raw ≤ s.nextUserId
  ids : ∀ i, ((s.roster i).map (·.1)).Nodup
  apart : ∀ i j, ∀ v ∈ s.roster i, ∀ w ∈ s.roster j, v.1 = w.1 → i = j
  names : ∀ i, ((s.roster i).map (·.2)).Nodup

namespace StoreState

variable {s s' : StoreState}

theorem UsersWf.of_sublist (h : s.UsersWf) (hnext : s'.nextUserId = s.nextUserId)
    (hsub : ∀ i, (s'.roster i).Sublist (s.roster i)) : s'.UsersWf where
  le i v hv := by
    rw [hnext]
    exact h.le i v ((hsub i).subset hv)
  ids i := (h.ids i).sublist ((hsub i).map _)
  apart i j v hv w hw := h.apart i j v ((hsub i).subset hv) w ((hsub j).subset hw)
  names i := (h.names i).sublist ((hsub i).map _)

theorem UsersWf.of_joined (h : s.UsersWf) {k : Nat} {u : UserId × String} (hnext : s'.nextUserId = s.nextUserId + 1)
    (hid : u.1 = ⟨s.nextUserId + 1⟩) (hname : ∀ v ∈ s.roster k, v.2 ≠ u.2)
    (hros : ∀ i, s'.roster i = if i = k then s.roster k ++ [u] else s.roster i) : s'.UsersWf := by
  -- the new id is above every id in use
  have hfresh : ∀ i, ∀ v ∈ s.roster i, v.1 ≠ u.1 := by
    intro i v hv he
    have := h.le i v hv
    rw [he, hid] at this
    simp at this
  have hmem : ∀ i v, v ∈ s'.roster i → v ∈ s.roster i ∨ i = k ∧ v = u := by
    intro i v hv
    rw [hros] at hv
    split at hv
    · rename_i hi
      rcases List.mem_append.1 hv with hv | hv
      · exact .inl (hi ▸ hv)
      · exact .inr ⟨hi, List.mem_singleton.1 hv⟩
    · exact .inl hv
  constructor
  · intro i v hv
    rw [hnext]
    rcases hmem i v hv with hv | ⟨-, rfl⟩
    · exact Nat.le_succ_of_le (h.le i v hv)
    · simp [hid]
  · intro i
    rw [hros]
    split
    · rw [List.map_append, List.map_singleton, List.nodup_append]
      refine ⟨h.ids k, by simp, ?_⟩
      rintro a ha b hb rfl
      obtain ⟨v, hv, hva⟩ := List.mem_map.1 ha
      rw [List.mem_singleton] at hb
      exact hfresh k v hv (hva.trans hb)
    · exact h.ids i
  · intro i j v hv w hw he
    rcases hmem i v hv with hv | ⟨rfl, rfl⟩ <;> rcases hmem j w hw with hw | ⟨rfl, rfl⟩
    · exact h.apart i j v hv w hw he
    · exact absurd he (hfresh i v hv)
    · exact absurd he.symm (hfresh j w hw)
    · rfl
  · intro i
    rw [hros]
    split
    · rw [List.map_append, List.map_singleton, List.nodup_append]
      refine ⟨h.names k, by simp, ?_⟩
      rintro a ha b hb rfl
      obtain ⟨v, hv, hva⟩ := List.mem_map.1 ha
      rw [List.mem_singleton] at hb
      exact hname v hv (hva.trans hb)
    · exact h.names i

end StoreState

theorem Effect.usersWf {cr : Crypto} {s s' : StoreState} {op : Op} (hwf : s.TreeWf) (h : s.UsersWf)
    (he : Effect cr s op s') : s'.UsersWf := by
  rcases he.roster_cases hwf with ⟨hnext, hsub⟩ | ⟨k, u, -, hnext, hid, hname, hros⟩
  · exact h.of_sublist hnext hsub
  · exact h.of_joined hnext hid hname hros

/-- **What a call can do to the sessions**: some go, or one is added whose token hash no other has. -/
theorem Effect.sessions_cases {cr : Crypto} {s s' : StoreState} {op : Op} (he : Effect cr s op s') :
    s'.sessions.Sublist s.sessions ∨
    ∃ ss, s'.sessions = s.sessions.filter (fun x => x.tokenHash ≠ ss.tokenHash) ++ [ss] := by
  cases he with
  | same => exact .inl (.refl _)
  | bumped => exact .inl (.refl _)
  | grown hg => exact .inl (by rw [hg.eq])
  | dropped hd => exact .inl (by rw [hd.eq]; exact List.filter_sublist)
  | userAdded hr => exact .inl (by rw [hr.sessions]; exact List.filter_sublist)
  | userRemoved hr => exact .inl (by rw [hr.sessions]; exact List.filter_sublist)
  | passwordSet hr => exact .inl (by rw [hr.sessions]; exact List.filter_sublist)
  | sessionMinted => exact .inr ⟨_, rfl⟩
  | sessionsRetained => exact .inl List.filter_sublist
  | rotated _ hr => exact .inl (by rw [hr.sessions]; exact List.filter_sublist)
  | charged hr => exact .inl (by rw [hr.sessions])
  | released hr => exact .inl (by rw [hr.sessions])
  | takenApart hp =>
    left
    induction hp with
    | refl => exact .refl _
    | tail _ hlast ih =>
      obtain ⟨id, t, hd⟩ := hlast
      rw [hd.eq]
      exact List.filter_sublist.trans ih

theorem Effect.tokens {cr : Crypto} {s s' : StoreState} {op : Op} (h : (s.sessions.map (·.tokenHash)).Nodup)
    (he : Effect cr s op s') : (s'.sessions.map (·.tokenHash)).Nodup := by
  rcases he.sessions_cases with hsub | ⟨ss, hss⟩
  · exact h.sublist (hsub.map _)
  · rw [hss, List.map_append, List.map_singleton, List.nodup_append]
    refine ⟨h.sublist (List.filter_sublist.map _), by simp, ?_⟩
    rintro a ha b hb rfl
    obtain ⟨x, hx, hxa⟩ := List.mem_map.1 ha
    rw [List.mem_singleton] at hb
    simpa [hxa, hb] using (List.mem_filter.1 hx).2

theorem coherent_of_wf {s : StoreState} (hwf : s.TreeWf) (hu : s.UsersWf) (ht : (s.sessions.map (·.tokenHash)).Nodup) :
    s.Coherent where
  inverse n i := by
    rw [hwf.names]
    exact ⟨fun ⟨t, h, hn⟩ => ⟨t, h, (hwf.ids i t h).1, hn⟩, fun ⟨t, h, _, hn⟩ => ⟨t, h, hn⟩⟩
  tenantIds i t h := (hwf.ids i t h).2
  userIds i t u h hmem := hu.le i (u.id, u.name) (by rw [roster_of_lookup h]; exact List.mem_map_of_mem hmem)
  userIdsNodup i t h := by
    have := hu.ids i
    rwa [roster_of_lookup h, List.map_map] at this
  userIdsApart i j t t' u u' h h' hmem hmem' :=
    hu.apart i j (u.id, u.name) (by rw [roster_of_lookup h]; exact List.mem_map_of_mem hmem)
      (u'.id, u'.name) (by rw [roster_of_lookup h']; exact List.mem_map_of_mem hmem')
  userNames i t h := by
    have := hu.names i
    rwa [roster_of_lookup h, List.map_map] at this
  tokens := ht

/-! ## Ids over all time -/

/-- The id a `create` answered. -/
def createdTenant : CelResult Reply → Option Nat
  | .ok (.tenant t) => some t.id.raw
  | _               => none

/-- The id an `add_user` answered. -/
def addedUser : CelResult Reply → Option Nat
  | .ok (.user u) => some u.id.raw
  | _             => none

theorem issue_answer {issue : CelResult Reply → Option Nat} {α : Type} {reply : α → Reply}
    (herr : ∀ e, issue (.error e) = none) (h : ∀ x, issue (.ok (reply x)) = none) (r : CelResult α × StoreState) :
    issue (answer reply r).1 = none := by
  rcases r with ⟨e | x, s⟩
  · exact herr e
  · exact h x

/-- Only `create` answers a tenant, and then under the next id. -/
theorem createdTenant_step {cr : Crypto} {s : StoreState} {op : Op} {k : Nat}
    (h : createdTenant (step cr s op).1 = some k) : ∃ t, s.Grows t (step cr s op).2 ∧ k = s.nextTenantId + 1 := by
  cases op with
  | create spec rootCaps =>
    rcases s.create_cases spec rootCaps with ⟨e, he, -⟩ | ⟨e, he, -⟩ | ⟨t, s', he, -, hg, -⟩ <;>
      simp only [step, he] at h ⊢ <;> simp only [answer, Except.map, createdTenant, reduceCtorEq] at h
    rw [hg.id] at h
    exact ⟨t, hg, (Option.some.inj h).symm⟩
  | purgeExpiredSessions nowMs => cases h
  | _ =>
    simp only [step] at h
    cases h.symm.trans (issue_answer (fun _ => rfl) (fun _ => rfl) _)

/-- Only `add_user` answers a user, and then under the next id. -/
theorem addedUser_step {cr : Crypto} {s : StoreState} {op : Op} {k : Nat} (h : addedUser (step cr s op).1 = some k) :
    k = s.nextUserId + 1 ∧ (step cr s op).2.nextUserId = s.nextUserId + 1 := by
  cases op with
  | addUser tenant userName requestedCaps =>
    rcases s.addUser_cases tenant userName requestedCaps with ⟨e, he⟩ | ⟨t, u, s', he, -, hid, hn, -⟩ <;>
      simp only [step, he] at h ⊢ <;> simp only [answer, Except.map, addedUser, reduceCtorEq] at h
    rw [hid] at h
    exact ⟨(Option.some.inj h).symm, hn⟩
  | purgeExpiredSessions nowMs => cases h
  | _ =>
    simp only [step] at h
    cases h.symm.trans (issue_answer (fun _ => rfl) (fun _ => rfl) _)

/-- The counters only grow. -/
theorem Effect.counters {cr : Crypto} {s s' : StoreState} {op : Op} (hwf : s.TreeWf) (he : Effect cr s op s') :
    s.nextTenantId ≤ s'.nextTenantId ∧ s.nextUserId ≤ s'.nextUserId := by
  constructor
  · cases he with
    | bumped => exact Nat.le_succ _
    | grown hg => rw [hg.eq]; exact Nat.le_succ _
    | dropped hd => rw [hd.eq]
    | userAdded hr => rw [hr.nextTenantId]
    | userRemoved hr => rw [hr.nextTenantId]
    | passwordSet hr => rw [hr.nextTenantId]
    | rotated _ hr => rw [hr.nextTenantId]
    | charged hr => rw [hr.nextTenantId]
    | released hr => rw [hr.nextTenantId]
    | takenApart hp =>
      induction hp with
      | refl => exact le_rfl
      | tail _ hlast ih =>
        obtain ⟨id, t, hd⟩ := hlast
        rw [hd.eq]
        exact ih
    | _ => exact le_rfl
  · rcases he.roster_cases hwf with ⟨hnext, -⟩ | ⟨k, u, -, hnext, -⟩ <;> omega

/-- A tenant that is there after a call was there before it, or the call was a `create`. -/
theorem Effect.live_cases {cr : Crypto} {s s' : StoreState} {op : Op} (he : Effect cr s op s') {i : Nat} {t' : Tenant}
    (h : s'.tenants.lookup i = some t') :
    (∃ t, s.tenants.lookup i = some t) ∨ ∃ spec rootCaps, op = .create spec rootCaps := by
  cases he with
  | grown hg => exact .inr ⟨_, _, rfl⟩
  | dropped hd => exact .inl ⟨t', (hd.back h).2⟩
  | userAdded hr => exact .inl (hr.sameIndex.live h)
  | userRemoved hr => exact .inl (hr.sameIndex.live h)
  | passwordSet hr => exact .inl (hr.sameIndex.live h)
  | rotated _ hr => exact .inl (hr.sameIndex.live h)
  | charged hr => exact .inl (hr.sameIndex.live h)
  | released hr => exact .inl (hr.sameIndex.live h)
  | takenApart hp =>
    left
    induction hp with
    | refl => exact ⟨t', h⟩
    | tail _ hlast ih =>
      obtain ⟨id, t, hd⟩ := hlast
      exact ih (hd.back h).2
  | _ => exact .inl ⟨t', h⟩

/-- A tenant is there after a call because it was there, or because the call answered its id. -/
theorem live_or_created {cr : Crypto} {s : StoreState} (hwf : s.TreeWf) (op : Op) {i : Nat}
    (h : ∃ t, (step cr s op).2.tenants.lookup i = some t) :
    (∃ t, s.tenants.lookup i = some t) ∨ createdTenant (step cr s op).1 = some i := by
  obtain ⟨t', ht'⟩ := h
  rcases (step_effect cr hwf op).live_cases ht' with h | ⟨spec, rootCaps, rfl⟩
  · exact .inl h
  · rcases s.create_cases spec rootCaps with ⟨e, he, -⟩ | ⟨e, he, -⟩ | ⟨t, s', he, -, hg, -⟩ <;>
      simp only [step, answer_snd, he] at ht'
    · exact .inl ⟨t', ht'⟩
    · exact .inl ⟨t', ht'⟩
    · rw [hg.lookup] at ht'
      split at ht'
      · rename_i hi
        refine .inr ?_
        simp only [step, he, answer, Except.map, createdTenant, hg.id, hi]
      · exact .inl ⟨t', ht'⟩

/-- A user is there after a call because it was there, or because the call answered its id. -/
theorem user_or_added {cr : Crypto} {s : StoreState} (hwf : s.TreeWf) (op : Op) {k : Nat}
    (h : ∃ i, ∃ v ∈ (step cr s op).2.roster i, v.1.raw = k) :
    (∃ i, ∃ v ∈ s.roster i, v.1.raw = k) ∨ addedUser (step cr s op).1 = some k := by
  obtain ⟨i, v, hv, rfl⟩ := h
  rcases (step_effect cr hwf op).roster_cases hwf with ⟨-, hsub⟩ | ⟨j, u, ⟨userName, caps, rfl⟩, hnext, hid, -, hros⟩
  · exact .inl ⟨i, v, (hsub i).subset hv, rfl⟩
  · rw [hros] at hv
    split at hv
    · rcases List.mem_append.1 hv with hv | hv
      · exact .inl ⟨j, v, hv, rfl⟩
      · obtain rfl := List.mem_singleton.1 hv
        rcases s.addUser_cases ⟨j⟩ userName caps with ⟨e, he⟩ | ⟨t, u', s', he, -, hid', -⟩
        · simp [step, he] at hnext
        · refine .inr ?_
          simp only [step, he, answer, Except.map, addedUser, hid, hid']
    · exact .inl ⟨i, v, hv, rfl⟩

/-- **The index of every reachable store is coherent, and no id is ever handed out twice.**  The ids that `create` and
`add_user` answered along the run are all different, are at most the counters, and include every id in use. -/
theorem index_coherent (cr : Crypto) (ops : List Op) :
    let s := run (step cr) default ops
    let tenantIds := (answers (step cr) default ops).filterMap createdTenant
    let userIds := (answers (step cr) default ops).filterMap addedUser
    s.Coherent ∧
    (tenantIds.Nodup ∧ (∀ k ∈ tenantIds, k ≤ s.nextTenantId) ∧
      ∀ i t, s.tenants.lookup i = some t → i ∈ tenantIds) ∧
    (userIds.Nodup ∧ (∀ k ∈ userIds, k ≤ s.nextUserId) ∧
      ∀ i t u, s.tenants.lookup i = some t → u ∈ t.users → u.id.raw ∈ userIds) := by
  intro s tenantIds userIds
  have husers : s.UsersWf := inv_of_effect cr ⟨by simp [roster, default], by simp [roster, default],
    by simp [roster, default], by simp [roster, default]⟩ (fun _ _ _ hwf h he => he.usersWf hwf h) ops
  have htokens : (s.sessions.map (·.tokenHash)).Nodup :=
    inv_of_effect (I := fun s => (s.sessions.map (·.tokenHash)).Nodup) cr (by simp [default])
      (fun _ _ _ _ h he => he.tokens h) ops
  obtain ⟨htinc, -, htle⟩ := issued_increasing createdTenant nextTenantId (step_treeWf cr)
    (fun s op hwf => ⟨((step_effect cr hwf op).counters hwf).1, fun k hk => by
      obtain ⟨t, hg, rfl⟩ := createdTenant_step hk
      rw [hg.eq]
      exact ⟨Nat.lt_succ_self _, le_rfl⟩⟩) treeWf_default ops
  obtain ⟨huinc, -, hule⟩ := issued_increasing addedUser nextUserId (step_treeWf cr)
    (fun s op hwf => ⟨((step_effect cr hwf op).counters hwf).2, fun k hk => by
      obtain ⟨rfl, hn⟩ := addedUser_step hk
      rw [hn]
      exact ⟨Nat.lt_succ_self _, le_rfl⟩⟩) treeWf_default ops
  refine ⟨coherent_of_wf (run_treeWf cr ops) husers htokens, ⟨?_, fun k hk => (htle k hk).2, fun i t ht => ?_⟩,
    ?_, fun k hk => (hule k hk).2, fun i t u ht hu => ?_⟩
  · exact htinc.imp Nat.ne_of_lt
  · exact (held_or_issued createdTenant (fun s i => ∃ t, s.tenants.lookup i = some t) (step_treeWf cr)
      (fun s op k hwf => live_or_created hwf op) treeWf_default ops ⟨t, ht⟩).resolve_left
        (fun ⟨t, ht⟩ => by cases ht)
  · exact huinc.imp Nat.ne_of_lt
  · refine (held_or_issued addedUser (fun s k => ∃ i, ∃ v ∈ s.roster i, v.1.raw = k) (step_treeWf cr)
      (fun s op k hwf => user_or_added hwf op) treeWf_default ops
      ⟨i, (u.id, u.name), by rw [roster_of_lookup ht]; exact List.mem_map_of_mem hu, rfl⟩).resolve_left ?_
    rintro ⟨i, v, hv, -⟩
    simp [roster, default] at hv

end Celium
