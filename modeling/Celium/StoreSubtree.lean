import Celium.StoreTree
/-!
# StoreSubtree — the recursive delete takes a subtree apart leaf by leaf

`TreeWf` is what the hierarchy of every reachable store satisfies.  Under it `walk` lists a subtree of at most 65 levels
with each tenant after its children, whatever order the map iterates in, so the mutation pass of
`delete_tenant_recursive` only ever removes a tenant that no live tenant names as its parent.
-/
namespace Celium

open Fixed Forest

namespace StoreState

/-- The index and the hierarchy are in order: a record sits under its own id, names are valid and `by_name` is their
inverse, and a parent is live and older than its child. -/
structure TreeWf (s : StoreState) : Prop where
  ids : ∀ i t, s.tenants.lookup i = some t → t.id = ⟨i⟩ ∧ i ≤ s.nextTenantId
  names : ∀ n i, s.byName.lookup n = some i ↔ ∃ t, s.tenants.lookup i = some t ∧ t.name = n
  valid : ∀ i t, s.tenants.lookup i = some t → validateSegment t.name = .ok ()
  parents : ∀ i t p, s.tenants.lookup i = some t → t.parent = some p →
    (∃ pt, s.tenants.lookup p.raw = some pt) ∧ p.raw < i

variable {s s' : StoreState} {ord : HashOrder Tenant} {root : TenantId} {l out : List TenantId}

theorem TreeWf.rooted (h : s.TreeWf) : Rooted s.up := by
  refine rooted_of_rank TenantId.raw fun i p hp => ?_
  obtain ⟨t, ht, hpar⟩ := edge_iff.1 hp
  obtain ⟨hlive, hlt⟩ := h.parents i.raw t p ht hpar
  exact ⟨up_isSome.2 hlive, hlt⟩

/-! ## The walk -/

theorem mem_kidsOf (h : s.TreeWf) (ord : HashOrder Tenant) (k : TenantId) : k ∈ s.kidsOf ord root ↔ Edge s.up k root := by
  simp only [kidsOf, List.mem_map, List.mem_filter, (ord.perm s.values).mem_iff, beq_iff_eq, edge_iff]
  simp only [values, Assoc.mem_values]
  constructor
  · rintro ⟨t, ⟨⟨i, hi⟩, hp⟩, rfl⟩
    exact ⟨t, by rw [(h.ids i t hi).1]; exact hi, hp⟩
  · rintro ⟨t, ht, hp⟩
    exact ⟨t, ⟨⟨k.raw, ht⟩, hp⟩, (h.ids k.raw t ht).1⟩

theorem nodup_kidsOf (h : s.TreeWf) (ord : HashOrder Tenant) : (s.kidsOf ord root).Nodup := by
  have hall : (s.values.map (·.id.raw)).Nodup :=
    Assoc.nodup_map_values s.tenants (fun i t ht => by rw [(h.ids i t ht).1])
  have hids : (s.values.map (·.id)).Nodup :=
    List.Nodup.of_map TenantId.raw (by rw [List.map_map]; exact hall)
  exact ((((ord.perm s.values).map (·.id)).nodup_iff.2 hids).sublist (List.filter_sublist.map _))

/-- Walking the children one after another. -/
theorem foldlM_walk {left : Nat}
    (ih : ∀ k out, (Shallow s.up left k → ∃ l, s.walk ord left k out = .ok (out ++ l) ∧ PostOrder s.up left k l) ∧
      (¬ Shallow s.up left k → s.walk ord left k out = .error (.internal "tenant hierarchy too deep")))
    (ks : List TenantId) (out : List TenantId) :
    ((∀ k ∈ ks, Shallow s.up left k) → ∃ ls, ks.foldlM (fun out k => s.walk ord left k out) out =
      .ok (out ++ ls.flatten) ∧ List.Forall₂ (PostOrder s.up left) ks ls) ∧
    ((∃ k ∈ ks, ¬ Shallow s.up left k) → ks.foldlM (fun out k => s.walk ord left k out) out =
      .error (.internal "tenant hierarchy too deep")) := by
  induction ks generalizing out with
  | nil => exact ⟨fun _ => ⟨[], by simp [pure, Except.pure], .nil⟩, by simp⟩
  | cons k ks ihks =>
    rw [List.foldlM_cons]
    by_cases hk : Shallow s.up left k
    · obtain ⟨l, hl, hpost⟩ := (ih k out).1 hk
      rw [hl]
      constructor
      · intro hall
        obtain ⟨ls, hls, hrest⟩ := (ihks (out ++ l)).1 (fun k' hk' => hall k' (by simp [hk']))
        exact ⟨l :: ls, by simpa [bind, Except.bind] using hls, .cons hpost hrest⟩
      · rintro ⟨k', hk', hdeep⟩
        rcases List.mem_cons.1 hk' with rfl | hk'
        · exact absurd hk hdeep
        · exact (ihks (out ++ l)).2 ⟨k', hk', hdeep⟩
    · rw [(ih k out).2 hk]
      exact ⟨fun hall => absurd (hall k (by simp)) hk, fun _ => rfl⟩

/-- **`walk` lists a subtree of at most `left` levels in post-order, and gives up on a deeper one.** -/
theorem walk_spec (h : s.TreeWf) (ord : HashOrder Tenant) (left : Nat) (root : TenantId) (out : List TenantId) :
    (Shallow s.up left root → ∃ l, s.walk ord left root out = .ok (out ++ l) ∧ PostOrder s.up left root l) ∧
    (¬ Shallow s.up left root → s.walk ord left root out = .error (.internal "tenant hierarchy too deep")) := by
  induction left generalizing root out with
  | zero => exact ⟨fun hs => hs.elim, fun _ => rfl⟩
  | succ left ih =>
    obtain ⟨hok, hdeep⟩ := foldlM_walk (fun k out => ih k out) (s.kidsOf ord root) out
    constructor
    · intro hs
      obtain ⟨ls, hls, hpost⟩ := hok (fun k hk => hs k ((mem_kidsOf h ord k).1 hk))
      refine ⟨ls.flatten ++ [root], ?_, s.kidsOf ord root, ls, mem_kidsOf h ord, nodup_kidsOf h ord, hpost, rfl⟩
      unfold walk
      rw [hls]
      simp
    · intro hs
      simp only [Shallow, not_forall] at hs
      obtain ⟨k, hk, hkd⟩ := hs
      unfold walk
      rw [hdeep ⟨k, (mem_kidsOf h ord k).2 hk, hkd⟩]

/-! ## The two passes over the subtree -/

theorem checkUnused_cases (l : List TenantId) (hlive : ∀ i ∈ l, ∃ t, s.tenants.lookup i.raw = some t) :
    (s.checkUnused l = .error (.invalid "tenant in use") ∧
      ∃ i ∈ l, ∃ t, s.tenants.lookup i.raw = some t ∧ t.usage ≠ default) ∨
    s.checkUnused l = .ok () ∧ ∀ i ∈ l, ∃ t, s.tenants.lookup i.raw = some t ∧ t.usage = default := by
  induction l with
  | nil => exact .inr ⟨rfl, by simp⟩
  | cons tid rest ih =>
    obtain ⟨t, ht⟩ := hlive tid (by simp)
    simp only [checkUnused, ht]
    split
    · rename_i hu
      exact .inl ⟨rfl, tid, by simp, t, ht, hu⟩
    · rename_i hu
      rcases ih (fun i hi => hlive i (by simp [hi])) with ⟨he, i, hi, hbad⟩ | ⟨hok, hall⟩
      · exact .inl ⟨he, i, by simp [hi], hbad⟩
      · refine .inr ⟨hok, fun i hi => ?_⟩
        rcases List.mem_cons.1 hi with rfl | hi
        · exact ⟨t, ht, not_not.1 hu⟩
        · exact hall i hi

/-- **The mutation pass removes one leaf after another**, on a list whose tenants are live and unused and in which each
tenant comes after its children. -/
theorem removeAll_spec (l : List TenantId) (report : DeleteReport) (s : StoreState) (hnd : l.Nodup)
    (hunused : ∀ i ∈ l, ∃ t, s.tenants.lookup i.raw = some t ∧ t.usage = default)
    (hleaf : ∀ pre x post, l = pre ++ x :: post → ∀ j c, s.tenants.lookup j = some c → c.parent = some x → ⟨j⟩ ∈ pre) :
    ∃ report' s', removeAll l report s = (.ok report', s') ∧ Relation.ReflTransGen Prunes s s' := by
  induction l generalizing report s with
  | nil => exact ⟨report, s, rfl, .refl⟩
  | cons tid rest ih =>
    rw [List.nodup_cons] at hnd
    obtain ⟨t, ht, hu⟩ := hunused tid (by simp)
    obtain ⟨s₁, hs₁⟩ : ∃ s₁ : StoreState, s₁ =
      { s with tenants := s.tenants.erase tid.raw, byName := s.byName.erase t.name,
               sessions := s.sessions.filter (fun ss => ss.tenant ≠ tid) } := ⟨_, rfl⟩
    have hdrop : Drops (fun ss => ss.tenant ≠ tid) s tid t s₁ :=
      ⟨ht, fun j c hc hp => by simpa using hleaf [] tid rest rfl j c hc hp, hu, hs₁⟩
    have hlook : ∀ j, s₁.tenants.lookup j = if j = tid.raw then none else s.tenants.lookup j := by
      intro j
      rw [hs₁]
      exact Assoc.lookup_erase_ite s.tenants tid.raw j
    have hunused' : ∀ i ∈ rest, ∃ t, s₁.tenants.lookup i.raw = some t ∧ t.usage = default := by
      intro i hi
      have hne : i.raw ≠ tid.raw := fun he => hnd.1 (TenantId.ext he ▸ hi)
      rw [hlook, if_neg hne]
      exact hunused i (by simp [hi])
    have hleaf' : ∀ pre x post, rest = pre ++ x :: post →
        ∀ j c, s₁.tenants.lookup j = some c → c.parent = some x → ⟨j⟩ ∈ pre := by
      intro pre x post hs j c hc hp
      rw [hlook] at hc
      split at hc
      · cases hc
      rename_i hne
      have hmem := hleaf (tid :: pre) x post (by rw [hs]; rfl) j c hc hp
      rcases List.mem_cons.1 hmem with he | hmem
      · exact absurd (congrArg TenantId.raw he) hne
      · exact hmem
    obtain ⟨report', s', hrun, hpr⟩ := ih
      { report with revokedSessions := report.revokedSessions + (s.retainSessions (fun ss => ss.tenant ≠ tid)).1,
                    droppedUsers := report.droppedUsers + t.users.length,
                    deletedTenants := report.deletedTenants ++ [(tid, t.name)] } s₁ hnd.2 hunused' hleaf'
    refine ⟨report', s', ?_, .head ⟨tid, t, hdrop⟩ hpr⟩
    simp only [removeAll, retainSessions, ht]
    rw [← hrun, hs₁]
    rfl

/-- **What `delete_tenant_recursive` does**: it refuses and changes nothing, or it removes leaf after leaf.  It answers
`Internal` only on a live tenant whose subtree has more than 65 levels. -/
theorem deleteTenantRecursive_cases (h : s.TreeWf) (tenant : TenantId) (ord : HashOrder Tenant) :
    (∃ e, s.deleteTenantRecursive tenant ord = (.error e, s) ∧
      (e.isInternal = true ↔ (s.up tenant).isSome ∧ ¬ Shallow s.up 65 tenant)) ∨
    (∃ report s', s.deleteTenantRecursive tenant ord = (.ok report, s') ∧ Relation.ReflTransGen Prunes s s' ∧
      Shallow s.up 65 tenant) := by
  unfold deleteTenantRecursive
  split
  · rename_i hnone
    refine .inl ⟨_, rfl, ?_⟩
    simp [CelError.isInternal, up, Option.isNone_iff_eq_none.1 hnone]
  rename_i hlive
  have hlive : (s.up tenant).isSome := by
    rw [up_isSome]
    exact Option.isSome_iff_exists.1 (Option.isSome_iff_ne_none.2 (by simpa using hlive))
  obtain ⟨hok, hdeep⟩ := walk_spec h ord 65 tenant []
  by_cases hs : Shallow s.up 65 tenant
  · obtain ⟨l, hl, hpost⟩ := hok hs
    have hta := hpost.takesApart h.rooted
    rw [List.nil_append] at hl
    rw [hl]
    have hllive : ∀ i ∈ l, ∃ t, s.tenants.lookup i.raw = some t :=
      fun i hi => up_isSome.1 (((hta.mem i).1 hi).live hlive)
    rcases checkUnused_cases l hllive with ⟨he, -⟩ | ⟨hunused, hall⟩
    · exact .inl ⟨.invalid "tenant in use", by simp [he], by simp [CelError.isInternal, hs]⟩
    · have hleaf : ∀ pre x post, l = pre ++ x :: post →
          ∀ j c, s.tenants.lookup j = some c → c.parent = some x → ⟨j⟩ ∈ pre :=
        fun pre x post hs j c hc hp => hta.leaf pre x post hs ⟨j⟩ (edge_iff.2 ⟨c, hc, hp⟩)
      obtain ⟨report, s', hrun, hpr⟩ := removeAll_spec l default s hta.nodup hall hleaf
      exact .inr ⟨report, s', by simp [hunused, hrun], hpr, hs⟩
  · rw [hdeep hs]
    exact .inl ⟨_, rfl, by simp [CelError.isInternal, hlive, hs]⟩

end StoreState

end Celium
