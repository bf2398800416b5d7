import Celium.StoreReach
/-!
# StoreUproot — the recursive delete removes exactly a subtree

The mutation pass of `delete_tenant_recursive` over any list of distinct live tenants leaves the store without them, and
reports them in the order of the list (`removeAll_eq`).  The list is the subtree in post-order; another iteration order
of the map gives the same tenants in another order of siblings, so the same store and the same counts.
-/
namespace Celium

open Fixed Forest Runs StoreState

namespace StoreState

variable {s s' : StoreState} {tenant : TenantId} {ord : HashOrder Tenant} {l l' : List TenantId}

def nameOf (s : StoreState) (i : TenantId) : String := ((s.tenants.lookup i.raw).map (·.name)).getD ""

def userCount (s : StoreState) (i : TenantId) : Nat := ((s.tenants.lookup i.raw).map (·.users.length)).getD 0

/-- The users of all tenants together. -/
def userTotal (s : StoreState) : Nat := (s.tenants.entries.map (fun e => e.2.users.length)).sum

/-- The store without the tenants in `l`, their names and their sessions. -/
def without (s : StoreState) (l : List TenantId) : StoreState :=
  { s with tenants := (l.map (·.raw)).foldl (fun m k => m.erase k) s.tenants,
           byName := (l.map s.nameOf).foldl (fun m k => m.erase k) s.byName,
           sessions := s.sessions.filter (fun ss => ss.tenant ∉ l) }

/-- What a report says once the tenants in `l` are removed as well. -/
def reported (s : StoreState) (report : DeleteReport) (l : List TenantId) : DeleteReport where
  deletedTenants := report.deletedTenants ++ l.map (fun i => (i, s.nameOf i))
  revokedSessions := report.revokedSessions + (s.sessions.filter (fun ss => ss.tenant ∈ l)).length
  droppedUsers := report.droppedUsers + (l.map s.userCount).sum

theorem lookup_without (s : StoreState) (l : List TenantId) (i : TenantId) :
    (s.without l).tenants.lookup i.raw = if i ∈ l then none else s.tenants.lookup i.raw := by
  have hmem : i.raw ∈ l.map (·.raw) ↔ i ∈ l := by
    rw [List.mem_map]
    exact ⟨fun ⟨j, hj, hji⟩ => TenantId.ext hji ▸ hj, fun hi => ⟨i, hi, rfl⟩⟩
  rw [without]
  dsimp only
  rw [Assoc.lookup_foldl_erase]
  simp only [hmem]

theorem lookup_without_other (s : StoreState) {i : TenantId} (hi : i ∉ l) :
    ∀ j ∈ l, (s.without [i]).tenants.lookup j.raw = s.tenants.lookup j.raw := by
  intro j hj
  have hne : j ∉ [i] := by
    intro hji
    exact hi (List.mem_singleton.1 hji ▸ hj)
  rw [lookup_without, if_neg hne]

theorem without_cons (s : StoreState) {i : TenantId} (hi : i ∉ l) : (s.without [i]).without l = s.without (i :: l) := by
  have hnames : l.map (s.without [i]).nameOf = l.map s.nameOf := by
    refine List.map_congr_left fun j hj => ?_
    rw [nameOf, lookup_without_other s hi j hj, nameOf]
  rw [without, hnames]
  simp only [without, List.map_cons, List.map_nil, List.foldl_cons, List.foldl_nil, List.filter_filter,
    List.mem_cons, not_or]
  congr 2
  funext ss
  simp [Bool.and_comm]

theorem without_perm (s : StoreState) (h : l.Perm l') : s.without l = s.without l' := by
  have hsessions : (fun ss : Session => decide (ss.tenant ∉ l)) = fun ss => decide (ss.tenant ∉ l') := by
    funext ss
    simp only [h.mem_iff]
  rw [without, without, Assoc.foldl_erase_perm (h.map (·.raw)), Assoc.foldl_erase_perm (h.map s.nameOf), hsessions]

/-- The sessions of one tenant, then those of the others. -/
theorem revoked_cons (ss : List Session) (i : TenantId) (l : List TenantId) :
    ss.length - (ss.filter (fun x => x.tenant ≠ i)).length +
      ((ss.filter (fun x => x.tenant ≠ i)).filter (fun x => x.tenant ∈ l)).length =
    (ss.filter (fun x => x.tenant ∈ i :: l)).length := by
  induction ss with
  | nil => rfl
  | cons x ss ih =>
    have hle := List.length_filter_le (fun x : Session => decide (x.tenant ≠ i)) ss
    by_cases hx : x.tenant = i
    · simp only [hx, List.filter_cons, List.length_cons, ne_eq, not_true_eq_false, decide_false, List.mem_cons, true_or,
        decide_true, if_true, Bool.false_eq_true, if_false] at ih hle ⊢
      omega
    · by_cases hl : x.tenant ∈ l <;>
      · simp only [hx, hl, List.filter_cons, List.length_cons, ne_eq, not_false_eq_true, decide_true, decide_false,
          List.mem_cons, false_or, if_true, Bool.false_eq_true, if_false] at ih hle ⊢
        omega

/-- **The mutation pass removes the tenants of its list**, distinct and live, and reports them in its order. -/
theorem removeAll_eq (l : List TenantId) (report : DeleteReport) (s : StoreState) (hnd : l.Nodup)
    (hlive : ∀ i ∈ l, ∃ t, s.tenants.lookup i.raw = some t) :
    removeAll l report s = (.ok (s.reported report l), s.without l) := by
  induction l generalizing report s with
  | nil => simp [removeAll, reported, without]
  | cons i l ih =>
    rw [List.nodup_cons] at hnd
    obtain ⟨t, ht⟩ := hlive i (by simp)
    have hname : s.nameOf i = t.name := by rw [nameOf, ht]; rfl
    have husers : s.userCount i = t.users.length := by rw [userCount, ht]; rfl
    have hsame := lookup_without_other s hnd.1
    have hlive' : ∀ j ∈ l, ∃ t, (s.without [i]).tenants.lookup j.raw = some t := by
      intro j hj
      rw [hsame j hj]
      exact hlive j (by simp [hj])
    have hstep : removeAll (i :: l) report s = removeAll l (s.reported report [i]) (s.without [i]) := by
      have hrev := revoked_cons s.sessions i []
      simp only [List.not_mem_nil, decide_false, List.filter_false, List.length_nil, Nat.add_zero] at hrev
      simp only [removeAll, retainSessions, ht]
      congr 1
      · simp only [reported, hname, husers, List.map_cons, List.map_nil, List.sum_cons, List.sum_nil, Nat.add_zero, hrev]
      · simp only [without, List.map_cons, List.map_nil, List.foldl_cons, List.foldl_nil, hname, List.mem_singleton]
    have hreport : (s.without [i]).reported (s.reported report [i]) l = s.reported report (i :: l) := by
      have hnames : l.map (fun j => (j, (s.without [i]).nameOf j)) = l.map (fun j => (j, s.nameOf j)) :=
        List.map_congr_left fun j hj => by rw [nameOf, hsame j hj, nameOf]
      have hcounts : l.map (s.without [i]).userCount = l.map s.userCount :=
        List.map_congr_left fun j hj => by rw [userCount, hsame j hj, userCount]
      have hrev := revoked_cons s.sessions i l
      have hone := revoked_cons s.sessions i []
      simp only [List.not_mem_nil, decide_false, List.filter_false, List.length_nil, Nat.add_zero] at hone
      have hsess : (s.without [i]).sessions = s.sessions.filter (fun x => x.tenant ≠ i) := by
        simp [without]
      rw [hone] at hrev
      rw [reported, hnames, hcounts, hsess]
      simp only [reported, List.map_cons, List.map_nil, List.sum_cons, List.sum_nil, List.append_assoc,
        List.cons_append, List.nil_append, ← hrev]
      congr 1 <;> omega
    rw [hstep, ih (s.reported report [i]) (s.without [i]) hnd.2 hlive', hreport, without_cons s hnd.1]

theorem userTotal_without (l : List TenantId) (s : StoreState) (hnd : l.Nodup)
    (hlive : ∀ i ∈ l, ∃ t, s.tenants.lookup i.raw = some t) :
    (s.without l).userTotal + (l.map s.userCount).sum = s.userTotal := by
  induction l generalizing s with
  | nil => rfl
  | cons i l ih =>
    rw [List.nodup_cons] at hnd
    obtain ⟨t, ht⟩ := hlive i (by simp)
    have hsame := lookup_without_other s hnd.1
    have hcounts : l.map (s.without [i]).userCount = l.map s.userCount :=
      List.map_congr_left fun j hj => by rw [userCount, hsame j hj, userCount]
    have hrest := ih (s.without [i]) hnd.2 fun j hj => by
      rw [hsame j hj]
      exact hlive j (by simp [hj])
    have hone : (s.without [i]).userTotal + t.users.length = s.userTotal :=
      Assoc.sum_erase (fun t : Tenant => t.users.length) ht
    have hcount : s.userCount i = t.users.length := by rw [userCount, ht]; rfl
    rw [hcounts, without_cons s hnd.1] at hrest
    rw [List.map_cons, List.sum_cons, hcount]
    omega

/-! ## The whole call -/

/-- **What `delete_tenant_recursive` does to a live tenant whose subtree has at most 65 levels.** -/
theorem deleteTenantRecursive_eq (h : s.TreeWf) (hlive : ∃ t, s.tenants.lookup tenant.raw = some t)
    (hs : Shallow s.up 65 tenant) (ord : HashOrder Tenant) : ∃ l, PostOrder s.up 65 tenant l ∧
    (∀ i ∈ l, ∃ t, s.tenants.lookup i.raw = some t) ∧
    ((∀ i ∈ l, ∃ t, s.tenants.lookup i.raw = some t ∧ t.usage = default) ∧
        s.deleteTenantRecursive tenant ord = (.ok (s.reported default l), s.without l) ∨
      (∃ i ∈ l, ∃ t, s.tenants.lookup i.raw = some t ∧ t.usage ≠ default) ∧
        s.deleteTenantRecursive tenant ord = (.error (.invalid "tenant in use"), s)) := by
  obtain ⟨l, hl, hpost⟩ := (walk_spec h ord 65 tenant []).1 hs
  rw [List.nil_append] at hl
  have hta := hpost.takesApart h.rooted
  have hllive : ∀ i ∈ l, ∃ t, s.tenants.lookup i.raw = some t :=
    fun i hi => up_isSome.1 (((hta.mem i).1 hi).live (up_isSome.2 hlive))
  have hsome : (s.tenants.lookup tenant.raw).isNone = false := by
    obtain ⟨t, ht⟩ := hlive
    rw [ht]
    rfl
  refine ⟨l, hpost, hllive, ?_⟩
  simp only [deleteTenantRecursive, hsome, Bool.false_eq_true, if_false, hl]
  rcases checkUnused_cases l hllive with ⟨he, hused⟩ | ⟨hok, hunused⟩
  · exact .inr ⟨hused, by rw [he]⟩
  · refine .inl ⟨hunused, ?_⟩
    rw [hok]
    exact removeAll_eq l default s hta.nodup hllive

/-- The subtree of a tenant is gone from the store, with its names and sessions; everything else is there; and the
report is about what is gone. -/
structure Uprooted (s : StoreState) (tenant : TenantId) (report : DeleteReport) (s' : StoreState) : Prop where
  gone : ∀ i, Anc s.up i tenant → s'.tenants.lookup i.raw = none
  kept : ∀ i, ¬ Anc s.up i tenant → s'.tenants.lookup i.raw = s.tenants.lookup i.raw
  names_gone : ∀ i t, Anc s.up i tenant → s.tenants.lookup i.raw = some t → s'.byName.lookup t.name = none
  names_kept : ∀ n, (∀ i t, Anc s.up i tenant → s.tenants.lookup i.raw = some t → t.name ≠ n) →
    s'.byName.lookup n = s.byName.lookup n
  sessions : ∃ keep : Session → Bool, (∀ ss, keep ss = true ↔ ¬ Anc s.up ss.tenant tenant) ∧
    s'.sessions = s.sessions.filter keep
  nextTenantId : s'.nextTenantId = s.nextTenantId
  nextUserId : s'.nextUserId = s.nextUserId
  /-- Each removed tenant is listed once, under its name, children before their parents. -/
  listed : ∀ i n, (i, n) ∈ report.deletedTenants ↔
    Anc s.up i tenant ∧ ∃ t, s.tenants.lookup i.raw = some t ∧ t.name = n
  postOrder : PostOrder s.up 65 tenant (report.deletedTenants.map Prod.fst)
  once : (report.deletedTenants.map Prod.fst).Nodup
  children_first : ∀ pre p post, report.deletedTenants.map Prod.fst = pre ++ p :: post →
    ∀ i, Edge s.up i p → i ∈ pre
  revoked : report.revokedSessions + s'.sessions.length = s.sessions.length
  dropped : report.droppedUsers + s'.userTotal = s.userTotal

theorem reported_ids (s : StoreState) (l : List TenantId) :
    (s.reported default l).deletedTenants.map Prod.fst = l := by
  simp [reported, default, Function.comp_def]

theorem uprooted_without (h : s.TreeWf) (hpost : PostOrder s.up 65 tenant l)
    (hlive : ∀ i ∈ l, ∃ t, s.tenants.lookup i.raw = some t) :
    s.Uprooted tenant (s.reported default l) (s.without l) := by
  have hta := hpost.takesApart h.rooted
  have hname : ∀ n, n ∈ l.map s.nameOf ↔ ∃ i t, Anc s.up i tenant ∧ s.tenants.lookup i.raw = some t ∧ t.name = n := by
    intro n
    rw [List.mem_map]
    constructor
    · rintro ⟨i, hi, rfl⟩
      obtain ⟨t, ht⟩ := hlive i hi
      exact ⟨i, t, (hta.mem i).1 hi, ht, by rw [nameOf, ht]; rfl⟩
    · rintro ⟨i, t, hi, ht, rfl⟩
      exact ⟨i, (hta.mem i).2 hi, by rw [nameOf, ht]; rfl⟩
  have hbyName : ∀ n, (s.without l).byName.lookup n = if n ∈ l.map s.nameOf then none else s.byName.lookup n :=
    fun n => Assoc.lookup_foldl_erase (l.map s.nameOf) s.byName n
  refine { gone := ?_, kept := ?_, names_gone := ?_, names_kept := ?_, sessions := ?_, nextTenantId := rfl,
           nextUserId := rfl, listed := ?_, postOrder := ?_, once := ?_, children_first := ?_, revoked := ?_,
           dropped := ?_ }
  · intro i hi
    rw [lookup_without, if_pos ((hta.mem i).2 hi)]
  · intro i hi
    rw [lookup_without, if_neg (fun hmem => hi ((hta.mem i).1 hmem))]
  · intro i t hi ht
    rw [hbyName, if_pos ((hname t.name).2 ⟨i, t, hi, ht, rfl⟩)]
  · intro n hn
    rw [hbyName, if_neg]
    intro hmem
    obtain ⟨i, t, hi, ht, hin⟩ := (hname n).1 hmem
    exact hn i t hi ht hin
  · refine ⟨fun ss => decide (ss.tenant ∉ l), fun ss => ?_, rfl⟩
    rw [decide_eq_true_eq, hta.mem]
  · intro i n
    simp only [reported, default, List.nil_append, List.mem_map, Prod.mk.injEq]
    constructor
    · rintro ⟨j, hj, rfl, rfl⟩
      obtain ⟨t, ht⟩ := hlive j hj
      exact ⟨(hta.mem j).1 hj, t, ht, by rw [nameOf, ht]; rfl⟩
    · rintro ⟨hi, t, ht, rfl⟩
      exact ⟨i, (hta.mem i).2 hi, rfl, by rw [nameOf, ht]; rfl⟩
  · rw [reported_ids]
    exact hpost
  · rw [reported_ids]
    exact hta.nodup
  · rw [reported_ids]
    exact hta.leaf
  · simp only [reported, without, default, Nat.zero_add]
    rw [← List.countP_eq_length_filter, ← List.countP_eq_length_filter,
      List.length_eq_countP_add_countP (fun ss : Session => decide (ss.tenant ∈ l))]
    simp
  · have := userTotal_without l s hta.nodup hlive
    simp only [reported, default, Nat.zero_add]
    omega

/-- Two answers agree on everything but the order of the removed tenants. -/
def SameOutcome : CelResult DeleteReport → CelResult DeleteReport → Prop
  | .error e, .error e' => e = e'
  | .ok r, .ok r' => r.deletedTenants.Perm r'.deletedTenants ∧ r.revokedSessions = r'.revokedSessions ∧
      r.droppedUsers = r'.droppedUsers
  | _, _ => False

theorem sameOutcome_reported (s : StoreState) (h : l.Perm l') :
    SameOutcome (.ok (s.reported default l)) (.ok (s.reported default l')) := by
  refine ⟨(h.map fun i => (i, s.nameOf i)).append_left _, ?_, ?_⟩
  · simp only [reported, h.mem_iff]
  · simp only [reported, (h.map s.userCount).sum_eq]

/-- The answer does not depend on the order in which the map iterates. -/
theorem deleteTenantRecursive_order (h : s.TreeWf) (hlive : ∃ t, s.tenants.lookup tenant.raw = some t)
    (hs : Shallow s.up 65 tenant) (ord ord' : HashOrder Tenant) :
    SameOutcome (s.deleteTenantRecursive tenant ord).1 (s.deleteTenantRecursive tenant ord').1 ∧
      (s.deleteTenantRecursive tenant ord).2 = (s.deleteTenantRecursive tenant ord').2 := by
  obtain ⟨l, hpost, -, hcase⟩ := deleteTenantRecursive_eq h hlive hs ord
  obtain ⟨l', hpost', -, hcase'⟩ := deleteTenantRecursive_eq h hlive hs ord'
  have hta := hpost.takesApart h.rooted
  have hta' := hpost'.takesApart h.rooted
  have hmem : ∀ i, i ∈ l ↔ i ∈ l' := fun i => (hta.mem i).trans (hta'.mem i).symm
  have hperm : l.Perm l' := (List.perm_ext_iff_of_nodup hta.nodup hta'.nodup).2 hmem
  -- a tenant is in use on one side exactly when it is on the other
  have clash : ∀ {l₁ l₂ : List TenantId}, (∀ i, i ∈ l₁ ↔ i ∈ l₂) →
      (∀ i ∈ l₁, ∃ t, s.tenants.lookup i.raw = some t ∧ t.usage = default) →
      (∃ i ∈ l₂, ∃ t, s.tenants.lookup i.raw = some t ∧ t.usage ≠ default) → False := by
    rintro l₁ l₂ hiff hall ⟨i, hi, t, ht, hu⟩
    obtain ⟨t', ht', hu'⟩ := hall i ((hiff i).2 hi)
    rw [Option.some.inj (ht.symm.trans ht')] at hu
    exact hu hu'
  rcases hcase with ⟨hall, he⟩ | ⟨hused, he⟩ <;> rcases hcase' with ⟨hall', he'⟩ | ⟨hused', he'⟩ <;> rw [he, he']
  · exact ⟨sameOutcome_reported s hperm, without_perm s hperm⟩
  · exact (clash hmem hall hused').elim
  · exact (clash (fun i => (hmem i).symm) hall' hused).elim
  · exact ⟨rfl, rfl⟩

end StoreState

/-- **`delete_tenant_recursive` removes exactly the subtree.**  In every store a run of calls leaves, for a live tenant
whose subtree has at most 65 levels: if no tenant of the subtree holds anything, the subtree is uprooted; if one does,
the call fails and changes nothing; and another iteration order of the map changes at most the order of siblings in the
report. -/
theorem delete_removes_subtree (cr : Crypto) (ops : List Op) (tenant : TenantId)
    (hlive : ((run (step cr) default ops).tenants.lookup tenant.raw).isSome)
    (hshallow : Shallow (run (step cr) default ops).up 65 tenant) (ord : HashOrder Tenant) :
    let s := run (step cr) default ops
    ((∀ i t, Anc s.up i tenant → s.tenants.lookup i.raw = some t → t.usage = default) →
      ∃ report s', s.deleteTenantRecursive tenant ord = (.ok report, s') ∧ s.Uprooted tenant report s') ∧
    ((∃ i t, Anc s.up i tenant ∧ s.tenants.lookup i.raw = some t ∧ t.usage ≠ default) →
      ∃ e, s.deleteTenantRecursive tenant ord = (.error e, s)) ∧
    ∀ ord', SameOutcome (s.deleteTenantRecursive tenant ord).1 (s.deleteTenantRecursive tenant ord').1 ∧
      (s.deleteTenantRecursive tenant ord).2 = (s.deleteTenantRecursive tenant ord').2 := by
  intro s
  have h : s.TreeWf := run_treeWf cr ops
  have hlive' := Option.isSome_iff_exists.1 hlive
  refine ⟨fun hunused => ?_, ?_, deleteTenantRecursive_order h hlive' hshallow ord⟩ <;>
    obtain ⟨l, hpost, hllive, hcase⟩ := deleteTenantRecursive_eq h hlive' hshallow ord <;>
    have hta := hpost.takesApart h.rooted
  · rcases hcase with ⟨-, he⟩ | ⟨⟨i, hi, t, ht, hu⟩, -⟩
    · exact ⟨_, _, he, uprooted_without h hpost hllive⟩
    · exact absurd (hunused i t ((hta.mem i).1 hi) ht) hu
  · rintro ⟨i, t, hi, ht, hu⟩
    rcases hcase with ⟨hall, -⟩ | ⟨-, he⟩
    · obtain ⟨t', ht', hu'⟩ := hall i ((hta.mem i).2 hi)
      rw [Option.some.inj (ht.symm.trans ht')] at hu
      exact absurd hu' hu
    · exact ⟨_, he⟩

/-- Three levels below one another, with a user and a session, and a tenant aside. -/
def family : List Op :=
  [.create ⟨"acme", .unlimited, none⟩ .all, .create ⟨"team", .unlimited, some ⟨1⟩⟩ .all,
   .create ⟨"lab", .unlimited, some ⟨2⟩⟩ .all, .create ⟨"aside", .unlimited, none⟩ .all,
   .addUser ⟨2⟩ "ann" .all, .createSession ⟨2⟩ ⟨1⟩ .all none (.replicate 32 0) 0]

/-- In the family, the first tenant is live and its subtree is shallow, and uprooting it takes three tenants away. -/
theorem delete_removes_family :
    ((run (step .idle) default family).tenants.lookup 1).isSome ∧ Shallow (run (step .idle) default family).up 65 ⟨1⟩ ∧
    ∃ report s', (run (step .idle) default family).deleteTenantRecursive ⟨1⟩ (.asStored _) = (.ok report, s') ∧
      (run (step .idle) default family).Uprooted ⟨1⟩ report s' := by
  have hlive : ((run (step .idle) default family).tenants.lookup 1).isSome := by decide
  have hshallow : Shallow (run (step .idle) default family).up 65 ⟨1⟩ := by
    by_contra hdeep
    have := (walk_spec (run_treeWf .idle family) (.asStored _) 65 ⟨1⟩ []).2 hdeep
    revert this
    decide +kernel
  refine ⟨hlive, hshallow, (delete_removes_subtree .idle family ⟨1⟩ hlive hshallow (.asStored _)).1 ?_⟩
  have hnone : (run (step .idle) default family).values.all (fun t => t.usage = default) = true := by decide
  intro i t _ ht
  have hmem := (Assoc.mem_values _ t).2 ⟨_, ht⟩
  simpa using List.all_eq_true.1 hnone t hmem

end Celium
