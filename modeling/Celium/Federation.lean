import Celium.Membership
/-!
# Federation — the table of every node's VMs

`celmesh::federation`.  A node replaces its own rows wholesale (`set_local`) and merges its peers' rows one by one, by
last writer wins; nothing a peer sends touches the rows it owns.
-/
namespace Celium

namespace RemoteVm

def key (v : RemoteVm) : NodeId × UInt32 := (v.owner, v.vmId)

def stamp (v : RemoteVm) : ℕ ×ₗ ℕ := stampOf v.epoch v.hlc

/-- A row as a receiver files it: `owner_alive` is a matter of the receiver's own view. -/
def received (v : RemoteVm) : RemoteVm := { v with ownerAlive := true }

end RemoteVm

structure NamespaceFederation where
  selfId : NodeId
  rows : AList (fun _ : NodeId × UInt32 => RemoteVm)
deriving DecidableEq

/-- The order of the keys: by owner, then by VM. -/
def keyLe (a b : NodeId × UInt32) : Prop := a.1.raw < b.1.raw ∨ (a.1.raw = b.1.raw ∧ a.2 ≤ b.2)

instance : DecidableRel keyLe := fun a b =>
  inferInstanceAs (Decidable (a.1.raw < b.1.raw ∨ (a.1.raw = b.1.raw ∧ a.2 ≤ b.2)))

namespace NamespaceFederation

def new (selfId : NodeId) : NamespaceFederation := ⟨selfId, ∅⟩

/-- A row as `set_local` files it. -/
def owned (f : NamespaceFederation) (row : RemoteVm) : RemoteVm := { row with owner := f.selfId, ownerAlive := true }

def setLocal (f : NamespaceFederation) (rows : List RemoteVm) : NamespaceFederation :=
  let kept := Assoc.retain (fun k => k.1 != f.selfId) f.rows
  { f with rows := rows.foldl (fun m row => m.insert (f.owned row).key (f.owned row)) kept }

def merge (f : NamespaceFederation) (incoming : RemoteVm) : Bool × NamespaceFederation :=
  if incoming.owner = f.selfId then (false, f)
  else
    let incoming := { incoming with ownerAlive := true }
    match f.rows.lookup incoming.key with
    | some existing =>
      if incoming.stamp ≤ existing.stamp then (false, f)
      else (true, { f with rows := f.rows.insert incoming.key incoming })
    | none => (true, { f with rows := f.rows.insert incoming.key incoming })

def refreshAlive (f : NamespaceFederation) (aliveOf : NodeId → Bool) : NamespaceFederation :=
  { f with rows := Assoc.mapVals (fun _ row =>
      { row with ownerAlive := if row.owner = f.selfId then true else aliveOf row.owner }) f.rows }

/-- Every row, in key order. -/
def list (f : NamespaceFederation) : List RemoteVm := Assoc.sorted keyLe f.rows

def localRows (f : NamespaceFederation) : List RemoteVm := f.list.filter (fun r => r.owner = f.selfId)

/-! ## What a call leaves in the table -/

/-- The row in the table is beaten by the one that arrives. -/
abbrev News (f : NamespaceFederation) (v : RemoteVm) : Prop := Lww.Beats RemoteVm.stamp (f.rows.lookup v.key) v.received

theorem merge_own {f : NamespaceFederation} {v : RemoteVm} (h : v.owner = f.selfId) : f.merge v = (false, f) := if_pos h

theorem merge_received {f : NamespaceFederation} {v : RemoteVm} (h : v.owner ≠ f.selfId) :
    f.merge v = match f.rows.lookup v.key with
      | some existing =>
        if v.received.stamp ≤ existing.stamp then (false, f)
        else (true, { f with rows := f.rows.insert v.key v.received })
      | none => (true, { f with rows := f.rows.insert v.key v.received }) := by
  rw [merge, if_neg h]
  rfl

theorem merge_news {f : NamespaceFederation} {v : RemoteVm} (h : v.owner ≠ f.selfId) (hn : f.News v) :
    f.merge v = (true, { f with rows := f.rows.insert v.key v.received }) := by
  rw [merge_received h]
  unfold News at hn
  cases hlook : f.rows.lookup v.key with
  | none => rfl
  | some o =>
    rw [hlook] at hn
    exact if_neg (not_le.2 hn)

theorem merge_stale {f : NamespaceFederation} {v : RemoteVm} (h : v.owner ≠ f.selfId) (hn : ¬ f.News v) :
    f.merge v = (false, f) := by
  rw [merge_received h]
  unfold News at hn
  cases hlook : f.rows.lookup v.key with
  | none =>
    rw [hlook] at hn
    exact absurd trivial hn
  | some o =>
    rw [hlook] at hn
    exact if_pos (not_lt.1 hn)

/-- **`merge` is one last-writer-wins merge** of the row as received, closed to the node's own rows. -/
theorem merge_rows (f : NamespaceFederation) (v : RemoteVm) :
    (fun k => (f.merge v).2.rows.lookup k) =
      Lww.merge RemoteVm.stamp RemoteVm.key (fun k => k.1 = f.selfId) (fun k => f.rows.lookup k) v.received := by
  funext k
  unfold Lww.merge
  by_cases hself : v.owner = f.selfId
  · rw [merge_own hself]
    refine (if_neg (fun h => h.2 ?_)).symm
    rw [← h.1]
    exact hself
  · by_cases hn : f.News v
    · rw [merge_news hself hn]
      dsimp only
      rw [Assoc.lookup_insert_ite]
      by_cases hk : k = v.key
      · subst hk
        rw [if_pos rfl, Lww.keep_of_beats hn]
        exact (if_pos ⟨rfl, hself⟩).symm
      · rw [if_neg hk]
        exact (if_neg (fun h => hk h.1.symm)).symm
    · rw [merge_stale hself hn]
      dsimp only
      by_cases hk : v.key = k
      · subst hk
        rw [Lww.keep_of_not_beats hn, ite_self]
      · exact (if_neg (fun h => hk h.1)).symm

/-- **`merge` answers whether the row was news.** -/
theorem merge_fst (f : NamespaceFederation) (v : RemoteVm) :
    (f.merge v).1 = true ↔ v.owner ≠ f.selfId ∧ f.News v := by
  by_cases hself : v.owner = f.selfId
  · simp [merge_own hself, hself]
  · by_cases hn : f.News v
    · simp [merge_news hself hn, hself, hn]
    · simp [merge_stale hself hn, hn]

@[simp] theorem merge_selfId (f : NamespaceFederation) (v : RemoteVm) : (f.merge v).2.selfId = f.selfId := by
  by_cases hself : v.owner = f.selfId
  · rw [merge_own hself]
  · by_cases hn : f.News v
    · rw [merge_news hself hn]
    · rw [merge_stale hself hn]

theorem refreshAlive_rows (f : NamespaceFederation) (aliveOf : NodeId → Bool) (k : NodeId × UInt32) :
    (f.refreshAlive aliveOf).rows.lookup k = (f.rows.lookup k).map (fun row =>
      { row with ownerAlive := if row.owner = f.selfId then true else aliveOf row.owner }) :=
  Assoc.lookup_mapVals _ _ _

theorem mem_list (f : NamespaceFederation) (v : RemoteVm) : v ∈ f.list ↔ ∃ k, f.rows.lookup k = some v := by
  rw [list, Assoc.mem_sorted, Assoc.mem_values]

/-- Every row is filed under its own key, and the node's own rows say that it is alive. -/
structure Wf (f : NamespaceFederation) : Prop where
  keyed : ∀ k v, f.rows.lookup k = some v → v.key = k
  own : ∀ k v, f.rows.lookup k = some v → v.owner = f.selfId → v.ownerAlive = true

theorem Wf.mem_list {f : NamespaceFederation} (h : f.Wf) (v : RemoteVm) : v ∈ f.list ↔ f.rows.lookup v.key = some v := by
  rw [NamespaceFederation.mem_list]
  constructor
  · rintro ⟨k, hk⟩
    obtain rfl := h.keyed k v hk
    exact hk
  · exact fun hv => ⟨v.key, hv⟩

theorem Wf.mem_localRows {f : NamespaceFederation} (h : f.Wf) (v : RemoteVm) :
    v ∈ f.localRows ↔ f.rows.lookup v.key = some v ∧ v.owner = f.selfId := by
  rw [localRows, List.mem_filter, h.mem_list, decide_eq_true_iff]

/-- **A federation lists each row once.** -/
theorem Wf.list_nodup {f : NamespaceFederation} (h : f.Wf) : f.list.Nodup := by
  have hperm : f.list.Perm (f.rows.entries.map (·.2)) := (List.perm_insertionSort _ _).map _
  exact hperm.nodup_iff.2 (List.Nodup.of_map RemoteVm.key (Assoc.nodup_map_values f.rows h.keyed))

theorem Wf.localRows_nodup {f : NamespaceFederation} (h : f.Wf) : f.localRows.Nodup := h.list_nodup.filter _

/-- The local rows are a matter of what is filed under the node's own keys. -/
theorem Wf.localRows_perm {f f' : NamespaceFederation} (h : f.Wf) (h' : f'.Wf) (hself : f'.selfId = f.selfId)
    (heq : ∀ k : NodeId × UInt32, k.1 = f.selfId → f'.rows.lookup k = f.rows.lookup k) :
    f'.localRows.Perm f.localRows := by
  refine (List.perm_ext_iff_of_nodup h'.localRows_nodup h.localRows_nodup).2 (fun v => ?_)
  rw [h'.mem_localRows, h.mem_localRows, hself]
  constructor
  · rintro ⟨hlook, hown⟩
    exact ⟨(heq v.key hown).symm.trans hlook, hown⟩
  · rintro ⟨hlook, hown⟩
    exact ⟨(heq v.key hown).trans hlook, hown⟩

/-! ## Replacing the local rows -/

/-- The row the last of `rows` with the id leaves. -/
def lastOf (f : NamespaceFederation) (rows : List RemoteVm) (k : NodeId × UInt32) (o : Option RemoteVm) :
    Option RemoteVm :=
  rows.foldl (fun o row => if (f.owned row).key = k then some (f.owned row) else o) o

theorem setLocal_rows (f : NamespaceFederation) (rows : List RemoteVm) (k : NodeId × UInt32) :
    (f.setLocal rows).rows.lookup k = f.lastOf rows k (if k.1 = f.selfId then none else f.rows.lookup k) := by
  have hfold : ∀ (rows : List RemoteVm) (m : AList (fun _ : NodeId × UInt32 => RemoteVm)),
      (rows.foldl (fun m row => m.insert (f.owned row).key (f.owned row)) m).lookup k = f.lastOf rows k (m.lookup k) := by
    intro rows
    induction rows with
    | nil => exact fun m => rfl
    | cons row rows ih =>
      intro m
      rw [List.foldl_cons, ih, Assoc.lookup_insert_ite, lastOf, lastOf, List.foldl_cons]
      congr 1
      by_cases hk : k = (f.owned row).key
      · rw [if_pos hk, if_pos hk.symm]
      · rw [if_neg hk, if_neg (fun h => hk h.symm)]
  rw [setLocal]
  dsimp only
  rw [hfold, Assoc.lookup_retain]
  by_cases hk : k.1 = f.selfId <;> simp [hk]

/-- What `lastOf` finds is what it was given or one of the rows. -/
theorem lastOf_cases (f : NamespaceFederation) (rows : List RemoteVm) (k : NodeId × UInt32) (o : Option RemoteVm) :
    f.lastOf rows k o = o ∨ ∃ row ∈ rows, f.lastOf rows k o = some (f.owned row) ∧ (f.owned row).key = k := by
  induction rows generalizing o with
  | nil => exact .inl rfl
  | cons row rows ih =>
    have hcons : f.lastOf (row :: rows) k o =
        f.lastOf rows k (if (f.owned row).key = k then some (f.owned row) else o) := rfl
    rw [hcons]
    rcases ih (if (f.owned row).key = k then some (f.owned row) else o) with heq | ⟨row', hmem, heq, hkey⟩
    · rw [heq]
      split
      · exact .inr ⟨row, List.mem_cons_self, rfl, ‹_›⟩
      · exact .inl rfl
    · exact .inr ⟨row', List.mem_cons_of_mem row hmem, heq, hkey⟩

/-- **`set_local` leaves the peers' rows alone.** -/
theorem setLocal_peers (f : NamespaceFederation) (rows : List RemoteVm) {k : NodeId × UInt32} (hk : k.1 ≠ f.selfId) :
    (f.setLocal rows).rows.lookup k = f.rows.lookup k := by
  rw [setLocal_rows, if_neg hk]
  rcases f.lastOf_cases rows k (f.rows.lookup k) with heq | ⟨row, -, -, hkey⟩
  · exact heq
  · exact absurd (congrArg Prod.fst hkey).symm hk

/-- **Every own row after `set_local` is one of the rows given.** -/
theorem setLocal_own {f : NamespaceFederation} {rows : List RemoteVm} {k : NodeId × UInt32} (hk : k.1 = f.selfId)
    {v : RemoteVm} (h : (f.setLocal rows).rows.lookup k = some v) : ∃ row ∈ rows, v = f.owned row ∧ v.key = k := by
  rw [setLocal_rows, if_pos hk] at h
  rcases f.lastOf_cases rows k none with heq | ⟨row, hmem, heq, hkey⟩
  · rw [heq] at h
    cases h
  · rw [heq] at h
    obtain rfl := Option.some.inj h
    exact ⟨row, hmem, rfl, hkey⟩

theorem lastOf_mem {f : NamespaceFederation} {rows : List RemoteVm} (hnd : (rows.map (·.vmId)).Nodup) {row : RemoteVm}
    (hrow : row ∈ rows) (o : Option RemoteVm) : f.lastOf rows (f.owned row).key o = some (f.owned row) := by
  induction rows generalizing o with
  | nil => exact absurd hrow List.not_mem_nil
  | cons r rows ih =>
    rw [List.map_cons, List.nodup_cons] at hnd
    change f.lastOf rows (f.owned row).key (if (f.owned r).key = (f.owned row).key then some (f.owned r) else o) = _
    rcases List.mem_cons.1 hrow with rfl | hrow
    · rw [if_pos rfl]
      rcases f.lastOf_cases rows (f.owned row).key (some (f.owned row)) with heq | ⟨row', hmem, -, hkey⟩
      · exact heq
      · exact absurd (List.mem_map.2 ⟨row', hmem, congrArg Prod.snd hkey⟩) hnd.1
    · exact ih hnd.2 hrow _

/-- **Every row given is an own row after `set_local`**, when no two are of one VM. -/
theorem setLocal_mem {f : NamespaceFederation} {rows : List RemoteVm} (hnd : (rows.map (·.vmId)).Nodup) {row : RemoteVm}
    (hrow : row ∈ rows) : (f.setLocal rows).rows.lookup (f.owned row).key = some (f.owned row) := by
  rw [setLocal_rows]
  exact lastOf_mem hnd hrow _

/-! ## Well-formedness -/

theorem new_wf (selfId : NodeId) : (new selfId).Wf := by
  constructor <;> intro k v h <;> cases h

theorem setLocal_wf {f : NamespaceFederation} (h : f.Wf) (rows : List RemoteVm) : (f.setLocal rows).Wf := by
  constructor
  · intro k v hv
    by_cases hk : k.1 = f.selfId
    · obtain ⟨row, -, -, hkey⟩ := setLocal_own hk hv
      exact hkey
    · rw [setLocal_peers f rows hk] at hv
      exact h.keyed k v hv
  · intro k v hv hown
    by_cases hk : k.1 = f.selfId
    · obtain ⟨row, -, rfl, -⟩ := setLocal_own hk hv
      rfl
    · rw [setLocal_peers f rows hk] at hv
      exact h.own k v hv hown

theorem merge_wf {f : NamespaceFederation} (h : f.Wf) (v : RemoteVm) : (f.merge v).2.Wf := by
  by_cases hself : v.owner = f.selfId
  · rw [merge_own hself]
    exact h
  · by_cases hn : f.News v
    · rw [merge_news hself hn]
      constructor
      · intro k w hw
        dsimp only at hw
        rw [Assoc.lookup_insert_ite] at hw
        split at hw
        · obtain rfl := Option.some.inj hw
          exact Eq.symm ‹k = v.key›
        · exact h.keyed k w hw
      · intro k w hw hown
        dsimp only at hw hown
        rw [Assoc.lookup_insert_ite] at hw
        split at hw
        · obtain rfl := Option.some.inj hw
          rfl
        · exact h.own k w hw hown
    · rw [merge_stale hself hn]
      exact h

theorem refreshAlive_wf {f : NamespaceFederation} (h : f.Wf) (aliveOf : NodeId → Bool) : (f.refreshAlive aliveOf).Wf := by
  constructor
  · intro k v hv
    rw [refreshAlive_rows] at hv
    obtain ⟨w, hw, rfl⟩ := Option.map_eq_some_iff.1 hv
    exact h.keyed k w hw
  · intro k v hv hown
    rw [refreshAlive_rows] at hv
    obtain ⟨w, hw, rfl⟩ := Option.map_eq_some_iff.1 hv
    exact if_pos hown

end NamespaceFederation

end Celium
