import Celium.VmOp
import Celium.Lib.Lww
import Celium.Lib.Runs
import Mathlib.Data.Prod.Lex
/-!
# Membership — one node's table of peers and its failure detector

`celmesh::membership`.  Rows are merged by last writer wins on `(epoch, hlc)`; when a row was last heard of is kept
beside the table and is not gossiped.  The clock (`Instant::now()`) is an argument, as a number of nanoseconds; a
`Duration` is one too.
-/
namespace Celium

open Runs

inductive NodeStatus where
  | alive | suspect | dead | left
deriving DecidableEq, Repr

structure NodeInfo where
  id : NodeId
  addr : String
  epoch : UInt64
  hlc : UInt64
  status : NodeStatus
deriving DecidableEq, Repr

/-- A pair `(epoch, hlc)`, in the order tuples are compared in. -/
def stampOf (epoch hlc : UInt64) : ℕ ×ₗ ℕ := toLex (epoch.toNat, hlc.toNat)

def NodeInfo.stamp (r : NodeInfo) : ℕ ×ₗ ℕ := stampOf r.epoch r.hlc

/-- `NodeInfo::supersedes`. -/
def NodeInfo.supersedes (self other : NodeInfo) : Bool := decide (other.stamp < self.stamp)

structure Membership where
  selfId : NodeId
  cluster : String
  rows : AList (fun _ : NodeId => NodeInfo)
  /-- When each row was last heard of. -/
  locals : AList (fun _ : NodeId => Nat)
  timeoutSuspect : Nat
  timeoutDead : Nat
deriving DecidableEq

structure TickDelta where
  stateChanges : Nat
  suspectPromotions : Nat
  deadPromotions : Nat
deriving DecidableEq, Repr

namespace Membership

def new (cluster : String) (selfInfo : NodeInfo) (timeoutSuspect timeoutDead : Nat) (now : Nat) : Membership :=
  { selfId := selfInfo.id, cluster, rows := AList.singleton selfInfo.id selfInfo,
    locals := AList.singleton selfInfo.id now, timeoutSuspect, timeoutDead }

/-- The rows in id order. -/
def snapshot (m : Membership) : List NodeInfo := Assoc.sorted (·.raw ≤ ·.raw) m.rows

def aliveCount (m : Membership) : Nat := (m.snapshot.filter (fun r => r.status == .alive)).length

def get (m : Membership) (id : NodeId) : Option NodeInfo := m.rows.lookup id

def bumpSelf (m : Membership) (hlc : UInt64) (now : Nat) : Membership :=
  { m with
    rows := match m.rows.lookup m.selfId with
      | some row => m.rows.insert m.selfId { row with hlc := max row.hlc hlc, status := .alive }
      | none => m.rows
    locals := match m.locals.lookup m.selfId with
      | some _ => m.locals.insert m.selfId now
      | none => m.locals }

def merge (m : Membership) (incoming : NodeInfo) (now : Nat) : Bool × Membership :=
  if incoming.id = m.selfId then (false, m)
  else
    let touch := match m.rows.lookup incoming.id with
      | some existing => incoming.supersedes existing
      | none => true
    if touch then
      (true, { m with rows := m.rows.insert incoming.id incoming, locals := m.locals.insert incoming.id now })
    else
      -- The source takes this branch for every row it already has, older ones included.
      match m.rows.lookup incoming.id, m.locals.lookup incoming.id with
      | some _, some _ => (false, { m with locals := m.locals.insert incoming.id now })
      | _, _ => (false, m)

def markLeft (m : Membership) (id : NodeId) : Membership :=
  if id = m.selfId then m
  else match m.rows.lookup id with
    | some row => { m with rows := m.rows.insert id { row with status := .left } }
    | none => m

/-- What the failure detector makes of a peer heard of `elapsed` ago. -/
def statusAfter (m : Membership) (elapsed : Nat) : NodeStatus :=
  if m.timeoutDead ≤ elapsed then .dead
  else if m.timeoutSuspect ≤ elapsed then .suspect
  else .alive

/-- The body of the loop of `tick`: the status a row gets. -/
def tickRow (m : Membership) (now : Nat) (id : NodeId) (row : NodeInfo) : NodeInfo :=
  if id = m.selfId then row
  else if row.status = .left ∨ row.status = .dead then row
  else { row with status := m.statusAfter (now - (m.locals.lookup id).getD now) }

/-- What one row adds to the counts. -/
def tickCount (old new : NodeStatus) (d : TickDelta) : TickDelta :=
  if new = old then d
  else
    { stateChanges := d.stateChanges + 1
      suspectPromotions := if old = .alive ∧ new = .suspect then d.suspectPromotions + 1 else d.suspectPromotions
      deadPromotions := if new = .dead then d.deadPromotions + 1 else d.deadPromotions }

def tick (m : Membership) (now : Nat) : TickDelta × Membership :=
  (m.rows.entries.foldl (fun d e => tickCount e.2.status (m.tickRow now e.1 e.2).status d) ⟨0, 0, 0⟩,
    { m with rows := Assoc.mapVals (m.tickRow now) m.rows })

/-! ## What a call leaves in the table -/

theorem supersedes_iff (r o : NodeInfo) : r.supersedes o = true ↔ o.stamp < r.stamp := by simp [NodeInfo.supersedes]

/-- The row in the table is beaten by the one that arrives. -/
abbrev News (m : Membership) (r : NodeInfo) : Prop := Lww.Beats NodeInfo.stamp (m.rows.lookup r.id) r

theorem merge_self {m : Membership} {r : NodeInfo} (h : r.id = m.selfId) (now : Nat) : m.merge r now = (false, m) :=
  if_pos h

theorem merge_news {m : Membership} {r : NodeInfo} (h : r.id ≠ m.selfId) (hn : m.News r) (now : Nat) :
    m.merge r now = (true, { m with rows := m.rows.insert r.id r, locals := m.locals.insert r.id now }) := by
  rw [merge, if_neg h]
  unfold News at hn
  cases hlook : m.rows.lookup r.id with
  | none => rfl
  | some o =>
    rw [hlook] at hn
    have hs : r.supersedes o = true := (supersedes_iff r o).2 hn
    simp only [hs, if_true]

theorem merge_stale {m : Membership} {r : NodeInfo} (h : r.id ≠ m.selfId) (hn : ¬ m.News r) (now : Nat) :
    m.merge r now = (false, { m with
      locals := if (m.locals.lookup r.id).isSome then m.locals.insert r.id now else m.locals }) := by
  rw [merge, if_neg h]
  unfold News at hn
  cases hlook : m.rows.lookup r.id with
  | none =>
    rw [hlook] at hn
    exact absurd trivial hn
  | some o =>
    rw [hlook] at hn
    have hs : r.supersedes o = false := by
      rw [← Bool.not_eq_true, supersedes_iff]
      exact hn
    cases hloc : m.locals.lookup r.id <;> simp [hs]

/-- **`merge` is one last-writer-wins merge**, closed to the node's own row. -/
theorem merge_rows (m : Membership) (r : NodeInfo) (now : Nat) :
    (fun k => (m.merge r now).2.rows.lookup k) =
      Lww.merge NodeInfo.stamp NodeInfo.id (· = m.selfId) (fun k => m.rows.lookup k) r := by
  funext k
  unfold Lww.merge
  by_cases hself : r.id = m.selfId
  · rw [merge_self hself, if_neg (fun h => h.2 (h.1.symm.trans hself))]
  · by_cases hn : m.News r
    · rw [merge_news hself hn]
      dsimp only
      rw [Assoc.lookup_insert_ite]
      by_cases hk : k = r.id
      · subst hk
        rw [if_pos rfl, if_pos ⟨rfl, hself⟩, Lww.keep_of_beats hn]
      · rw [if_neg hk, if_neg (fun h => hk h.1.symm)]
    · rw [merge_stale hself hn]
      dsimp only
      by_cases hk : r.id = k
      · subst hk
        rw [Lww.keep_of_not_beats hn, ite_self]
      · exact (if_neg (fun h => hk h.1)).symm

/-- **`merge` answers whether the row was news.** -/
theorem merge_fst (m : Membership) (r : NodeInfo) (now : Nat) :
    (m.merge r now).1 = true ↔ r.id ≠ m.selfId ∧ m.News r := by
  by_cases hself : r.id = m.selfId
  · simp [merge_self hself, hself]
  · by_cases hn : m.News r
    · simp [merge_news hself hn, hself, hn]
    · simp [merge_stale hself hn, hn]

/-- What a call leaves as it is. -/
structure Same (m m' : Membership) : Prop where
  selfId : m'.selfId = m.selfId
  cluster : m'.cluster = m.cluster
  suspect : m'.timeoutSuspect = m.timeoutSuspect
  dead : m'.timeoutDead = m.timeoutDead

theorem merge_same (m : Membership) (r : NodeInfo) (now : Nat) : m.Same (m.merge r now).2 := by
  by_cases hself : r.id = m.selfId
  · rw [merge_self hself]
    exact ⟨rfl, rfl, rfl, rfl⟩
  · by_cases hn : m.News r
    · rw [merge_news hself hn]
      exact ⟨rfl, rfl, rfl, rfl⟩
    · rw [merge_stale hself hn]
      exact ⟨rfl, rfl, rfl, rfl⟩

theorem markLeft_same (m : Membership) (id : NodeId) : m.Same (m.markLeft id) := by
  unfold markLeft
  split
  · exact ⟨rfl, rfl, rfl, rfl⟩
  · split <;> exact ⟨rfl, rfl, rfl, rfl⟩

theorem markLeft_rows (m : Membership) (id k : NodeId) :
    (m.markLeft id).rows.lookup k =
      if k = id ∧ id ≠ m.selfId then (m.rows.lookup k).map (fun r => { r with status := .left })
      else m.rows.lookup k := by
  unfold markLeft
  by_cases hself : id = m.selfId
  · simp [hself]
  · rw [if_neg hself]
    cases hlook : m.rows.lookup id with
    | none =>
      by_cases hk : k = id
      · subst hk
        simp [hlook]
      · simp [hk]
    | some r =>
      dsimp only
      rw [Assoc.lookup_insert_ite]
      by_cases hk : k = id
      · subst hk
        simp [hlook, hself]
      · simp [hk]

theorem markLeft_self {m : Membership} {k : NodeId} (hk : k = m.selfId) (id : NodeId) :
    (m.markLeft id).get k = m.get k := by
  rw [get, markLeft_rows, if_neg]
  · rfl
  · rintro ⟨rfl, hne⟩
    exact hne hk

theorem bumpSelf_self {m : Membership} {r : NodeInfo} (h : m.get m.selfId = some r) (hlc : UInt64) (now : Nat) :
    (m.bumpSelf hlc now).get m.selfId = some { r with hlc := max r.hlc hlc, status := .alive } := by
  have h' : m.rows.lookup m.selfId = some r := h
  simp only [get, bumpSelf, h']
  exact AList.lookup_insert m.rows

theorem bumpSelf_rows (m : Membership) (hlc : UInt64) (now : Nat) {k : NodeId} (hk : k ≠ m.selfId) :
    (m.bumpSelf hlc now).rows.lookup k = m.rows.lookup k := by
  unfold bumpSelf
  cases m.rows.lookup m.selfId with
  | none => rfl
  | some r => exact AList.lookup_insert_ne hk

theorem bumpSelf_locals (m : Membership) (hlc : UInt64) (now : Nat) {k : NodeId} (hk : k ≠ m.selfId) :
    (m.bumpSelf hlc now).locals.lookup k = m.locals.lookup k := by
  unfold bumpSelf
  cases m.locals.lookup m.selfId with
  | none => rfl
  | some r => exact AList.lookup_insert_ne hk

theorem tick_rows (m : Membership) (now : Nat) (k : NodeId) :
    (m.tick now).2.rows.lookup k = (m.rows.lookup k).map (m.tickRow now k) := Assoc.lookup_mapVals _ _ _

theorem tick_self {m : Membership} {k : NodeId} (hk : k = m.selfId) {r : NodeInfo} (h : m.get k = some r) (now : Nat) :
    (m.tick now).2.get k = some r := by
  rw [get, tick_rows, show m.rows.lookup k = some r from h, Option.map_some, tickRow, if_pos hk]

/-! ## Well-formedness -/

/-- Every row is filed under its own id and has a time it was last heard of. -/
structure Wf (m : Membership) : Prop where
  keyed : ∀ k r, m.rows.lookup k = some r → r.id = k
  heard : ∀ k r, m.rows.lookup k = some r → ∃ t, m.locals.lookup k = some t

end Membership

/-! ## Runs of the table -/

/-- A call on the table, with the clock it reads. -/
inductive MemberCall where
  | merge (incoming : NodeInfo)
  | markLeft (id : NodeId)
  | bumpSelf (hlc : UInt64)
  | tick
deriving DecidableEq, Repr

structure MemberEvent where
  now : Nat
  call : MemberCall
deriving DecidableEq, Repr

/-- What a call returns: `merge` whether the table changed, `tick` its counts. -/
inductive MemberAnswer where
  | merged (changed : Bool)
  | ticked (delta : TickDelta)
  | done
deriving DecidableEq, Repr

def Membership.step (m : Membership) (e : MemberEvent) : MemberAnswer × Membership :=
  match e.call with
  | .merge incoming => (.merged (m.merge incoming e.now).1, (m.merge incoming e.now).2)
  | .markLeft id => (.done, m.markLeft id)
  | .bumpSelf hlc => (.done, m.bumpSelf hlc e.now)
  | .tick => (.ticked (m.tick e.now).1, (m.tick e.now).2)

namespace Membership

theorem step_same (m : Membership) (e : MemberEvent) : m.Same (m.step e).2 := by
  unfold step
  cases e.call with
  | merge r => exact m.merge_same r e.now
  | markLeft id => exact m.markLeft_same id
  | bumpSelf hlc => exact ⟨rfl, rfl, rfl, rfl⟩
  | tick => exact ⟨rfl, rfl, rfl, rfl⟩

theorem run_same (m : Membership) (es : List MemberEvent) : m.Same (run step m es) := by
  refine inv_run (I := fun m' => m.Same m') (fun m' e h => ?_) ⟨rfl, rfl, rfl, rfl⟩ es
  have hs := m'.step_same e
  exact ⟨hs.selfId.trans h.selfId, hs.cluster.trans h.cluster, hs.suspect.trans h.suspect, hs.dead.trans h.dead⟩

/-- **A peer's time is the one it had or the clock of the call.** -/
theorem step_locals {m : Membership} {x : NodeId} (hx : x ≠ m.selfId) (e : MemberEvent) :
    (m.step e).2.locals.lookup x = m.locals.lookup x ∨ (m.step e).2.locals.lookup x = some e.now := by
  unfold step
  cases e.call with
  | markLeft id =>
    left
    dsimp only
    unfold markLeft
    split
    · rfl
    · split <;> rfl
  | bumpSelf hlc => exact .inl (m.bumpSelf_locals hlc e.now hx)
  | tick => exact .inl rfl
  | merge r =>
    dsimp only
    by_cases hself : r.id = m.selfId
    · rw [merge_self hself]
      exact .inl rfl
    · have hins : (m.locals.insert r.id e.now).lookup x = m.locals.lookup x ∨
          (m.locals.insert r.id e.now).lookup x = some e.now := by
        rw [Assoc.lookup_insert_ite]
        split
        · exact .inr rfl
        · exact .inl rfl
      by_cases hn : m.News r
      · rw [merge_news hself hn]
        exact hins
      · rw [merge_stale hself hn]
        dsimp only
        split
        · exact hins
        · exact .inl rfl

/-- **No call takes a peer out of the table**, and only `merge` puts one in. -/
theorem step_known {m : Membership} {x : NodeId} {r : NodeInfo} (h : m.rows.lookup x = some r) (e : MemberEvent) :
    ∃ r', (m.step e).2.rows.lookup x = some r' := by
  unfold step
  cases e.call with
  | merge i =>
    dsimp only
    have hrows : (m.merge i e.now).2.rows.lookup x = _ := congrFun (m.merge_rows i e.now) x
    rw [hrows, Lww.merge]
    split
    · unfold Lww.keep
      split
      · exact ⟨i, rfl⟩
      · exact ⟨r, h⟩
    · exact ⟨r, h⟩
  | markLeft id =>
    dsimp only
    rw [markLeft_rows, h]
    split <;> exact ⟨_, rfl⟩
  | bumpSelf hlc =>
    by_cases hx : x = m.selfId
    · subst hx
      exact ⟨_, bumpSelf_self h hlc e.now⟩
    · exact ⟨r, (m.bumpSelf_rows hlc e.now hx).trans h⟩
  | tick =>
    refine ⟨m.tickRow e.now x r, ?_⟩
    rw [tick_rows, h]
    rfl

theorem new_rows (cluster : String) (selfInfo : NodeInfo) (suspect dead now : Nat) (k : NodeId) :
    (new cluster selfInfo suspect dead now).rows.lookup k = if k = selfInfo.id then some selfInfo else none := by
  unfold new
  dsimp only
  rw [← AList.insert_empty, Assoc.lookup_insert_ite, AList.lookup_empty]

theorem new_locals (cluster : String) (selfInfo : NodeInfo) (suspect dead now : Nat) (k : NodeId) :
    (new cluster selfInfo suspect dead now).locals.lookup k = if k = selfInfo.id then some now else none := by
  unfold new
  dsimp only
  rw [← AList.insert_empty, Assoc.lookup_insert_ite, AList.lookup_empty]

theorem new_wf (cluster : String) (selfInfo : NodeInfo) (suspect dead now : Nat) :
    (new cluster selfInfo suspect dead now).Wf := by
  constructor
  · intro k r h
    rw [new_rows] at h
    split at h
    · obtain rfl := Option.some.inj h
      exact Eq.symm ‹k = selfInfo.id›
    · cases h
  · intro k r h
    rw [new_rows] at h
    rw [new_locals]
    split at h
    · exact ⟨now, if_pos ‹_›⟩
    · cases h

theorem mem_snapshot (m : Membership) (r : NodeInfo) : r ∈ m.snapshot ↔ ∃ k, m.rows.lookup k = some r := by
  rw [snapshot, Assoc.mem_sorted, Assoc.mem_values]

/-- **A snapshot names each node once.** -/
theorem Wf.snapshot_nodup {m : Membership} (h : m.Wf) : (m.snapshot.map (·.id)).Nodup := by
  have hperm : m.snapshot.Perm (m.rows.entries.map (·.2)) := (List.perm_insertionSort _ _).map _
  exact (hperm.map (·.id)).nodup_iff.2 (Assoc.nodup_map_values m.rows h.keyed)

theorem insert_wf {m : Membership} (h : m.Wf) (r : NodeInfo) (now : Nat) :
    Wf { m with rows := m.rows.insert r.id r, locals := m.locals.insert r.id now } := by
  constructor
  · intro k o ho
    dsimp only at ho
    rw [Assoc.lookup_insert_ite] at ho
    split at ho
    · obtain rfl := Option.some.inj ho
      exact Eq.symm ‹k = r.id›
    · exact h.keyed k o ho
  · intro k o ho
    dsimp only at ho ⊢
    rw [Assoc.lookup_insert_ite] at ho ⊢
    split
    · exact ⟨now, rfl⟩
    · rw [if_neg ‹_›] at ho
      exact h.heard k o ho

/-- Times can only be added. -/
theorem Wf.hear {m : Membership} (h : m.Wf) (x : NodeId) (now : Nat) :
    Wf { m with locals := m.locals.insert x now } := by
  refine ⟨h.keyed, fun k o ho => ?_⟩
  dsimp only
  rw [Assoc.lookup_insert_ite]
  split
  · exact ⟨now, rfl⟩
  · exact h.heard k o ho

/-- Rows can be rewritten in place. -/
theorem Wf.rewrite {m m' : Membership} (h : m.Wf) (hloc : m'.locals = m.locals)
    (hrows : ∀ k r', m'.rows.lookup k = some r' → ∃ r, m.rows.lookup k = some r ∧ r'.id = r.id) : m'.Wf := by
  constructor
  · intro k r' hr'
    obtain ⟨r, hr, hid⟩ := hrows k r' hr'
    exact hid.trans (h.keyed k r hr)
  · intro k r' hr'
    obtain ⟨r, hr, -⟩ := hrows k r' hr'
    rw [hloc]
    exact h.heard k r hr

theorem merge_wf {m : Membership} (h : m.Wf) (r : NodeInfo) (now : Nat) : (m.merge r now).2.Wf := by
  by_cases hself : r.id = m.selfId
  · rw [merge_self hself]
    exact h
  · by_cases hn : m.News r
    · rw [merge_news hself hn]
      exact insert_wf h r now
    · rw [merge_stale hself hn]
      dsimp only
      split
      · exact h.hear r.id now
      · exact h

theorem markLeft_wf {m : Membership} (h : m.Wf) (id : NodeId) : (m.markLeft id).Wf := by
  have hloc : (m.markLeft id).locals = m.locals := by
    unfold markLeft
    split
    · rfl
    · split <;> rfl
  refine h.rewrite hloc (fun k r' hr' => ?_)
  rw [markLeft_rows] at hr'
  split at hr'
  · obtain ⟨r, hr, rfl⟩ := Option.map_eq_some_iff.1 hr'
    exact ⟨r, hr, rfl⟩
  · exact ⟨r', hr', rfl⟩

theorem tick_wf {m : Membership} (h : m.Wf) (now : Nat) : (m.tick now).2.Wf := by
  refine h.rewrite rfl (fun k r' hr' => ?_)
  rw [tick_rows] at hr'
  obtain ⟨r, hr, rfl⟩ := Option.map_eq_some_iff.1 hr'
  refine ⟨r, hr, ?_⟩
  unfold tickRow
  split
  · rfl
  · split <;> rfl

theorem bumpSelf_wf {m : Membership} (h : m.Wf) (hlc : UInt64) (now : Nat) : (m.bumpSelf hlc now).Wf := by
  have hrows : Wf { m with rows := (m.bumpSelf hlc now).rows } := by
    refine h.rewrite rfl (fun k r' hr' => ?_)
    by_cases hk : k = m.selfId
    · subst hk
      cases hlook : m.rows.lookup m.selfId with
      | none =>
        simp only [bumpSelf, hlook] at hr'
        cases hr'
      | some r =>
        obtain rfl := Option.some.inj ((bumpSelf_self hlook hlc now).symm.trans hr')
        exact ⟨r, rfl, rfl⟩
    · exact ⟨r', (m.bumpSelf_rows hlc now hk).symm.trans hr', rfl⟩
  have hall : m.bumpSelf hlc now = { m with
      rows := (m.bumpSelf hlc now).rows, locals := (m.bumpSelf hlc now).locals } := rfl
  rw [hall]
  unfold bumpSelf at hrows ⊢
  cases m.locals.lookup m.selfId with
  | none => exact hrows
  | some t => exact hrows.hear m.selfId now

theorem step_wf {m : Membership} (h : m.Wf) (e : MemberEvent) : (m.step e).2.Wf := by
  unfold step
  cases e.call with
  | merge r => exact merge_wf h r e.now
  | markLeft id => exact markLeft_wf h id
  | bumpSelf hlc => exact bumpSelf_wf h hlc e.now
  | tick => exact tick_wf h e.now

end Membership

end Celium
