import Celium.Membership
/-!
# MemberDetect — when a silent peer is detected

A peer that has sent nothing new since `t` should be found dead once `timeout_dead` has passed.  `merge` however
refreshes a peer's time for every row about it, the stale ones that other peers relay included, so what `tick` measures
is the time since the last row about the peer and not since its last new one.  `silent_detected_iff` says exactly when
that makes no difference.
-/
namespace Celium

open Runs

namespace MemberEvent

/-- The event brings a row about `x`. -/
def Names (x : NodeId) (e : MemberEvent) : Prop :=
  match e.call with
  | .merge r => r.id = x
  | _ => False

/-- The event brings nothing about `x` that beats the row in the table. -/
def NoNews (x : NodeId) (m : Membership) (e : MemberEvent) : Prop :=
  match e.call with
  | .merge r => r.id = x → ¬ m.News r
  | _ => True

end MemberEvent

open MemberEvent

namespace Membership

/-- The peer is known to be gone. -/
def Gone (m : Membership) (x : NodeId) : Prop := ∃ r, m.get x = some r ∧ (r.status = .dead ∨ r.status = .left)

def IsAlive (m : Membership) (x : NodeId) : Prop := ∃ r, m.get x = some r ∧ r.status = .alive

/-- `x` is in the table at `t`, after `before`; `since` comes after `t` and brings nothing new about it; then the clock
reads `now`.  Times do not decrease. -/
structure Silent (m : Membership) (x : NodeId) (before since : List MemberEvent) (t now : Nat) : Prop where
  known : ∃ r, (run step m before).get x = some r
  ordered : (since.map (·.now)).Pairwise (· ≤ ·)
  upto : ∀ e ∈ before, e.now ≤ t
  after : ∀ e ∈ since, t ≤ e.now ∧ e.now ≤ now
  clock : t ≤ now
  noNews : Along step (NoNews x) (run step m before) since

/-- A peer silent since `t` is found out by a tick at `now`: not alive once `timeout_suspect` has passed since `t`, and
gone once `timeout_dead` has. -/
def Detected (m : Membership) (x : NodeId) (t now : Nat) : Prop :=
  (t + m.timeoutDead ≤ now → (m.tick now).2.Gone x) ∧ (t + m.timeoutSuspect ≤ now → ¬ (m.tick now).2.IsAlive x)

/-! ## The time `tick` measures from -/

theorem step_names {m : Membership} {x : NodeId} (hx : x ≠ m.selfId) (hwf : m.Wf) {r : NodeInfo}
    (hr : m.rows.lookup x = some r) {e : MemberEvent} (he : Names x e) :
    (m.step e).2.locals.lookup x = some e.now := by
  unfold Names at he
  unfold step
  cases hcall : e.call with
  | merge i =>
    rw [hcall] at he
    obtain rfl : i.id = x := he
    dsimp only
    by_cases hn : m.News i
    · rw [merge_news hx hn]
      exact AList.lookup_insert m.locals
    · obtain ⟨s, hs⟩ := hwf.heard i.id r hr
      rw [merge_stale hx hn, hs]
      exact AList.lookup_insert m.locals
  | markLeft id => rw [hcall] at he; exact he.elim
  | bumpSelf hlc => rw [hcall] at he; exact he.elim
  | tick => rw [hcall] at he; exact he.elim

theorem step_not_names {m : Membership} {x : NodeId} (hx : x ≠ m.selfId) {e : MemberEvent} (he : ¬ Names x e) :
    (m.step e).2.locals.lookup x = m.locals.lookup x := by
  unfold Names at he
  unfold step
  cases hcall : e.call with
  | merge i =>
    rw [hcall] at he
    have hne : x ≠ i.id := fun h => he h.symm
    dsimp only
    by_cases hself : i.id = m.selfId
    · rw [merge_self hself]
    · by_cases hn : m.News i
      · rw [merge_news hself hn]
        exact AList.lookup_insert_ne hne
      · rw [merge_stale hself hn]
        dsimp only
        split
        · exact AList.lookup_insert_ne hne
        · rfl
  | markLeft id =>
    dsimp only
    unfold markLeft
    split
    · rfl
    · split <;> rfl
  | bumpSelf hlc => exact m.bumpSelf_locals hlc e.now hx
  | tick => rfl

/-- **The time of a known peer is that of the last row about it.** -/
theorem run_heard {x : NodeId} : ∀ (es : List MemberEvent) {m : Membership} {s : Nat}, x ≠ m.selfId → m.Wf →
    (∃ r, m.rows.lookup x = some r) → m.locals.lookup x = some s → (es.map (·.now)).Pairwise (· ≤ ·) →
    (∀ e ∈ es, s ≤ e.now) →
    ∃ s', (run step m es).locals.lookup x = some s' ∧ s ≤ s' ∧ (s' = s ∨ ∃ e ∈ es, Names x e ∧ s' = e.now) ∧
      ∀ e ∈ es, Names x e → e.now ≤ s'
  | [], m, s, _, _, _, hs, _, _ => ⟨s, hs, le_rfl, .inl rfl, fun e he => by cases he⟩
  | e :: es, m, s, hx, hwf, ⟨r, hr⟩, hs, hord, hle => by
    rw [List.map_cons, List.pairwise_cons] at hord
    have hlate : ∀ e' ∈ es, e.now ≤ e'.now := fun e' he' => hord.1 e'.now (List.mem_map_of_mem he')
    have hx' : x ≠ (m.step e).2.selfId := by rw [(m.step_same e).selfId]; exact hx
    have hwf' := step_wf hwf e
    have hknown' := step_known hr e
    by_cases hn : Names x e
    · have hs' := step_names hx hwf hr hn
      obtain ⟨s', hs', hge, hfrom, hall⟩ := run_heard es hx' hwf' hknown' hs' hord.2 hlate
      refine ⟨s', hs', (hle e List.mem_cons_self).trans hge, .inr ?_, fun e' he' hn' => ?_⟩
      · rcases hfrom with rfl | ⟨e', he', hn', rfl⟩
        · exact ⟨e, List.mem_cons_self, hn, rfl⟩
        · exact ⟨e', List.mem_cons_of_mem e he', hn', rfl⟩
      · rcases List.mem_cons.1 he' with rfl | he'
        · exact hge
        · exact hall e' he' hn'
    · have hs' : (m.step e).2.locals.lookup x = some s := (step_not_names hx hn).trans hs
      obtain ⟨s', hs', hge, hfrom, hall⟩ :=
        run_heard es hx' hwf' hknown' hs' hord.2 (fun e' he' => hle e' (List.mem_cons_of_mem e he'))
      refine ⟨s', hs', hge, ?_, fun e' he' hn' => ?_⟩
      · rcases hfrom with rfl | ⟨e', he', hn', rfl⟩
        · exact .inl rfl
        · exact .inr ⟨e', List.mem_cons_of_mem e he', hn', rfl⟩
      · rcases List.mem_cons.1 he' with rfl | he'
        · exact absurd hn' hn
        · exact hall e' he' hn'

/-- A peer that joined up to `t` was last heard of by `t`. -/
theorem run_heard_upto {x : NodeId} {t : Nat} {m : Membership} (hx : x ≠ m.selfId)
    (h : ∀ s, m.locals.lookup x = some s → s ≤ t) {es : List MemberEvent} (hes : ∀ e ∈ es, e.now ≤ t) :
    ∀ s, (run step m es).locals.lookup x = some s → s ≤ t := by
  induction es generalizing m with
  | nil => exact h
  | cons e es ih =>
    have hx' : x ≠ (m.step e).2.selfId := by rw [(m.step_same e).selfId]; exact hx
    refine ih hx' (fun s hs => ?_) (fun e' he' => hes e' (List.mem_cons_of_mem e he'))
    rcases step_locals hx e with heq | heq
    · exact h s (heq.symm.trans hs)
    · obtain rfl := Option.some.inj (heq.symm.trans hs)
      exact hes e List.mem_cons_self

theorem run_known {m : Membership} {x : NodeId} (h : ∃ r, m.rows.lookup x = some r) (es : List MemberEvent) :
    ∃ r, (run step m es).rows.lookup x = some r :=
  inv_run (I := fun m : Membership => ∃ r, m.rows.lookup x = some r) (fun _ e ⟨_, hr⟩ => step_known hr e) h es

/-! ## The tick -/

/-- **A peer that is not gone is judged by the time it was last heard of.** -/
theorem tick_status {m : Membership} {x : NodeId} (hx : x ≠ m.selfId) {r : NodeInfo} (hr : m.rows.lookup x = some r)
    (hgone : ¬ m.Gone x) {s : Nat} (hs : m.locals.lookup x = some s) (now : Nat) :
    ∃ r', (m.tick now).2.get x = some r' ∧ r'.status = m.statusAfter (now - s) := by
  have hlive : ¬ (r.status = .left ∨ r.status = .dead) := by
    rintro (h | h)
    · exact hgone ⟨r, hr, .inr h⟩
    · exact hgone ⟨r, hr, .inl h⟩
  refine ⟨m.tickRow now x r, ?_, ?_⟩
  · rw [get, tick_rows, hr]
    rfl
  · rw [tickRow, if_neg hx, if_neg hlive, hs]
    rfl

theorem tick_gone {m : Membership} {x : NodeId} (h : m.Gone x) (now : Nat) : (m.tick now).2.Gone x := by
  obtain ⟨r, hr, hst⟩ := h
  have hkeep : m.tickRow now x r = r := by
    unfold tickRow
    split
    · rfl
    · rw [if_pos hst.symm]
  refine ⟨r, ?_, hst⟩
  rw [get, tick_rows, show m.rows.lookup x = some r from hr, Option.map_some, hkeep]

theorem Gone.not_alive {m : Membership} {x : NodeId} (h : m.Gone x) : ¬ m.IsAlive x := by
  rintro ⟨r', hr', hst'⟩
  obtain ⟨r, hr, hst⟩ := h
  obtain rfl := Option.some.inj (hr.symm.trans hr')
  rcases hst with hst | hst <;> rw [hst] at hst' <;> cases hst'

/-- **Detection in terms of the time measured from.** -/
theorem detected_iff_heard {m : Membership} {x : NodeId} (hx : x ≠ m.selfId) {r : NodeInfo}
    (hr : m.rows.lookup x = some r) (hgone : ¬ m.Gone x) {s : Nat} (hs : m.locals.lookup x = some s) {t now : Nat}
    (hnow : s ≤ now) :
    m.Detected x t now ↔
      (t + m.timeoutDead ≤ now → s + m.timeoutDead ≤ now) ∧
      (t + m.timeoutSuspect ≤ now → s + min m.timeoutSuspect m.timeoutDead ≤ now) := by
  obtain ⟨r', hr', hst'⟩ := tick_status hx hr hgone hs now
  have hdead : (m.tick now).2.Gone x ↔ s + m.timeoutDead ≤ now := by
    have hiff : (m.tick now).2.Gone x ↔ r'.status = .dead ∨ r'.status = .left := by
      constructor
      · rintro ⟨r'', hr'', h⟩
        obtain rfl := Option.some.inj (hr'.symm.trans hr'')
        exact h
      · exact fun h => ⟨r', hr', h⟩
    rw [hiff, hst', statusAfter]
    split
    · simp only [true_or, true_iff]
      omega
    · split <;> simp <;> omega
  have halive : (m.tick now).2.IsAlive x ↔ now < s + min m.timeoutSuspect m.timeoutDead := by
    have hiff : (m.tick now).2.IsAlive x ↔ r'.status = .alive := by
      constructor
      · rintro ⟨r'', hr'', h⟩
        obtain rfl := Option.some.inj (hr'.symm.trans hr'')
        exact h
      · exact fun h => ⟨r', hr', h⟩
    rw [hiff, hst', statusAfter]
    split
    · simp only [reduceCtorEq, false_iff, not_lt]
      omega
    · split
      · simp only [reduceCtorEq, false_iff, not_lt]
        omega
      · simp only [true_iff]
        omega
  unfold Detected
  rw [hdead, halive, not_lt]

/-- **A silent peer is detected exactly when no stale row about it came too late.**  At the tick the peer is gone
already, or every row about it that came after `t` is itself older than the timeout that has passed since `t`. -/
theorem silent_detected_iff (cluster : String) (selfInfo : NodeInfo) (suspect dead start : Nat) (x : NodeId)
    (hx : x ≠ selfInfo.id) (before since : List MemberEvent) (t now : Nat)
    (h : (new cluster selfInfo suspect dead start).Silent x before since t now) :
    (run step (new cluster selfInfo suspect dead start) (before ++ since)).Detected x t now ↔
      (run step (new cluster selfInfo suspect dead start) (before ++ since)).Gone x ∨
      ((t + dead ≤ now → ∀ e ∈ since, Names x e → e.now + dead ≤ now) ∧
       (t + suspect ≤ now → ∀ e ∈ since, Names x e → e.now + min suspect dead ≤ now)) := by
  set m0 := new cluster selfInfo suspect dead start with hm0
  have hwf0 : m0.Wf := new_wf cluster selfInfo suspect dead start
  set m1 := run step m0 before with hm1
  have hsame1 := m0.run_same before
  have hx1 : x ≠ m1.selfId := by rw [hm1, hsame1.selfId]; exact hx
  have hwf1 : m1.Wf := inv_run (I := Wf) (fun _ e hwf => step_wf hwf e) hwf0 before
  obtain ⟨r1, hr1⟩ := h.known
  obtain ⟨s1, hs1⟩ := hwf1.heard x r1 hr1
  have hnone : ∀ s, m0.locals.lookup x = some s → s ≤ t := by
    intro s hs
    rw [hm0, new_locals, if_neg hx] at hs
    cases hs
  have hs1t : s1 ≤ t := run_heard_upto hx hnone h.upto s1 hs1
  obtain ⟨s, hs, -, hfrom, hall⟩ := run_heard since hx1 hwf1 ⟨r1, hr1⟩ hs1 h.ordered
    (fun e he => hs1t.trans (h.after e he).1)
  obtain ⟨r, hr⟩ := run_known ⟨r1, hr1⟩ since
  rw [run_append]
  set m2 := run step m1 since with hm2
  have hsame2 := m1.run_same since
  have hx2 : x ≠ m2.selfId := by rw [hm2, hsame2.selfId]; exact hx1
  have hdead : m2.timeoutDead = dead := by rw [hm2, hsame2.dead, hm1, hsame1.dead]; rfl
  have hsuspect : m2.timeoutSuspect = suspect := by rw [hm2, hsame2.suspect, hm1, hsame1.suspect]; rfl
  by_cases hgone : m2.Gone x
  · refine iff_of_true ⟨fun _ => tick_gone hgone now, fun _ => (tick_gone hgone now).not_alive⟩ (.inl hgone)
  · -- Both timeouts compare the last row about the peer with a bound the silence itself already meets.
    have hbound : ∀ d d', d ≤ d' → t + d' ≤ now → (s + d ≤ now ↔ ∀ e ∈ since, Names x e → e.now + d ≤ now) := by
      intro d d' hd ht
      constructor
      · intro hle e he hn
        have := hall e he hn
        omega
      · intro hle
        rcases hfrom with rfl | ⟨e, he, hn, rfl⟩
        · omega
        · exact hle e he hn
    have hnow : s ≤ now := by
      rcases hfrom with rfl | ⟨e, he, -, rfl⟩
      · exact hs1t.trans h.clock
      · exact (h.after e he).2
    rw [detected_iff_heard hx2 hr hgone hs hnow, hdead, hsuspect, or_iff_right hgone]
    refine and_congr (imp_congr_right fun ht => ?_) (imp_congr_right fun ht => ?_)
    · exact hbound dead dead le_rfl ht
    · exact hbound (min suspect dead) suspect (min_le_left _ _) ht

/-! ## A relay that keeps a crashed peer alive -/

def peerB : NodeInfo := ⟨⟨"b"⟩, "mem://b", 1, 7, .alive⟩

/-- The table of node `a`, with the timeouts the unit tests use. -/
def tableA : Membership := new "celium" ⟨⟨"a"⟩, "mem://a", 1, 0, .alive⟩ 50 100 0

theorem silent_detected_quiet : tableA.Silent ⟨"b"⟩ [⟨0, .merge peerB⟩] [⟨60, .tick⟩] 0 100 ∧
    (run step tableA ([⟨0, .merge peerB⟩] ++ [⟨60, .tick⟩])).Detected ⟨"b"⟩ 0 100 := by
  have h : tableA.Silent ⟨"b"⟩ [⟨0, .merge peerB⟩] [⟨60, .tick⟩] 0 100 :=
    ⟨⟨peerB, by decide⟩, by decide, by decide, by decide, by decide, ⟨trivial, trivial⟩⟩
  refine ⟨h, (silent_detected_iff _ _ _ _ _ _ (by decide) _ _ _ _ h).2 (.inr ⟨fun _ => ?_, fun _ => ?_⟩)⟩
  all_goals
    intro e he hn
    rw [List.mem_singleton] at he
    subst he
    exact hn.elim

/-- Node `b` crashed at 0; at 90 node `c` relays the row it still has of it; the tick at 100 finds `b` alive. -/
theorem relay_hides_crash : ¬ ∀ (before since : List MemberEvent) (t now : Nat),
    tableA.Silent ⟨"b"⟩ before since t now → (run step tableA (before ++ since)).Detected ⟨"b"⟩ t now := by
  intro hall
  have h : tableA.Silent ⟨"b"⟩ [⟨0, .merge peerB⟩] [⟨90, .merge peerB⟩] 0 100 :=
    ⟨⟨peerB, by decide⟩, by decide, by decide, by decide, by decide, ⟨fun _ => by decide, trivial⟩⟩
  have hdet := (hall _ _ _ _ h).2 (by decide)
  exact hdet ⟨peerB, by decide, rfl⟩

end Membership

end Celium
