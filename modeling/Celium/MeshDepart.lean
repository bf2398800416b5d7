import Celium.MeshConverge
import Mathlib.Data.List.Induction
/-!
# MeshDepart — when a departure is reported as the sender meant it

A `Hello` and a `Sync` are merged by `(epoch, hlc)`; a `Goodbye` is applied as it comes, and its stamp is never read.  So
a receiver reports a peer as `Left` exactly when a `Goodbye` was processed after the newest row frame first came, and
that agrees with the order the frames were stamped in only for some orders of arrival (`departure_ordered_iff`).
-/
namespace Celium

open Fixed Runs

/-- A frame of a node on its way to a receiver: the incarnation it belongs to, the envelope, where it seems to come from
and when it is processed. -/
structure Delivery where
  epoch : UInt64
  env : Envelope
  src : String
  now : Nat

namespace Delivery

def stamp (d : Delivery) : ℕ ×ₗ ℕ := stampOf d.epoch d.env.hlc

def IsGoodbye (d : Delivery) : Prop := Inner.isGoodbye d.env = true

instance : DecidablePred IsGoodbye := fun d => inferInstanceAs (Decidable (Inner.isGoodbye d.env = true))

/-- The row a node sends of itself, stamped like the frame it is in. -/
structure OwnRow (x : NodeId) (d : Delivery) (r : NodeInfo) : Prop where
  id : r.id = x
  epoch : r.epoch = d.epoch
  hlc : r.hlc = d.env.hlc
  status : r.status = .alive

/-- `d` is a `Hello`, a `Sync` or a `Goodbye` as the node `x` of a cluster builds them. -/
structure From (x : NodeId) (cluster : String) (d : Delivery) : Prop where
  sender : d.env.sender = x.raw
  cluster : d.env.cluster = cluster
  rows : ¬ d.IsGoodbye → ∃ pre r post, Inner.nodesOf d.env = pre ++ r :: post ∧ OwnRow x d r ∧
    (∀ n ∈ pre, n.id ≠ x) ∧ ∀ n ∈ post, n.id ≠ x

end Delivery

namespace Inner

/-- Frames processed one after another. -/
def process (g : Inner) (ds : List Delivery) : Inner := ds.foldl (fun g d => g.handleEnvelope d.env d.src d.now) g

def ReportsLeft (g : Inner) (x : NodeId) : Prop := ∃ r, g.membership.get x = some r ∧ r.status = .left

end Inner

namespace Delivery

/-- The processed frame with the highest stamp is a `Goodbye`. -/
def LastIsGoodbye (ds : List Delivery) : Prop := ∃ d ∈ ds, d.IsGoodbye ∧ ∀ d' ∈ ds, d'.stamp ≤ d.stamp

/-- The newest row frame `d`, at its first arrival, with what was processed before it and after it. -/
structure Newest (pre : List Delivery) (d : Delivery) (post : List Delivery) : Prop where
  row : ¬ d.IsGoodbye
  before : ∀ d' ∈ pre, ¬ d'.IsGoodbye → d'.stamp < d.stamp
  after : ∀ d' ∈ post, ¬ d'.IsGoodbye → d'.stamp ≤ d.stamp

/-- Some `Goodbye` is processed after the newest row frame first came. -/
def GoodbyeAfter (ds : List Delivery) : Prop :=
  ∃ pre d post, ds = pre ++ d :: post ∧ Newest pre d post ∧ ∃ d' ∈ post, d'.IsGoodbye

/-- Some `Goodbye` is stamped above every row frame. -/
def GoodbyeAbove (ds : List Delivery) : Prop := ∃ d ∈ ds, d.IsGoodbye ∧ ∀ d' ∈ ds, ¬ d'.IsGoodbye → d'.stamp < d.stamp

/-! ## What the receiver keeps of a peer -/

/-- The stamp of the row kept, and whether a `Goodbye` came since. -/
def track (o : Option ((ℕ ×ₗ ℕ) × Bool)) (d : Delivery) : Option ((ℕ ×ₗ ℕ) × Bool) :=
  if d.IsGoodbye then o.map (fun p => (p.1, true))
  else match o with
    | none => some (d.stamp, false)
    | some (s, l) => if s < d.stamp then some (d.stamp, false) else some (s, l)

theorem track_goodbye {d : Delivery} (h : d.IsGoodbye) (o : Option ((ℕ ×ₗ ℕ) × Bool)) :
    track o d = o.map (fun p => (p.1, true)) := if_pos h

theorem track_first {d : Delivery} (h : ¬ d.IsGoodbye) : track none d = some (d.stamp, false) := if_neg h

theorem track_row {d : Delivery} (h : ¬ d.IsGoodbye) (s : ℕ ×ₗ ℕ) (l : Bool) :
    track (some (s, l)) d = if s < d.stamp then some (d.stamp, false) else some (s, l) := if_neg h

/-- A frame that is no row or not above the newest one leaves it the newest. -/
theorem Newest.append {pre post : List Delivery} {e d : Delivery} (h : Newest pre e post)
    (hd : ¬ d.IsGoodbye → d.stamp ≤ e.stamp) : Newest pre e (post ++ [d]) := by
  refine ⟨h.row, h.before, fun d' hd' hrow => ?_⟩
  rcases List.mem_append.1 hd' with hd' | hd'
  · exact h.after d' hd' hrow
  · rw [List.mem_singleton.1 hd'] at hrow ⊢
    exact hd hrow

/-- A row frame above the newest one is the newest. -/
theorem Newest.last {pre post : List Delivery} {e d : Delivery} (h : Newest pre e post) (hg : ¬ d.IsGoodbye)
    (hlt : e.stamp < d.stamp) : Newest (pre ++ e :: post) d [] := by
  refine ⟨hg, fun d' hd' hrow => ?_, fun d' hd' => by cases hd'⟩
  rcases List.mem_append.1 hd' with hd' | hd'
  · exact (h.before d' hd' hrow).trans hlt
  · rcases List.mem_cons.1 hd' with rfl | hd'
    · exact hlt
    · exact lt_of_le_of_lt (h.after d' hd' hrow) hlt

/-- The newest row frame of a processed list stands where `track` says. -/
theorem track_newest (ds : List Delivery) :
    match ds.foldl track none with
    | none => ∀ d ∈ ds, d.IsGoodbye
    | some (s, l) => ∃ pre d post, ds = pre ++ d :: post ∧ Newest pre d post ∧ d.stamp = s ∧
        (l = true ↔ ∃ d' ∈ post, d'.IsGoodbye) := by
  have hnone : (false = true) ↔ ∃ d' ∈ ([] : List Delivery), d'.IsGoodbye :=
    iff_of_false Bool.false_ne_true (fun ⟨d', hd', _⟩ => by cases hd')
  induction ds using List.reverseRecOn with
  | nil => exact fun d hd => by cases hd
  | append_singleton ds d ih =>
    rw [List.foldl_append, List.foldl_cons, List.foldl_nil]
    by_cases hg : d.IsGoodbye
    · rw [track_goodbye hg]
      cases ho : ds.foldl track none with
      | none =>
        rw [ho] at ih
        exact List.forall_mem_append.2 ⟨ih, List.forall_mem_singleton.2 hg⟩
      | some p =>
        rw [ho] at ih
        obtain ⟨pre, e, post, rfl, hnew, hs, -⟩ := ih
        exact ⟨pre, e, post ++ [d], by simp, hnew.append (fun hrow => absurd hg hrow), hs,
          iff_of_true rfl ⟨d, by simp, hg⟩⟩
    · cases ho : ds.foldl track none with
      | none =>
        rw [ho] at ih
        rw [track_first hg]
        refine ⟨ds, d, [], rfl, ⟨hg, fun d' hd' hrow => absurd (ih d' hd') hrow, fun d' hd' => by cases hd'⟩, rfl, hnone⟩
      | some p =>
        rw [ho] at ih
        obtain ⟨s, l⟩ := p
        obtain ⟨pre, e, post, rfl, hnew, rfl, hl⟩ := ih
        rw [track_row hg]
        by_cases hlt : e.stamp < d.stamp
        · rw [if_pos hlt]
          exact ⟨pre ++ e :: post, d, [], rfl, hnew.last hg hlt, rfl, hnone⟩
        · rw [if_neg hlt]
          refine ⟨pre, e, post ++ [d], by simp, hnew.append (fun _ => not_lt.1 hlt), rfl, hl.trans ?_⟩
          simp [hg]

/-- The newest row frame has one first arrival. -/
theorem Newest.unique {pre pre' : List Delivery} {d d' : Delivery} {post post' : List Delivery}
    (heq : pre ++ d :: post = pre' ++ d' :: post') (h : Newest pre d post) (h' : Newest pre' d' post') : post = post' := by
  rcases List.append_eq_append_iff.1 heq with ⟨mid, rfl, hmid⟩ | ⟨mid, rfl, hmid⟩
  · cases mid with
    | nil => exact (List.cons.inj hmid).2
    | cons e mid =>
      obtain ⟨rfl, rfl⟩ := List.cons.inj hmid
      have hlt := h'.before d (by simp) h.row
      have hle := h.after d' (by simp) h'.row
      exact absurd hlt (not_lt.2 hle)
  · cases mid with
    | nil => exact (List.cons.inj hmid).2.symm
    | cons e mid =>
      obtain ⟨rfl, rfl⟩ := List.cons.inj hmid
      have hlt := h.before d' (by simp) h'.row
      have hle := h'.after d (by simp) h.row
      exact absurd hlt (not_lt.2 hle)

theorem goodbyeAfter_iff (ds : List Delivery) : GoodbyeAfter ds ↔ ∃ s, ds.foldl track none = some (s, true) := by
  have h := track_newest ds
  constructor
  · rintro ⟨pre, d, post, rfl, hnew, hbye⟩
    cases ho : (pre ++ d :: post).foldl track none with
    | none =>
      rw [ho] at h
      exact absurd (h d (by simp)) hnew.row
    | some p =>
      rw [ho] at h
      obtain ⟨pre', d', post', heq, hnew', -, hl⟩ := h
      have hpost := hnew.unique heq hnew'
      refine ⟨p.1, ?_⟩
      rw [← hl.2 (hpost ▸ hbye)]
  · rintro ⟨s, hs⟩
    rw [hs] at h
    obtain ⟨pre, d, post, heq, hnew, -, hl⟩ := h
    exact ⟨pre, d, post, heq, hnew, hl.1 rfl⟩

end Delivery

/-! ## The receiver follows -/

namespace Inner

/-- The row of `x` in the receiver's table is the one `track` describes. -/
def Tracks (x : NodeId) (g : Inner) : Option ((ℕ ×ₗ ℕ) × Bool) → Prop
  | none => g.membership.get x = none
  | some (s, l) => ∃ r, g.membership.get x = some r ∧ r.stamp = s ∧ r.status = if l then .left else .alive

/-- Merging a node's rows leaves, for the node itself, the merge of its own row. -/
theorem mergeAll_ownRow {m : Membership} {x : NodeId} (hx : x ≠ m.selfId) {pre post : List NodeInfo} {r : NodeInfo}
    (hr : r.id = x) (hpre : ∀ n ∈ pre, n.id ≠ x) (hpost : ∀ n ∈ post, n.id ≠ x) (now : Nat) :
    (m.mergeAll ((pre ++ r :: post).map (fun n => (n, now)))).get x = Lww.keep NodeInfo.stamp (m.get x) r := by
  have hrows := congrFun (m.mergeAll_rows ((pre ++ r :: post).map (fun n => (n, now)))) x
  have hmap : ((pre ++ r :: post).map (fun n => (n, now))).map (·.1) = pre ++ r :: post := by
    rw [List.map_map]
    exact List.map_id' _
  have hfilter : (pre ++ r :: post).filter (fun v => decide (v.id = x)) = [r] := by
    rw [List.filter_append, List.filter_cons_of_pos (by simpa using hr),
      List.filter_eq_nil_iff.2 (fun n hn => by simpa using hpre n hn),
      List.filter_eq_nil_iff.2 (fun n hn => by simpa using hpost n hn)]
    rfl
  rw [hmap, Lww.mergeAll_apply (k := x) hx, hfilter] at hrows
  exact hrows

theorem goodbye_tracks {x : NodeId} {g : Inner} (hx : x ≠ g.membership.selfId) {d : Delivery}
    (hd : d.From x g.config.cluster) (hg : d.IsGoodbye) {o : Option ((ℕ ×ₗ ℕ) × Bool)} (h : g.Tracks x o) :
    (g.handleEnvelope d.env d.src d.now).Tracks x (Delivery.track o d) := by
  have hid : (⟨d.env.sender⟩ : NodeId) = x := by rw [hd.sender]
  have hget : (g.membership.markLeft x).get x = (g.membership.get x).map (fun r => { r with status := .left }) := by
    rw [Membership.get, Membership.markLeft_rows, if_pos ⟨rfl, hx⟩]
    rfl
  have hgb : isGoodbye d.env = true := hg
  rw [handleEnvelope_eq hd.cluster, Delivery.track_goodbye hg, hid, if_pos hgb]
  cases o with
  | none =>
    change (g.membership.markLeft x).get x = none
    rw [hget, show g.membership.get x = none from h]
    rfl
  | some p =>
    obtain ⟨r, hr, hs, -⟩ := h
    refine ⟨{ r with status := .left }, ?_, hs, rfl⟩
    dsimp only
    rw [hget, hr]
    rfl

theorem row_tracks {x : NodeId} {g : Inner} (hx : x ≠ g.membership.selfId) {d : Delivery}
    (hd : d.From x g.config.cluster) (hg : ¬ d.IsGoodbye) {o : Option ((ℕ ×ₗ ℕ) × Bool)} (h : g.Tracks x o) :
    (g.handleEnvelope d.env d.src d.now).Tracks x (Delivery.track o d) := by
  obtain ⟨pre, r, post, hnodes, hown, hpre, hpost⟩ := hd.rows hg
  have hget := mergeAll_ownRow hx hown.id hpre hpost d.now
  have hstamp : r.stamp = d.stamp := by
    rw [NodeInfo.stamp, Delivery.stamp, hown.epoch, hown.hlc]
  have hgb : ¬ isGoodbye d.env = true := hg
  rw [handleEnvelope_eq hd.cluster, if_neg hgb, hnodes]
  cases o with
  | none =>
    rw [Delivery.track_first hg]
    refine ⟨r, ?_, hstamp, hown.status⟩
    dsimp only
    rw [hget, show g.membership.get x = none from h]
    exact Lww.keep_of_beats trivial
  | some p =>
    obtain ⟨s, l⟩ := p
    obtain ⟨o, ho, rfl, hst⟩ := h
    have hbeats : Lww.Beats NodeInfo.stamp (some o) r ↔ o.stamp < d.stamp := by rw [Lww.beats_some, hstamp]
    rw [Delivery.track_row hg]
    by_cases hlt : o.stamp < d.stamp
    · rw [if_pos hlt]
      refine ⟨r, ?_, hstamp, hown.status⟩
      dsimp only
      rw [hget, ho]
      exact Lww.keep_of_beats (hbeats.2 hlt)
    · rw [if_neg hlt]
      refine ⟨o, ?_, rfl, hst⟩
      dsimp only
      rw [hget, ho]
      exact Lww.keep_of_not_beats (fun hb => hlt (hbeats.1 hb))

/-- **What the table says of a peer follows `track`.** -/
theorem handleEnvelope_tracks {x : NodeId} {g : Inner} (hx : x ≠ g.membership.selfId) {d : Delivery}
    (hd : d.From x g.config.cluster) {o : Option ((ℕ ×ₗ ℕ) × Bool)} (h : g.Tracks x o) :
    (g.handleEnvelope d.env d.src d.now).Tracks x (Delivery.track o d) := by
  by_cases hg : d.IsGoodbye
  · exact goodbye_tracks hx hd hg h
  · exact row_tracks hx hd hg h

theorem handleEnvelope_fixed (g : Inner) (env : Envelope) (src : String) (now : Nat) :
    (g.handleEnvelope env src now).config = g.config ∧
      (g.handleEnvelope env src now).membership.selfId = g.membership.selfId := by
  by_cases hc : env.cluster = g.config.cluster
  · rw [handleEnvelope_eq hc]
    refine ⟨rfl, ?_⟩
    dsimp only
    split
    · exact (Membership.markLeft_same _ _).selfId
    · exact (Membership.mergeAll_same _ _).selfId
  · rw [handleEnvelope, if_pos hc]
    exact ⟨rfl, rfl⟩

theorem process_tracks {x : NodeId} : ∀ (ds : List Delivery) {g : Inner} {o : Option ((ℕ ×ₗ ℕ) × Bool)},
    x ≠ g.membership.selfId → (∀ d ∈ ds, d.From x g.config.cluster) → g.Tracks x o →
      (g.process ds).Tracks x (ds.foldl Delivery.track o)
  | [], _, _, _, _, h => h
  | d :: ds, g, o, hx, hds, h => by
    have hfix := g.handleEnvelope_fixed d.env d.src d.now
    have hstep := handleEnvelope_tracks hx (hds d List.mem_cons_self) h
    refine process_tracks ds (hfix.2 ▸ hx) (fun d' hd' => ?_) hstep
    rw [hfix.1]
    exact hds d' (List.mem_cons_of_mem d hd')

/-- **A receiver reports `Left` exactly when a `Goodbye` came after the newest row frame.** -/
theorem reportsLeft_iff {g : Inner} {x : NodeId} (hx : x ≠ g.membership.selfId) (hnew : g.membership.get x = none)
    {ds : List Delivery} (hds : ∀ d ∈ ds, d.From x g.config.cluster) :
    (g.process ds).ReportsLeft x ↔ Delivery.GoodbyeAfter ds := by
  have h := process_tracks ds (o := none) hx hds hnew
  rw [Delivery.goodbyeAfter_iff]
  cases ho : ds.foldl Delivery.track none with
  | none =>
    rw [ho] at h
    refine iff_of_false ?_ (fun ⟨s, hs⟩ => by cases hs)
    rintro ⟨r, hr, -⟩
    cases hr.symm.trans h
  | some p =>
    obtain ⟨s, l⟩ := p
    rw [ho] at h
    obtain ⟨r, hr, -, hst⟩ := h
    cases l with
    | true => exact iff_of_true ⟨r, hr, hst⟩ ⟨s, rfl⟩
    | false =>
      refine iff_of_false ?_ (fun ⟨s', hs'⟩ => by cases hs')
      rintro ⟨r', hr', hst'⟩
      obtain rfl := Option.some.inj (hr.symm.trans hr')
      rw [hst] at hst'
      cases hst'

end Inner

/-! ## What a node sends of itself -/

namespace Inner

/-- Where one row has the id, replacing the first is replacing that one. -/
theorem replaceFirst_split {row r : NodeInfo} (hid : r.id = row.id) : ∀ {l : List NodeInfo}, r ∈ l →
    (l.map (·.id)).Nodup → ∃ pre post, replaceFirst row l = pre ++ row :: post ∧ (∀ n ∈ pre, n.id ≠ row.id) ∧
      ∀ n ∈ post, n.id ≠ row.id
  | [], h, _ => by cases h
  | n :: l, h, hnd => by
    rw [List.map_cons, List.nodup_cons] at hnd
    by_cases hn : n.id = row.id
    · refine ⟨[], l, if_pos hn, (fun n' hn' => by cases hn'), fun n' hn' heq => ?_⟩
      exact hnd.1 (List.mem_map.2 ⟨n', hn', heq.trans hn.symm⟩)
    · rcases List.mem_cons.1 h with rfl | h
      · exact absurd hid hn
      · obtain ⟨pre, post, heq, hpre, hpost⟩ := replaceFirst_split hid h hnd.2
        refine ⟨n :: pre, post, ?_, fun n' hn' => ?_, hpost⟩
        · rw [replaceFirst, if_neg hn, heq]
          rfl
        · rcases List.mem_cons.1 hn' with rfl | hn'
          · exact hn
          · exact hpre n' hn'

/-- The row a node sends of itself. -/
theorem helloRow_own {cfg : MeshConfig} {g : Inner} (h : g.Wf cfg) (p : Payload) (src : String) (now : Nat) :
    Delivery.OwnRow cfg.nodeId ⟨cfg.epoch, g.envelope p, src, now⟩ g.helloRow := by
  obtain ⟨r, hr, hepoch, hst⟩ := h.self
  have hrow : g.selfRow = r := by
    rw [selfRow, h.member_self, hr]
    rfl
  refine ⟨?_, ?_, rfl, ?_⟩
  · rw [helloRow, hrow]
    exact h.members.keyed cfg.nodeId r hr
  · rw [helloRow, hrow]
    exact hepoch
  · rw [helloRow, hrow]
    exact hst

end Inner

/-- A `Hello`, a `Sync` or a `Goodbye`. -/
def Inner.isGossip (env : Envelope) : Bool :=
  match env.payload with
  | .hello _ | .sync .. | .goodbye => true
  | .request .. | .response .. => false

/-- **What a section sends**: it ticks the clock, and stamps one of five payloads with it. -/
theorem Inner.step_envelope {g : Inner} {a : Nat × Section} {env : Envelope} (h : (g.step a).1 = some env) :
    (g.step a).2 = g.tickHlc ∧ ∃ p, env = g.tickHlc.envelope p ∧
      (p = .hello g.tickHlc.helloRow ∨
        p = .sync (replaceFirst g.tickHlc.helloRow g.tickHlc.membership.snapshot) g.tickHlc.federation.localRows ∨
        p = .goodbye ∨ (∃ reqId target op, p = .request reqId target op) ∨ ∃ reqId result, p = .response reqId result) := by
  unfold step at h ⊢
  cases hsec : a.2 with
  | join addr => rw [hsec] at h; cases h
  | listVms => rw [hsec] at h; cases h
  | publish rows => rw [hsec] at h; cases h
  | receive e s => rw [hsec] at h; cases h
  | gossip order => rw [hsec] at h; cases h
  | sendHello =>
    rw [hsec] at h
    exact ⟨rfl, _, (Option.some.inj h).symm, .inl rfl⟩
  | sendSync =>
    rw [hsec] at h
    exact ⟨rfl, _, (Option.some.inj h).symm, .inr (.inl rfl)⟩
  | shutdown =>
    rw [hsec] at h
    exact ⟨rfl, _, (Option.some.inj h).symm, .inr (.inr (.inl rfl))⟩
  | sendRequest reqId target op =>
    rw [hsec] at h
    exact ⟨rfl, _, (Option.some.inj h).symm, .inr (.inr (.inr (.inl ⟨reqId, target, op, rfl⟩)))⟩
  | sendResponse reqId result =>
    rw [hsec] at h
    exact ⟨rfl, _, (Option.some.inj h).symm, .inr (.inr (.inr (.inr ⟨reqId, result, rfl⟩)))⟩

namespace Delivery

/-- `d` is a gossip frame that some incarnation of the node `x` built in some run. -/
def SentBy (x : NodeId) (cluster : String) (d : Delivery) : Prop :=
  Inner.isGossip d.env = true ∧ ∃ cfg start as, cfg.nodeId = x ∧ cfg.cluster = cluster ∧ cfg.epoch = d.epoch ∧
    some d.env ∈ answers Inner.step (Inner.start cfg start) as

/-- **Every gossip frame a node builds carries its own row, once, with the frame's stamp.** -/
theorem SentBy.from_ {x : NodeId} {cluster : String} {d : Delivery} (h : d.SentBy x cluster) : d.From x cluster := by
  obtain ⟨hgossip, cfg, start, as, rfl, rfl, hepoch, hmem⟩ := h
  obtain ⟨pre, a, post, -, hstep⟩ := (mem_answers_iff _ _ _).1 hmem
  have hwf : (run Inner.step (Inner.start cfg start) pre).Wf cfg := Inner.run_wf cfg start pre
  set g := run Inner.step (Inner.start cfg start) pre
  have hwf' : g.tickHlc.Wf cfg := hwf.tick
  have hsender : ∀ p, (g.tickHlc.envelope p).sender = cfg.nodeId.raw ∧ (g.tickHlc.envelope p).cluster = cfg.cluster :=
    fun p => ⟨by rw [← hwf'.config]; rfl, by rw [← hwf'.config]; rfl⟩
  obtain ⟨epoch, env, src, now⟩ := d
  dsimp only at hgossip hepoch hstep
  subst hepoch
  obtain ⟨-, p, rfl, hpayload⟩ := Inner.step_envelope hstep
  rcases hpayload with rfl | rfl | rfl | ⟨reqId, target, op, rfl⟩ | ⟨reqId, result, rfl⟩
  · -- `Hello`
    refine ⟨(hsender _).1, (hsender _).2, fun _ => ?_⟩
    exact ⟨[], _, [], rfl, Inner.helloRow_own hwf' _ src now, (fun n hn => by cases hn), fun n hn => by cases hn⟩
  · -- `Sync`
    have hown := Inner.helloRow_own hwf' (.sync (Inner.replaceFirst g.tickHlc.helloRow g.tickHlc.membership.snapshot)
      g.tickHlc.federation.localRows) src now
    obtain ⟨r, hr, -⟩ := hwf'.self
    have hmem : r ∈ g.tickHlc.membership.snapshot := (Membership.mem_snapshot _ r).2 ⟨_, hr⟩
    have hid : r.id = g.tickHlc.helloRow.id := (hwf'.members.keyed _ r hr).trans hown.id.symm
    obtain ⟨pre', post', hsplit, hpre, hpost⟩ := Inner.replaceFirst_split hid hmem hwf'.members.snapshot_nodup
    rw [hown.id] at hpre hpost
    exact ⟨(hsender _).1, (hsender _).2, fun _ => ⟨pre', _, post', hsplit, hown, hpre, hpost⟩⟩
  · exact ⟨(hsender _).1, (hsender _).2, fun hrow => absurd rfl hrow⟩
  · cases hgossip
  · cases hgossip

/-- Among frames of which two with one stamp are one, the greatest is a `Goodbye` exactly when a `Goodbye` is stamped
above every row frame. -/
theorem lastIsGoodbye_iff {ds : List Delivery} (hstamps : ∀ d ∈ ds, ∀ d' ∈ ds, d.stamp = d'.stamp → d.env = d'.env) :
    LastIsGoodbye ds ↔ GoodbyeAbove ds := by
  constructor
  · rintro ⟨d, hd, hbye, hmax⟩
    refine ⟨d, hd, hbye, fun d' hd' hrow => lt_of_le_of_ne (hmax d' hd') (fun heq => hrow ?_)⟩
    rw [IsGoodbye, hstamps d' hd' d hd heq]
    exact hbye
  · rintro ⟨d, hd, hbye, habove⟩
    -- the highest stamped of the goodbyes
    have hbest : Lww.Holds stamp none (ds.filter (fun d => decide d.IsGoodbye)) _ := Lww.holds_keepAll _ _
    rcases hbest with ⟨-, hnone⟩ | hmax
    · exact absurd trivial (hnone d (List.mem_filter.2 ⟨hd, decide_eq_true hbye⟩))
    · obtain ⟨e, he, -, -, hmax⟩ := hmax
      rw [List.mem_filter, decide_eq_true_eq] at he
      have hde : d.stamp ≤ e.stamp := hmax d (List.mem_filter.2 ⟨hd, decide_eq_true hbye⟩)
      refine ⟨e, he.1, he.2, fun d' hd' => ?_⟩
      by_cases hg : d'.IsGoodbye
      · exact hmax d' (List.mem_filter.2 ⟨hd', decide_eq_true hg⟩)
      · exact (le_of_lt (habove d' hd' hg)).trans hde

end Delivery

open Delivery

/-- **A departure is reported as it was stamped exactly when the frames came in a suitable order**: a `Goodbye` is
processed after the newest row frame first came if and only if one is stamped above it. -/
theorem departure_ordered_iff (g : Inner) (x : NodeId) (hx : x ≠ g.membership.selfId)
    (hnew : g.membership.get x = none) (ds : List Delivery) (hsent : ∀ d ∈ ds, d.SentBy x g.config.cluster)
    (hstamps : ∀ d ∈ ds, ∀ d' ∈ ds, d.stamp = d'.stamp → d.env = d'.env) :
    ((g.process ds).ReportsLeft x ↔ LastIsGoodbye ds) ↔ (GoodbyeAfter ds ↔ GoodbyeAbove ds) := by
  rw [Inner.reportsLeft_iff hx hnew (fun d hd => (hsent d hd).from_), lastIsGoodbye_iff hstamps]

/-! ## Two nodes -/

namespace Delivery

/-- What node `b` sends when it says hello, syncs and shuts down, in that order. -/
def helloB : Envelope := (Inner.start (defaultsFor "b") 0).sendHello.1
def syncB : Envelope := (Inner.start (defaultsFor "b") 0).sendHello.2.sendSync.1
def goodbyeB : Envelope := (Inner.start (defaultsFor "b") 0).sendHello.2.sendSync.2.shutdown.1

def sectionsB : List (Nat × Section) := [(0, .sendHello), (0, .sendSync), (0, .shutdown)]

/-- A frame of `b` that arrives at `a`. -/
def atA (env : Envelope) : Delivery := ⟨1, env, "mem://b", 0⟩

theorem answers_sectionsB :
    answers Inner.step (Inner.start (defaultsFor "b") 0) sectionsB = [some helloB, some syncB, some goodbyeB] := rfl

theorem atA_sentBy {env : Envelope} (hg : Inner.isGossip env = true)
    (h : some env ∈ [some helloB, some syncB, some goodbyeB]) : (atA env).SentBy ⟨"b"⟩ "celium" :=
  ⟨hg, defaultsFor "b", 0, sectionsB, rfl, rfl, rfl, answers_sectionsB ▸ h⟩

theorem stamps_of_nodup {ds : List Delivery} (h : (ds.map stamp).Nodup) :
    ∀ d ∈ ds, ∀ d' ∈ ds, d.stamp = d'.stamp → d.env = d'.env :=
  fun _ hd _ hd' heq => congrArg env (List.inj_on_of_nodup_map h hd hd' heq)

end Delivery

/-- In the order they were sent, `b` is reported as departed. -/
theorem departure_in_order :
    (((Inner.start (defaultsFor "a") 0).process [atA helloB, atA syncB, atA goodbyeB]).ReportsLeft ⟨"b"⟩ ↔
      LastIsGoodbye [atA helloB, atA syncB, atA goodbyeB]) ∧
    (GoodbyeAfter [atA helloB, atA syncB, atA goodbyeB] ↔ GoodbyeAbove [atA helloB, atA syncB, atA goodbyeB]) := by
  have habove : GoodbyeAbove [atA helloB, atA syncB, atA goodbyeB] :=
    ⟨atA goodbyeB, by simp, rfl, by simp only [List.forall_mem_cons]; decide⟩
  have hafter : GoodbyeAfter [atA helloB, atA syncB, atA goodbyeB] :=
    ⟨[atA helloB], atA syncB, [atA goodbyeB], rfl,
      ⟨by decide, by simp only [List.forall_mem_cons]; decide, by simp only [List.forall_mem_cons]; decide⟩,
      atA goodbyeB, by simp, rfl⟩
  have hiff : GoodbyeAfter [atA helloB, atA syncB, atA goodbyeB] ↔
      GoodbyeAbove [atA helloB, atA syncB, atA goodbyeB] := iff_of_true hafter habove
  refine ⟨(departure_ordered_iff (Inner.start (defaultsFor "a") 0) ⟨"b"⟩ (by decide) (by decide) _ ?_ ?_).2 hiff, hiff⟩
  · simp only [List.forall_mem_cons]
    exact ⟨atA_sentBy rfl (by simp), atA_sentBy rfl (by simp), atA_sentBy rfl (by simp), by simp⟩
  · exact stamps_of_nodup (by decide)

/-- The `Sync` overtaken by the `Goodbye`: `b` has left, and `a` reports it alive. -/
theorem late_sync_revives : ¬ ∀ (g : Inner) (x : NodeId) (ds : List Delivery), x ≠ g.membership.selfId →
    g.membership.get x = none → (∀ d ∈ ds, d.SentBy x g.config.cluster) →
    (∀ d ∈ ds, ∀ d' ∈ ds, d.stamp = d'.stamp → d.env = d'.env) → (∃ d rest, ds = d :: rest ∧ ¬ d.IsGoodbye) →
    ((g.process ds).ReportsLeft x ↔ LastIsGoodbye ds) := by
  intro hall
  have h := hall (Inner.start (defaultsFor "a") 0) ⟨"b"⟩ [atA helloB, atA goodbyeB, atA syncB] (by decide) (by decide)
    (by
      simp only [List.forall_mem_cons]
      exact ⟨atA_sentBy rfl (by simp), atA_sentBy rfl (by simp), atA_sentBy rfl (by simp), by simp⟩)
    (stamps_of_nodup (by decide)) ⟨_, _, rfl, by decide⟩
  have hlast : LastIsGoodbye [atA helloB, atA goodbyeB, atA syncB] :=
    ⟨atA goodbyeB, by simp, rfl, by simp only [List.forall_mem_cons]; decide⟩
  obtain ⟨r, hr, hst⟩ := h.2 hlast
  have halive : (((Inner.start (defaultsFor "a") 0).process [atA helloB, atA goodbyeB, atA syncB]).membership.get
      ⟨"b"⟩).map (·.status) = some .alive := by decide
  rw [hr] at halive
  simp [hst] at halive

end Celium
