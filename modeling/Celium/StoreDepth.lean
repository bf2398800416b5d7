import Celium.StoreReach
/-!
# StoreDepth — the 64-level guards, and what `create` admits

`chain_from`, `ancestors` and `walk` each give up with `Internal` past a depth of 64, to catch cycles or corruption.
There are no cycles, but `create` has no such guard: a chain of 66 tenants is accepted level by level, and its last
tenant can then be neither charged nor released.  `Walkable` is what the guards promise for a store, and it holds in
every state of a run iff no accepted `create` goes below level 65.
-/
namespace Celium

open Fixed Forest Runs

namespace StoreState

variable {s s' : StoreState}

/-- No walker gives up on a live tenant. -/
def Walkable (s : StoreState) : Prop :=
  ∀ i t, s.tenants.lookup i = some t →
    (∀ c e, (s.charge ⟨i⟩ c).1 = .error e → e.isInternal = false) ∧
    (∀ c e, (s.release ⟨i⟩ c).1 = .error e → e.isInternal = false) ∧
    (∀ e, s.ancestors ⟨i⟩ = .error e → e.isInternal = false) ∧
    ∀ ord e, (s.deleteTenantRecursive ⟨i⟩ ord).1 = .error e → e.isInternal = false

/-- Every chain has at most 65 levels. -/
def ChainsFit (s : StoreState) : Prop := ∀ i l, ChainTo s.up i l → l.length ≤ 65

theorem ancestorsLoop_ok {p : TenantId} {l : List TenantId} (left : Nat) (h : ChainTo s.up p l) (hlen : l.length ≤ left) :
    ∃ ts, s.ancestorsLoop left (some p) = .ok ts := by
  induction left generalizing p l with
  | zero =>
    cases h <;> simp at hlen
  | succ left ih =>
    unfold ancestorsLoop
    cases h with
    | root hr =>
      obtain ⟨t, ht, hpar⟩ := up_eq_some.1 hr
      exact ⟨[t], by simp [get, ht, hpar, ancestorsLoop]⟩
    | child hc hrest =>
      obtain ⟨t, ht, hpar⟩ := edge_iff.1 hc
      obtain ⟨ts, hts⟩ := ih hrest (by simpa using hlen)
      exact ⟨t :: ts, by simp [get, ht, hpar, hts]⟩

/-- `ancestors` leaves the tenant itself out, so it reaches one level further than `chain_from`. -/
theorem ancestors_ok {i : TenantId} {l : List TenantId} (h : ChainTo s.up i l) (hlen : l.length ≤ 66) :
    ∃ ts, s.ancestors i = .ok ts := by
  unfold ancestors
  cases h with
  | root hr =>
    obtain ⟨t, ht, hpar⟩ := up_eq_some.1 hr
    exact ⟨[], by simp [get, ht, hpar, ancestorsLoop]⟩
  | child hc hrest =>
    obtain ⟨t, ht, hpar⟩ := edge_iff.1 hc
    rw [List.length_cons] at hlen
    obtain ⟨ts, hts⟩ := ancestorsLoop_ok 65 hrest (Nat.le_of_succ_le_succ hlen)
    exact ⟨ts, by simp [get, ht, hpar, hts]⟩

/-- **The walkers of a store never give up exactly when its chains have at most 65 levels.** -/
theorem walkable_iff (hwf : s.TreeWf) : s.Walkable ↔ s.ChainsFit := by
  constructor
  · intro h i l hl
    obtain ⟨t, ht⟩ := up_isSome.1 hl.live
    by_contra hlen
    have hdeep : s.chainFrom i = .error (.internal "tenant hierarchy too deep") := chainLoop_deep 65 hl (by omega)
    have := (h i.raw t ht).2.1 default (.internal "tenant hierarchy too deep") (by simp [release, hdeep])
    cases this
  · intro h i t ht
    obtain ⟨l, hl⟩ := hwf.rooted ⟨i⟩ (up_isSome.2 ⟨t, ht⟩)
    have hlen := h ⟨i⟩ l hl
    have hchain : s.chainFrom ⟨i⟩ = .ok l := chainFrom_ok_iff.2 ⟨hl, hlen⟩
    refine ⟨fun c e he => ?_, fun c e he => ?_, fun e he => ?_, fun ord e he => ?_⟩
    · rcases s.charge_cases ⟨i⟩ c with ⟨e', he', -, hint⟩ | ⟨chain, u, s', he', -⟩ <;> rw [he'] at he
      · obtain rfl := Except.error.inj he
        by_contra hne
        rw [hint (by simpa using hne)] at hchain
        cases hchain
      · cases he
    · rcases s.release_cases ⟨i⟩ c with ⟨e', he', hc⟩ | ⟨chain, u, s', he', -⟩ <;> rw [he'] at he
      · rw [hc] at hchain
        cases hchain
      · cases he
    · obtain ⟨ts, hts⟩ := ancestors_ok hl (by omega)
      rw [hts] at he
      cases he
    · rcases deleteTenantRecursive_cases hwf ⟨i⟩ ord with ⟨e', he', hint⟩ | ⟨report, s', he', -⟩ <;> rw [he'] at he
      · obtain rfl := Except.error.inj he
        have hshallow : Shallow s.up 65 ⟨i⟩ := by
          refine (shallow_iff 65 hl).2 fun x lx _ hx => ?_
          have := h x lx hx
          have := hl.self_mem
          have : 0 < l.length := List.length_pos_of_mem this
          omega
        by_contra hne
        exact (hint.1 (by simpa using hne)).2 hshallow
      · cases he

/-! ## What a call can do to the chains -/

theorem Drops.chainTo {keep : Session → Bool} {id : TenantId} {t : Tenant} (h : Drops keep s id t s') {i : TenantId}
    {l : List TenantId} (hl : ChainTo s'.up i l) : ChainTo s.up i l := by
  have hne : i ≠ id := by
    rintro rfl
    have := hl.live
    rw [h.pruned.here] at this
    cases this
  exact chainTo_frame (fun j hj => (h.pruned.other j hj).symm) h.pruned.not_edge hne hl

/-- The chains after a `create` are the old ones and the new tenant's. -/
theorem Grows.chainsFit_iff {t : Tenant} (h : s.Grows t s') (hwf : s.TreeWf) (hfit : s.ChainsFit) :
    s'.ChainsFit ↔ ∀ p l, t.parent = some p → ChainTo s.up p l → l.length ≤ 64 := by
  have hg := h.grown hwf
  have hframe : ∀ {i l}, i ≠ t.id → ChainTo s.up i l → ChainTo s'.up i l :=
    fun hi hl => chainTo_frame hg.other (hg.not_edge hwf.rooted) hi hl
  have hback : ∀ {i l}, i ≠ t.id → ChainTo s'.up i l → ChainTo s.up i l :=
    fun hi hl => chainTo_frame (fun j hj => (hg.other j hj).symm) (hg.not_edge' hwf.rooted) hi hl
  have hpar : ∀ p, t.parent = some p → p ≠ t.id := by
    rintro p hp rfl
    have := hg.parent t.id hp
    rw [hg.fresh] at this
    cases this
  constructor
  · intro hfit' p l hp hl
    have := hfit' t.id (t.id :: l) (.child (by rw [hg.here, hp]) (hframe (hpar p hp) hl))
    rwa [List.length_cons, Nat.add_le_add_iff_right] at this
  · intro hle i l hl
    by_cases hi : i = t.id
    · subst hi
      cases hl with
      | root _ => simp
      | @child _ p l hp hl =>
        rw [hg.here] at hp
        have hp := Option.some.inj hp
        have := hle p l hp (hback (hpar p hp) hl)
        rw [List.length_cons]
        exact Nat.succ_le_succ this
    · exact hfit i l (hback hi hl)

/-- An accepted `create` names a parent at most 64 levels deep. -/
def StaysShallow (s : StoreState) : Op → Prop
  | .create spec rootCaps => s.Admits spec rootCaps → validateSegment spec.name = .ok () →
      ∀ p l, spec.parent = some p → ChainTo s.up p l → l.length ≤ 64
  | _ => True

end StoreState

open StoreState

theorem Effect.chainsFit {cr : Crypto} {s s' : StoreState} {op : Op} (hfit : s.ChainsFit) (he : Effect cr s op s')
    (hop : ∀ spec rootCaps, op ≠ .create spec rootCaps) : s'.ChainsFit := by
  have hsame : ∀ s', SameIndex s s' → s'.ChainsFit := by
    intro s' h i l hl
    rw [h.up_eq] at hl
    exact hfit i l hl
  cases he with
  | same => exact hfit
  | bumped => exact absurd rfl (hop _ _)
  | grown => exact absurd rfl (hop _ _)
  | dropped hd => exact fun i l hl => hfit i l (hd.chainTo hl)
  | userAdded hr => exact hsame _ hr.sameIndex
  | userRemoved hr => exact hsame _ hr.sameIndex
  | passwordSet hr => exact hsame _ hr.sameIndex
  | sessionMinted => exact hsame _ (sameIndex_sessions _)
  | sessionsRetained => exact hsame _ (sameIndex_sessions _)
  | rotated _ hr => exact hsame _ hr.sameIndex
  | charged hr => exact hsame _ hr.sameIndex
  | released hr => exact hsame _ hr.sameIndex
  | takenApart hp =>
    clear hsame
    induction hp with
    | refl => exact hfit
    | tail _ hlast ih =>
      obtain ⟨id, t, hd⟩ := hlast
      exact fun i l hl => ih i l (hd.chainTo hl)

/-- One step keeps the chains within 65 levels iff it stays shallow. -/
theorem step_chainsFit_iff (cr : Crypto) {s : StoreState} (hwf : s.TreeWf) (hfit : s.ChainsFit) (op : Op) :
    (step cr s op).2.ChainsFit ↔ s.StaysShallow op := by
  cases op with
  | create spec rootCaps =>
    rcases s.create_cases spec rootCaps with ⟨e, he, hno⟩ | ⟨e, he, -, hbad⟩ | ⟨t, s', he, hadm, hg, rfl⟩ <;>
      simp only [step, answer_snd, he]
    · exact iff_of_true hfit (fun h => absurd h hno)
    · exact iff_of_true hfit (fun _ h => absurd h hbad)
    · rw [hg.chainsFit_iff hwf hfit]
      exact ⟨fun h _ _ => h, fun h => h hadm hg.valid⟩
  | _ => exact iff_of_true ((step_effect cr hwf _).chainsFit hfit (fun _ _ h => by cases h)) trivial

/-- **In every state of every run the parent links are closed and acyclic, and the walkers never give up on a live
tenant in any state of the run iff every accepted `create` names a parent at most 64 levels deep.** -/
theorem walkable_iff_shallow (cr : Crypto) (ops : List Op) :
    (∀ s ∈ states (step cr) default ops,
      (∀ i t p, s.tenants.lookup i = some t → t.parent = some p → ∃ pt, s.tenants.lookup p.raw = some pt) ∧
      ∀ i, ¬ Relation.TransGen (Edge s.up) i i) ∧
    ((∀ s ∈ states (step cr) default ops, s.Walkable) ↔ Along (step cr) StaysShallow default ops) := by
  have hwf : ∀ s ∈ states (step cr) default ops, s.TreeWf := inv_states (step_treeWf cr) treeWf_default ops
  refine ⟨fun s hs => ⟨fun i t p ht hp => ((hwf s hs).parents i t p ht hp).1, (hwf s hs).rooted.acyclic⟩, ?_⟩
  have hfit : (default : StoreState).ChainsFit := by
    intro i l hl
    have := hl.live
    simp [up, default] at this
  rw [← states_iff_along (P := ChainsFit) (step_treeWf cr) (fun s op hI hP => step_chainsFit_iff cr hI hP op)
    treeWf_default hfit ops]
  exact forall₂_congr fun s hs => walkable_iff (hwf s hs)

/-! ## A chain of 66 tenants -/

/-- The specs of a chain: tenant `n + 1` under tenant `n`, each with the quotas and caps of the first. -/
def nested : Nat → List TenantSpec
  | 0     => []
  | n + 1 => nested n ++ [⟨String.ofList [Char.ofNat (97 + n / 26), Char.ofNat (97 + n % 26)], .unlimited,
      if n = 0 then none else some ⟨n⟩⟩]

theorem run_creates (cr : Crypto) (s : StoreState) (specs : List TenantSpec) :
    run (step cr) s (specs.map (fun spec => .create spec .all)) =
      specs.foldl (fun s spec => (s.create spec .all).2) s := by
  induction specs generalizing s with
  | nil => rfl
  | cons spec specs ih => exact ih _

/-- The 66th tenant of a chain cannot be charged, not even by nothing. -/
theorem nested_66_uncharged : ¬ ∃ cr : Crypto,
    ∀ s ∈ states (step cr) default ((nested 66).map (fun spec => .create spec .all)), s.Walkable := by
  rintro ⟨cr, h⟩
  have hw := h _ (run_mem_states _ _)
  rw [run_creates] at hw
  have heval : (((nested 66).foldl (fun s spec => (StoreState.create s spec .all).2) default).tenants.lookup 66).isSome ∧
      (charge ((nested 66).foldl (fun s spec => (StoreState.create s spec .all).2) default) ⟨66⟩ default).1 =
        .error (.internal "tenant hierarchy too deep") := by decide +kernel
  obtain ⟨t, ht⟩ := Option.isSome_iff_exists.1 heval.1
  cases (hw 66 t ht).1 default _ heval.2

end Celium
