import Celium.SupervisorOnce
/-!
# SupervisorCut — when a pass comes to an end

The label of a recreated VM is `label@owner`, cut at byte 32.  Where byte 32 lies inside a character the slice panics,
and with it the task that runs the pass: the rows come from other nodes, and nothing checks what characters they carry.
-/
namespace Celium

open Runs

/-- The text the label of the recreated VM is cut from. -/
def labelAtOwner (orphan : RemoteVm) : String := orphan.label ++ "@" ++ orphan.owner.raw

/-- Byte 32 lies inside a character: the text is longer, and none of its prefixes takes 32 bytes. -/
def CutInside (s : String) : Prop :=
  32 < s.utf8ByteSize ∧ ∀ cs, cs <+: s.toList → (String.ofList cs).utf8ByteSize ≠ 32

theorem recoveryLabel_none_iff (o : RemoteVm) : recoveryLabel o = none ↔ CutInside (labelAtOwner o) := by
  unfold recoveryLabel CutInside
  dsimp only
  rw [← labelAtOwner]
  split
  · rename_i hlong
    rw [Option.map_eq_none_iff, and_iff_right hlong]
    constructor
    · intro hnone cs hpre hsize
      rw [Text.sliceTo_eq_some_iff.2 ⟨hpre, hsize⟩] at hnone
      cases hnone
    · intro hall
      rw [Option.eq_none_iff_forall_ne_some]
      intro cs hcs
      obtain ⟨hpre, hsize⟩ := Text.sliceTo_eq_some_iff.1 hcs
      exact hall cs hpre hsize
  · rename_i hshort
    exact ⟨fun h => (by cases h), fun h => absurd h.1 hshort⟩

/-- What the cut leaves, where it is defined: the text itself if it fits, and else its characters up to byte 32. -/
theorem recoveryLabel_some {o : RemoteVm} {l : String} (h : recoveryLabel o = some l) :
    l.toList <+: (labelAtOwner o).toList ∧ l.utf8ByteSize = min 32 (labelAtOwner o).utf8ByteSize := by
  unfold recoveryLabel at h
  dsimp only at h
  rw [← labelAtOwner] at h
  split at h
  · rename_i hlong
    obtain ⟨cs, hcs, rfl⟩ := Option.map_eq_some_iff.1 h
    obtain ⟨hpre, hsize⟩ := Text.sliceTo_eq_some_iff.1 hcs
    rw [String.toList_ofList, hsize]
    exact ⟨hpre, by omega⟩
  · rename_i hshort
    obtain rfl := Option.some.inj h
    exact ⟨List.prefix_rfl, by omega⟩

section Host

variable {σ : Type} (H : VmHost σ)

/-- The host refuses nothing the loop asks of it for these orphans. -/
def VmHost.Serves (existing : List String) : List RemoteVm → σ → Prop
  | [], _ => True
  | orphan :: orphans, h => ∃ newLabel, recoveryLabel orphan = some newLabel ∧
    if newLabel ∈ existing then VmHost.Serves existing orphans h
    else match H.handle h (recoveryOp newLabel orphan) with
      | (.error _, _) => False
      | (.ok (.created vmId), h) => VmHost.Serves existing orphans (H.reattach h vmId orphan)
      | (.ok _, h) => VmHost.Serves existing orphans h

/-- An element of a list is its first, or comes after it. -/
theorem exists_split_cons {α : Type} {C : α → Prop} {P : List α → Prop} {a : α} {as : List α} :
    (∃ pre x post, a :: as = pre ++ x :: post ∧ C x ∧ P pre) ↔
      (C a ∧ P []) ∨ ∃ pre x post, as = pre ++ x :: post ∧ C x ∧ P (a :: pre) := by
  constructor
  · rintro ⟨pre, x, post, heq, hx, hpre⟩
    cases pre with
    | nil =>
      obtain ⟨rfl, -⟩ := List.cons.inj heq
      exact .inl ⟨hx, hpre⟩
    | cons b pre =>
      obtain ⟨rfl, hrest⟩ := List.cons.inj heq
      exact .inr ⟨pre, x, post, hrest, hx, hpre⟩
  · rintro (⟨ha, hnil⟩ | ⟨pre, x, post, rfl, hx, hpre⟩)
    · exact ⟨[], a, as, rfl, ha, hnil⟩
    · exact ⟨a :: pre, x, post, rfl, hx, hpre⟩

/-- **The loop panics exactly when it comes to an orphan whose label it cannot cut.** -/
theorem recover_panicked_iff (existing : List String) (os : List RemoteVm) (h : σ) :
    (H.recover existing os h).1 = .panicked ↔ ∃ pre o post, os = pre ++ o :: post ∧
      CutInside (labelAtOwner o) ∧ H.Serves existing pre h := by
  induction os generalizing h with
  | nil => simp [VmHost.recover]
  | cons o os ih =>
    rw [exists_split_cons (C := fun o => CutInside (labelAtOwner o)) (P := fun pre => H.Serves existing pre h)]
    cases hl : recoveryLabel o with
    | none =>
      rw [recover_cut H hl]
      exact iff_of_true rfl (.inl ⟨(recoveryLabel_none_iff o).1 hl, trivial⟩)
    | some l =>
      have hclean : ¬ CutInside (labelAtOwner o) := by
        rw [← recoveryLabel_none_iff, hl]
        exact Option.some_ne_none l
      have hserves : ∀ pre, H.Serves existing (o :: pre) h ↔ (if l ∈ existing then H.Serves existing pre h
          else match H.handle h (recoveryOp l o) with
            | (.error _, _) => False
            | (.ok (.created vmId), h) => H.Serves existing pre (H.reattach h vmId o)
            | (.ok _, h) => H.Serves existing pre h) := by
        intro pre
        rw [VmHost.Serves]
        simp only [hl, Option.some_inj, exists_eq_left']
      simp only [hclean, false_and, false_or, hserves]
      by_cases hex : l ∈ existing
      · rw [recover_skip H hl hex, ih]
        simp only [if_pos hex]
      · simp only [if_neg hex]
        rcases hc : H.handle h (recoveryOp l o) with ⟨res, h'⟩
        cases res with
        | error e =>
          rw [recover_refused H hl hex hc]
          simp
        | ok reply =>
          by_cases hcreated : ∃ i, reply = .created i
          · obtain ⟨i, rfl⟩ := hcreated
            rw [recover_made H hl hex hc]
            exact ih (H.reattach h' i o)
          · rw [recover_other H hl hex hc (fun i hi => hcreated ⟨i, hi⟩), ih]
            cases reply with
            | created i => exact absurd ⟨i, rfl⟩ hcreated
            | _ => rfl

theorem Inner.endPass_result (g : Inner) (now : Nat) (r : LoopEnd × List RestartedVm × σ) :
    (g.endPass H now r).result = none ↔ r.1 = .panicked := by
  obtain ⟨_ | e | _, out, h⟩ := r
  · unfold endPass
    dsimp only
    split <;> exact iff_of_false (Option.some_ne_none _) (fun h => (by cases h))
  · exact iff_of_false (Option.some_ne_none _) (fun h => (by cases h))
  · exact iff_of_true rfl rfl

/-- This node supervises, and its pass comes to an orphan whose label it cannot cut. -/
def Inner.MeetsCut (g : Inner) (host : Option σ) : Prop :=
  g.isSupervisor = true ∧ ∃ h, host = some h ∧ ∃ pre o post, g.orphanedVms.1 = pre ++ o :: post ∧
    CutInside (labelAtOwner o) ∧
    H.Serves ((H.snapshot h g.config.nodeId).1.map (·.label)) pre (H.snapshot h g.config.nodeId).2

theorem Inner.runSupervisorStep_panics_iff (g : Inner) (host : Option σ) (now : Nat) :
    (g.runSupervisorStep H host now).result = none ↔ g.MeetsCut H host := by
  unfold runSupervisorStep MeetsCut
  by_cases hsup : g.isSupervisor = true
  · rw [if_neg (by simp [hsup]), and_iff_right hsup]
    cases host with
    | none =>
      refine iff_of_false (Option.some_ne_none _) ?_
      rintro ⟨h, heq, -⟩
      cases heq
    | some h =>
      simp only [Option.some_inj, exists_eq_left']
      split
      · rename_i hnil
        rw [List.isEmpty_iff.1 hnil]
        refine iff_of_false (Option.some_ne_none _) ?_
        rintro ⟨pre, o, post, heq, -⟩
        exact List.append_ne_nil_of_right_ne_nil pre (List.cons_ne_nil o post) heq.symm
      · rw [Inner.endPass_result, recover_panicked_iff]
        rfl
  · rw [if_pos (by simpa using hsup)]
    exact iff_of_false (Option.some_ne_none _) (fun h => hsup h.1)

end Host

/-- **A pass answers exactly when it comes to no orphan whose `label@owner` has a character across byte 32**; the cut of
any other is its longest start of at most 32 bytes. -/
theorem supervisor_pass_returns_iff {σ : Type} (H : VmHost σ) (g : Inner) (host : Option σ) (now : Nat) :
    (∀ o : RemoteVm, (∃ l, recoveryLabel o = some l ∧ l.toList <+: (labelAtOwner o).toList ∧
      l.utf8ByteSize = min 32 (labelAtOwner o).utf8ByteSize) ↔ ¬ CutInside (labelAtOwner o)) ∧
    ((∃ r, (g.runSupervisorStep H host now).result = some r) ↔ ¬ g.MeetsCut H host) := by
  constructor
  · intro o
    rw [← recoveryLabel_none_iff]
    constructor
    · rintro ⟨l, hl, -⟩ hnone
      rw [hl] at hnone
      cases hnone
    · intro hsome
      obtain ⟨l, hl⟩ := Option.ne_none_iff_exists'.1 hsome
      exact ⟨l, hl, recoveryLabel_some hl⟩
  · rw [← g.runSupervisorStep_panics_iff H host now, ← Ne, Option.ne_none_iff_exists']

/-! ## A VM of a node whose id is not ASCII -/

/-- A VM with a label of 30 letters, as the node `é` publishes it. -/
def vmOfAccented : RemoteVm := { vmOfB 0 0 true with label := String.ofList (List.replicate 30 'a') }

def syncAccented : Envelope :=
  ((Inner.start (defaultsFor "é") 0).publishLocalVms [vmOfAccented] 0).2.sendSync.1

/-- Node `a` once `é` is `Dead`. -/
def deadAccented : Inner :=
  run Inner.step (.start (defaultsFor "a") 0)
    [(0, .receive syncAccented "mem://é"), (1500000000, .gossip (.asStored String))]

/-- Its pass panics: the 30 letters and the `@` take 31 bytes, and the `é` the next two. -/
theorem accented_owner_panics :
    ¬ ∀ (σ : Type) (H : VmHost σ) (g : Inner) (host : Option σ) (now : Nat),
      ∃ r, (g.runSupervisorStep H host now).result = some r := by
  intro hall
  obtain ⟨r, hr⟩ := hall MemVmHost MemVmHost.host deadAccented (some .new) 0
  have hnone : (deadAccented.runSupervisorStep MemVmHost.host (some .new) 0).result = none := by decide +kernel
  rw [hnone] at hr
  cases hr

end Celium
