import Celium.EptWalk
/-!
# EptAlias — which guest pages share a leaf

The four indices of a guest address leave bits 48 to 51 of it out, which a `PhysAddr` can have.  Two pages that are equal
below have one leaf between them, and `map_4k` does not tell them apart.
-/
namespace Celium

namespace Ept

variable {σ : Type} {P : FrameProvider σ} {C : P.Contract} {e : Ept} {s s' : σ}

/-- `map_4k` accepts aligned pages only. -/
theorem map4k_aligned {gpa hpa : PhysAddr} {flags : EptFlags} (h : e.map4k P s gpa hpa flags = (.ok (), s')) :
    gpa.addr % pageSize = 0 := by
  unfold map4k at h
  split at h
  · cases (Prod.mk.inj h).1
  · rename_i haligned
    rw [← and_offset]
    exact Decidable.not_not.1 fun hne => haligned (.inl hne)

/-- A leaf that is there stays there. -/
theorem map4k_keeps (hinv : Inv C e s) {gpa hpa : PhysAddr} {flags : EptFlags} {r : HyperResult Unit}
    (h : e.map4k P s gpa hpa flags = (r, s')) {q : List Index} {j : Index} (hq : q.length = 3)
    (hleaf : (leaf P e s q j).isSome) : (leaf P e s' q j).isSome := by
  obtain ⟨-, hok, herr⟩ := map4k_spec hinv h
  cases r with
  | ok u =>
    rw [(hok rfl).2 q j hq]
    split
    · rfl
    · exact hleaf
  | error err =>
    rwa [leaf, herr err rfl q j hq]

/-- **Every page that a run has mapped has its leaf at the end.** -/
theorem mapAll_mapped (hinv : Inv C e s) (calls : List MapCall) :
    Inv C e (e.mapAll P s calls).2 ∧
    (∀ q j, q.length = 3 → (leaf P e s q j).isSome → (leaf P e (e.mapAll P s calls).2 q j).isSome) ∧
    ∀ c, (c, .ok ()) ∈ (e.mapAll P s calls).1 → c.gpa.addr % pageSize = 0 ∧
      (leaf P e (e.mapAll P s calls).2 (tablePath c.gpa) (leafIndex c.gpa)).isSome := by
  induction calls generalizing s with
  | nil => exact ⟨hinv, fun _ _ _ h => h, fun c hc => by cases hc⟩
  | cons c calls ih =>
    rcases hmap : e.map4k P s c.gpa c.hpa c.flags with ⟨r, s₁⟩
    obtain ⟨hinv₁, hok, -⟩ := map4k_spec hinv hmap
    obtain ⟨hinv', hkeep, hmapped⟩ := ih hinv₁
    simp only [mapAll, hmap]
    refine ⟨hinv', fun q j hq h => hkeep q j hq (map4k_keeps hinv hmap hq h), fun c' hc' => ?_⟩
    rcases List.mem_cons.1 hc' with heq | hc'
    · obtain ⟨rfl, rfl⟩ := Prod.mk.inj heq
      refine ⟨map4k_aligned hmap, hkeep _ _ rfl ?_⟩
      rw [(hok rfl).2 _ _ rfl, if_pos ⟨rfl, rfl⟩]
      rfl
    · exact hmapped c' hc'

end Ept

open Ept in
/-- **A mapping leaves the translation and the leaf of an earlier page alone exactly if the two pages differ below bit 48**,
or it writes the entry that is there. -/
theorem ept_alias_iff {σ : Type} {P : FrameProvider σ} (C : P.Contract) {s s' s'' : σ} (hs : C.valid s) {e : Ept}
    (hnew : Ept.new P s = (.ok e, s')) (calls : List MapCall) {c : MapCall}
    (hfirst : (c, .ok ()) ∈ (e.mapAll P s' calls).1) {gpa hpa : PhysAddr} {flags : EptFlags}
    (hsecond : e.map4k P (e.mapAll P s' calls).2 gpa hpa flags = (.ok (), s'')) :
    (e.translate P s'' c.gpa = e.translate P (e.mapAll P s' calls).2 c.gpa ∧
      leaf P e s'' (tablePath c.gpa) (leafIndex c.gpa) =
        leaf P e (e.mapAll P s' calls).2 (tablePath c.gpa) (leafIndex c.gpa)) ↔
    c.gpa.addr % 2 ^ 48 ≠ gpa.addr % 2 ^ 48 ∨
      leaf P e (e.mapAll P s' calls).2 (tablePath c.gpa) (leafIndex c.gpa) = some (leafEntry hpa flags) := by
  obtain ⟨hinv, -, hmapped⟩ := mapAll_mapped (new_inv hs hnew).1 calls
  obtain ⟨haligned, hleaf⟩ := hmapped c hfirst
  obtain ⟨-, hok, -⟩ := map4k_spec hinv hsecond
  have hwritten := (hok rfl).2 (tablePath c.gpa) (leafIndex c.gpa) rfl
  have hslot : (tablePath c.gpa = tablePath gpa ∧ leafIndex c.gpa = leafIndex gpa) ↔
      c.gpa.addr % 2 ^ 48 = gpa.addr % 2 ^ 48 := by
    have hgpa := map4k_aligned hsecond
    rw [same_slot_iff]
    simp only [pageSize] at *
    omega
  -- The translation of a mapped page is read off its leaf.
  have htranslate : leaf P e s'' (tablePath c.gpa) (leafIndex c.gpa) =
      leaf P e (e.mapAll P s' calls).2 (tablePath c.gpa) (leafIndex c.gpa) →
      e.translate P s'' c.gpa = e.translate P (e.mapAll P s' calls).2 c.gpa := by
    intro heq
    obtain ⟨v, hv⟩ := Option.isSome_iff_exists.1 hleaf
    have hbefore := translate_leaf (P := P) e (e.mapAll P s' calls).2 c.gpa
    have hafter := translate_leaf (P := P) e s'' c.gpa
    rw [heq] at hafter
    rw [hv] at hbefore hafter
    exact hafter.trans hbefore.symm
  rw [and_iff_right_of_imp htranslate, hwritten]
  by_cases hsame : c.gpa.addr % 2 ^ 48 = gpa.addr % 2 ^ 48
  · rw [if_pos (hslot.2 hsame)]
    constructor
    · exact fun h => .inr h.symm
    · exact fun h => (h.resolve_left (fun hne => hne hsame)).symm
  · rw [if_neg (fun h => hsame (hslot.1 h))]
    exact iff_of_true rfl (.inl hsame)

namespace Ept

/-- `0x1000` with bit 48 set. -/
def highCall : MapCall := { oneCall with gpa := ⟨0x1000000001000, by decide⟩, hpa := ⟨0x6000, by decide⟩ }

def otherCall : MapCall := { highCall with gpa := ⟨0x2000, by decide⟩ }

def poolEpt : Ept := ⟨freshPool.base⟩

/-- The pool after `new`. -/
def newPool : KernelFrames := { freshPool with next := 0x1000 }

def MapCall.after (c : MapCall) (s : KernelFrames) : KernelFrames := (poolEpt.map4k kernelFrames s c.gpa c.hpa c.flags).2

/-- Another page is mapped after the first, whose translation stays. -/
theorem other_page_kept :
    poolEpt.translate kernelFrames (otherCall.after (poolEpt.mapAll kernelFrames newPool [oneCall]).2) oneCall.gpa =
      poolEpt.translate kernelFrames (poolEpt.mapAll kernelFrames newPool [oneCall]).2 oneCall.gpa := by
  have hnew : Ept.new kernelFrames freshPool = (.ok poolEpt, newPool) := rfl
  have hvalid : kernelContract.valid freshPool := ⟨by decide, fun _ _ _ => rfl⟩
  have hfirst : (oneCall, .ok ()) ∈ (poolEpt.mapAll kernelFrames newPool [oneCall]).1 := List.mem_singleton.2 rfl
  have hsecond : poolEpt.map4k kernelFrames (poolEpt.mapAll kernelFrames newPool [oneCall]).2 otherCall.gpa otherCall.hpa
      otherCall.flags = (.ok (), otherCall.after (poolEpt.mapAll kernelFrames newPool [oneCall]).2) := rfl
  exact ((ept_alias_iff kernelContract hvalid hnew [oneCall] hfirst hsecond).2 (.inl (by decide))).1

/-- **A page above bit 48 takes the leaf of the one below**: its mapping is accepted, and the first page is translated to
the second one's host page. -/
theorem high_page_aliases : ∃ e s s'', Ept.new kernelFrames freshPool = (.ok e, s) ∧
    (oneCall, .ok ()) ∈ (e.mapAll kernelFrames s [oneCall]).1 ∧ oneCall.gpa ≠ highCall.gpa ∧
    e.map4k kernelFrames (e.mapAll kernelFrames s [oneCall]).2 highCall.gpa highCall.hpa highCall.flags = (.ok (), s'') ∧
    e.translate kernelFrames s'' oneCall.gpa ≠ e.translate kernelFrames (e.mapAll kernelFrames s [oneCall]).2 oneCall.gpa := by
  have hbefore : poolEpt.translate kernelFrames (poolEpt.mapAll kernelFrames newPool [oneCall]).2 oneCall.gpa =
      .ok ⟨0x5000, by decide⟩ := rfl
  have hafter : poolEpt.translate kernelFrames (highCall.after (poolEpt.mapAll kernelFrames newPool [oneCall]).2)
      oneCall.gpa = .ok ⟨0x6000, by decide⟩ := rfl
  refine ⟨poolEpt, newPool, highCall.after (poolEpt.mapAll kernelFrames newPool [oneCall]).2, rfl, List.mem_singleton.2 rfl,
    by decide, rfl, ?_⟩
  rw [hbefore, hafter]
  intro h
  have := congrArg PhysAddr.addr (Except.ok.inj h)
  exact absurd this (by decide)

end Ept

end Celium
