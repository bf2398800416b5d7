import Mathlib.Data.List.Basic
import Mathlib.Order.Nat
/-!
# Runs — what holds along every run of a stepped system

A system is a step function `σ → α → β × σ`: a state and an input give an answer and the next state.  A run is a list
of inputs.  Three rules carry every run-level result: an invariant of the step holds in every state reached
(`inv_states`); under a condition on each step it is enough that the step keeps the property when the condition holds
(`of_along`); and where the condition is exactly what a step needs, the property holds in every state reached iff every
step meets the condition (`states_iff_along`).
-/
namespace Runs

variable {σ α β : Type}

/-- The state a run ends in. -/
def run (step : σ → α → β × σ) : σ → List α → σ
  | s, []      => s
  | s, a :: as => run step (step s a).2 as

/-- Every state a run passes through, the first one included. -/
def states (step : σ → α → β × σ) : σ → List α → List σ
  | s, []      => [s]
  | s, a :: as => s :: states step (step s a).2 as

/-- The answers of a run, in order. -/
def answers (step : σ → α → β × σ) : σ → List α → List β
  | _, []      => []
  | s, a :: as => (step s a).1 :: answers step (step s a).2 as

/-- Every step of a run meets the condition `C`, read at the state before it. -/
def Along (step : σ → α → β × σ) (C : σ → α → Prop) : σ → List α → Prop
  | _, []      => True
  | s, a :: as => C s a ∧ Along step C (step s a).2 as

instance decidableAlong (step : σ → α → β × σ) (C : σ → α → Prop) [∀ s a, Decidable (C s a)] :
    ∀ (s : σ) (as : List α), Decidable (Along step C s as)
  | _, []      => .isTrue trivial
  | s, a :: as => @instDecidableAnd _ _ inferInstance (decidableAlong step C (step s a).2 as)

variable {step : σ → α → β × σ}

theorem run_append (s : σ) (as bs : List α) : run step s (as ++ bs) = run step (run step s as) bs := by
  induction as generalizing s with
  | nil => rfl
  | cons a as ih => exact ih _

theorem length_answers (s : σ) (as : List α) : (answers step s as).length = as.length := by
  induction as generalizing s with
  | nil => rfl
  | cons a as ih => rw [answers, List.length_cons, List.length_cons, ih]

theorem mem_states_self (s : σ) (as : List α) : s ∈ states step s as := by
  cases as <;> simp [states]

theorem run_mem_states (s : σ) (as : List α) : run step s as ∈ states step s as := by
  induction as generalizing s with
  | nil => simp [run, states]
  | cons a as ih => exact List.mem_cons_of_mem _ (ih _)

/-- **A state a run passes through is where one of its prefixes ends.** -/
theorem mem_states_iff (s s' : σ) (as : List α) :
    s' ∈ states step s as ↔ ∃ pre post, as = pre ++ post ∧ run step s pre = s' := by
  induction as generalizing s with
  | nil =>
    simp only [states, List.mem_singleton]
    constructor
    · rintro rfl
      exact ⟨[], [], rfl, rfl⟩
    · rintro ⟨pre, post, h, rfl⟩
      obtain ⟨rfl, -⟩ := List.append_eq_nil_iff.1 h.symm
      rfl
  | cons a as ih =>
    simp only [states, List.mem_cons]
    constructor
    · rintro (rfl | h)
      · exact ⟨[], a :: as, rfl, rfl⟩
      · obtain ⟨pre, post, rfl, rfl⟩ := (ih _).1 h
        exact ⟨a :: pre, post, rfl, rfl⟩
    · rintro ⟨pre, post, h, rfl⟩
      cases pre with
      | nil => exact .inl rfl
      | cons b pre =>
        simp only [List.cons_append, List.cons.injEq] at h
        obtain ⟨rfl, rfl⟩ := h
        exact .inr ((ih _).2 ⟨pre, post, rfl, rfl⟩)

/-- **An invariant of the step holds at the end of every run.** -/
theorem inv_run {I : σ → Prop} (hstep : ∀ s a, I s → I (step s a).2) {s : σ} (h : I s) (as : List α) :
    I (run step s as) := by
  induction as generalizing s with
  | nil => exact h
  | cons a as ih => exact ih (hstep s a h)

/-- **An invariant of the step holds in every state reached.** -/
theorem inv_states {I : σ → Prop} (hstep : ∀ s a, I s → I (step s a).2) {s : σ} (h : I s) (as : List α) :
    ∀ s' ∈ states step s as, I s' := by
  intro s' hs'
  obtain ⟨pre, post, -, rfl⟩ := (mem_states_iff s s' as).1 hs'
  exact inv_run hstep h pre

/-- **An invariant of the state and the answers given so far holds at the end of every run.** -/
theorem inv_answers {I : σ → List β → Prop} (hstep : ∀ s bs a, I s bs → I (step s a).2 (bs ++ [(step s a).1])) {s : σ}
    {bs : List β} (h : I s bs) (as : List α) : I (run step s as) (bs ++ answers step s as) := by
  induction as generalizing s bs with
  | nil =>
    rw [answers, List.append_nil]
    exact h
  | cons a as ih =>
    have hnext := ih (hstep s bs a h)
    rw [List.append_assoc, List.singleton_append] at hnext
    exact hnext

/-- **A property that a step keeps under its condition holds in every state of a run that meets it.** -/
theorem of_along {I : σ → Prop} {C : σ → α → Prop} (hstep : ∀ s a, I s → C s a → I (step s a).2)
    {s : σ} {as : List α} (h : I s) (hc : Along step C s as) : ∀ s' ∈ states step s as, I s' := by
  induction as generalizing s with
  | nil =>
    intro s' hs'
    rw [states, List.mem_singleton] at hs'
    exact hs' ▸ h
  | cons a as ih =>
    intro s' hs'
    rcases List.mem_cons.1 hs' with rfl | hs'
    · exact h
    · exact ih (hstep s a h hc.1) hc.2 s' hs'

/-- **The exact condition, in runs that meet an assumption.**  Where, under an invariant and the assumption `D`, one step
keeps `P` exactly when it meets `C`, and the invariant with it, a run of `D` steps has `P` in every state it reaches iff
every one of its steps meets `C`. -/
theorem states_iff_along_while {I P : σ → Prop} {C D : σ → α → Prop}
    (hstep : ∀ s a, I s → P s → D s a → (P (step s a).2 ↔ C s a) ∧ (C s a → I (step s a).2)) {s : σ} (hI : I s)
    (hP : P s) {as : List α} (hD : Along step D s as) : (∀ s' ∈ states step s as, P s') ↔ Along step C s as := by
  induction as generalizing s with
  | nil => simp [states, Along, hP]
  | cons a as ih =>
    obtain ⟨ha, hD⟩ := hD
    obtain ⟨hiff, hnext⟩ := hstep s a hI hP ha
    constructor
    · intro h
      have hP' : P (step s a).2 := h _ (List.mem_cons_of_mem _ (mem_states_self _ as))
      exact ⟨hiff.1 hP',
        (ih (hnext (hiff.1 hP')) hP' hD).1 (fun s' hs' => h s' (List.mem_cons_of_mem _ hs'))⟩
    · rintro ⟨hc, hrest⟩
      intro s' hs'
      rcases List.mem_cons.1 hs' with rfl | hs'
      · exact hP
      · exact (ih (hnext hc) (hiff.2 hc) hD).2 hrest s' hs'

/-- The same, where the invariant is kept in any case. -/
theorem states_iff_along_of {I P : σ → Prop} {C D : σ → α → Prop} (hinv : ∀ s a, I s → D s a → I (step s a).2)
    (hstep : ∀ s a, I s → P s → D s a → (P (step s a).2 ↔ C s a)) {s : σ} (hI : I s) (hP : P s) {as : List α}
    (hD : Along step D s as) : (∀ s' ∈ states step s as, P s') ↔ Along step C s as :=
  states_iff_along_while (fun s a hI hP hD => ⟨hstep s a hI hP hD, fun _ => hinv s a hI hD⟩) hI hP hD

/-- **A property of the states passed through so far**, that a step keeps under its condition, holds at the end of a
run that meets it. -/
theorem of_along_past {I : List σ → σ → Prop} {C : σ → α → Prop}
    (hstep : ∀ past s a, I past s → C s a → I (past ++ [(step s a).2]) (step s a).2) {s : σ} (h : I [s] s)
    {as : List α} (hc : Along step C s as) : I (states step s as) (run step s as) := by
  have hgen : ∀ (as : List α) (past : List σ) (s : σ), I (past ++ [s]) s → Along step C s as →
      I (past ++ states step s as) (run step s as) := by
    intro as
    induction as with
    | nil => exact fun past s h _ => h
    | cons a as ih =>
      intro past s h hc
      have hnext := ih (past ++ [s]) (step s a).2 (hstep (past ++ [s]) s a h hc.1) hc.2
      rw [List.append_assoc] at hnext
      exact hnext
  exact hgen as [] s h hc

/-- What happened in a run: its inputs, each with the answer. -/
def history (step : σ → α → β × σ) (s : σ) (as : List α) : List (α × β) := as.zip (answers step s as)

/-- **An invariant of the state and of what has happened so far holds at the end of every run.** -/
theorem inv_history {I : σ → List (α × β) → Prop}
    (hstep : ∀ s past a, I s past → I (step s a).2 (past ++ [(a, (step s a).1)])) {s : σ} {past : List (α × β)}
    (h : I s past) (as : List α) : I (run step s as) (past ++ history step s as) := by
  induction as generalizing s past with
  | nil =>
    rw [history, List.zip_nil_left, List.append_nil]
    exact h
  | cons a as ih =>
    have hnext := ih (hstep s past a h)
    rw [List.append_assoc, List.singleton_append] at hnext
    exact hnext

theorem along_of_forall {C : σ → α → Prop} (h : ∀ s a, C s a) (s : σ) (as : List α) : Along step C s as := by
  induction as generalizing s with
  | nil => trivial
  | cons a as ih => exact ⟨h s a, ih _⟩

/-- A condition on the inputs alone. -/
theorem along_of_mem {C : α → Prop} {as : List α} (h : ∀ a ∈ as, C a) (s : σ) : Along step (fun _ a => C a) s as := by
  induction as generalizing s with
  | nil => trivial
  | cons a as ih => exact ⟨h a List.mem_cons_self, ih (fun b hb => h b (List.mem_cons_of_mem a hb)) _⟩

/-- What follows at one step from what is true in its state. -/
theorem along_of_states {I : σ → Prop} {C D : σ → α → Prop} (hstep : ∀ s a, I s → C s a → D s a) {s : σ} {as : List α}
    (hI : ∀ s' ∈ states step s as, I s') (hC : Along step C s as) : Along step D s as := by
  induction as generalizing s with
  | nil => trivial
  | cons a as ih =>
    exact ⟨hstep s a (hI s List.mem_cons_self) hC.1, ih (fun s' hs' => hI s' (List.mem_cons_of_mem _ hs')) hC.2⟩

theorem along_append {C : σ → α → Prop} {s : σ} {as bs : List α} :
    Along step C s (as ++ bs) ↔ Along step C s as ∧ Along step C (run step s as) bs := by
  induction as generalizing s with
  | nil => simp [Along, run]
  | cons a as ih => rw [List.cons_append, Along, ih, Along, run, and_assoc]

/-- **An answer of a run is given at the end of one of its prefixes.** -/
theorem mem_answers_iff (s : σ) (as : List α) (b : β) :
    b ∈ answers step s as ↔ ∃ pre a post, as = pre ++ a :: post ∧ (step (run step s pre) a).1 = b := by
  induction as generalizing s with
  | nil =>
    simp only [answers, List.not_mem_nil, false_iff]
    rintro ⟨pre, a, post, h, -⟩
    cases pre <;> cases h
  | cons a as ih =>
    simp only [answers, List.mem_cons]
    constructor
    · rintro (rfl | h)
      · exact ⟨[], a, as, rfl, rfl⟩
      · obtain ⟨pre, a', post, rfl, hb⟩ := (ih _).1 h
        exact ⟨a :: pre, a', post, rfl, hb⟩
    · rintro ⟨pre, a', post, h, hb⟩
      cases pre with
      | nil =>
        simp only [List.nil_append, List.cons.injEq] at h
        obtain ⟨rfl, rfl⟩ := h
        exact .inl hb.symm
      | cons c pre =>
        simp only [List.cons_append, List.cons.injEq] at h
        obtain ⟨rfl, rfl⟩ := h
        exact .inr ((ih _).2 ⟨pre, a', post, rfl, hb⟩)

/-- **The exact condition, read off the answers.**  Where, under an invariant, a step answers as it should exactly when it
meets `C`, and then keeps the invariant, a run answers as it should throughout iff every step of it meets `C`. -/
theorem answers_iff_along {I : σ → Prop} {Q : β → Prop} {C : σ → α → Prop}
    (hstep : ∀ s a, I s → (Q (step s a).1 ↔ C s a) ∧ (C s a → I (step s a).2)) {s : σ} (hI : I s) (as : List α) :
    (∀ b ∈ answers step s as, Q b) ↔ Along step C s as := by
  induction as generalizing s with
  | nil => simp [answers, Along]
  | cons a as ih =>
    obtain ⟨hq, hnext⟩ := hstep s a hI
    rw [answers, List.forall_mem_cons, Along, hq]
    exact and_congr_right (fun hc => ih (hnext hc))

theorem along_and {C D : σ → α → Prop} {s : σ} {as : List α} (h : Along step C s as) (h' : Along step D s as) :
    Along step (fun s a => C s a ∧ D s a) s as := by
  induction as generalizing s with
  | nil => trivial
  | cons a as ih => exact ⟨⟨h.1, h'.1⟩, ih h.2 h'.2⟩

/-- **The exact condition, over a family of systems that take the same steps.**  Where, under an invariant, a step meets
every `C i` exactly when it meets `D`, the runs of all the systems meet their `C i` iff the run meets `D`. -/
theorem forall_along_iff {ι γ : Type} [Nonempty ι] {stepOf : ι → σ → α → γ × σ} {I : σ → Prop} {C : ι → σ → α → Prop}
    {D : σ → α → Prop} (hnext : ∀ i s a, (stepOf i s a).2 = (step s a).2) (hinv : ∀ s a, I s → I (step s a).2)
    (hstep : ∀ s a, I s → ((∀ i, C i s a) ↔ D s a)) {s : σ} (hI : I s) (as : List α) :
    (∀ i, Along (stepOf i) (C i) s as) ↔ Along step D s as := by
  induction as generalizing s with
  | nil => simp [Along]
  | cons a as ih =>
    simp only [Along, hnext, forall_and, hstep s a hI, ih (hinv s a hI)]

/-- **The exact condition**, in every run. -/
theorem states_iff_along {I P : σ → Prop} {C : σ → α → Prop} (hinv : ∀ s a, I s → I (step s a).2)
    (hstep : ∀ s a, I s → P s → (P (step s a).2 ↔ C s a)) {s : σ} (hI : I s) (hP : P s) (as : List α) :
    (∀ s' ∈ states step s as, P s') ↔ Along step C s as :=
  states_iff_along_of (D := fun _ _ => True) (fun s a h _ => hinv s a h) (fun s a hI hP _ => hstep s a hI hP) hI hP
    (along_of_forall (fun _ _ => trivial) s as)

/-! ## Two systems side by side -/

/-- **Simulation.**  Where related states answer inputs that meet `D` alike and stay related, two runs answer alike and
end related. -/
theorem sim_run {τ γ : Type} {step' : τ → γ → β × τ} {R : σ → τ → Prop} {D : α → Prop} {f : α → γ}
    (hstep : ∀ s t a, R s t → D a → (step s a).1 = (step' t (f a)).1 ∧ R (step s a).2 (step' t (f a)).2) :
    ∀ {s : σ} {t : τ} (as : List α), R s t → (∀ a ∈ as, D a) →
      answers step s as = answers step' t (as.map f) ∧ R (run step s as) (run step' t (as.map f))
  | _, _, [], h, _ => ⟨rfl, h⟩
  | s, t, a :: as, h, hD => by
    have ha := hstep s t a h (hD a List.mem_cons_self)
    have hrest := sim_run hstep as ha.2 (fun b hb => hD b (List.mem_cons_of_mem a hb))
    refine ⟨?_, hrest.2⟩
    rw [answers, List.map_cons, answers, ha.1, hrest.1]

/-! ## Numbers handed out along a run -/

section Issued

variable {I : σ → Prop} (issue : β → Option Nat)

/-- **Numbers handed out above a counter that only grows never repeat**, and the counter stays above them. -/
theorem issued_increasing (counter : σ → Nat) (hinv : ∀ s a, I s → I (step s a).2)
    (hstep : ∀ s a, I s → counter s ≤ counter (step s a).2 ∧
      ∀ k, issue (step s a).1 = some k → counter s < k ∧ k ≤ counter (step s a).2) {s : σ} (h : I s) (as : List α) :
    ((answers step s as).filterMap issue).Pairwise (· < ·) ∧ counter s ≤ counter (run step s as) ∧
      ∀ k ∈ (answers step s as).filterMap issue, counter s < k ∧ k ≤ counter (run step s as) := by
  induction as generalizing s with
  | nil => simp [answers, run]
  | cons a as ih =>
    obtain ⟨hpw, hle, hall⟩ := ih (hinv s a h)
    obtain ⟨hgrow, hnew⟩ := hstep s a h
    simp only [answers, run]
    cases hk : issue (step s a).1 with
    | none =>
      rw [List.filterMap_cons_none hk]
      refine ⟨hpw, hgrow.trans hle, fun k hmem => ?_⟩
      obtain ⟨h1, h2⟩ := hall k hmem
      exact ⟨hgrow.trans_lt h1, h2⟩
    | some k =>
      obtain ⟨hlt, hk'⟩ := hnew k hk
      rw [List.filterMap_cons_some hk, List.pairwise_cons]
      refine ⟨⟨fun j hj => hk'.trans_lt (hall j hj).1, hpw⟩, hgrow.trans hle, fun j hj => ?_⟩
      rcases List.mem_cons.1 hj with rfl | hj
      · exact ⟨hlt, hk'.trans hle⟩
      · obtain ⟨h1, h2⟩ := hall j hj
        exact ⟨hgrow.trans_lt h1, h2⟩

/-- **What a run ends up holding was there at the start or was handed out on the way.** -/
theorem held_or_issued (held : σ → Nat → Prop) (hinv : ∀ s a, I s → I (step s a).2)
    (hstep : ∀ s a k, I s → held (step s a).2 k → held s k ∨ issue (step s a).1 = some k) {s : σ} (h : I s)
    (as : List α) {k : Nat} (hk : held (run step s as) k) : held s k ∨ k ∈ (answers step s as).filterMap issue := by
  induction as generalizing s with
  | nil => exact .inl hk
  | cons a as ih =>
    simp only [answers]
    rcases ih (hinv s a h) hk with hk | hk
    · rcases hstep s a k h hk with hk | hk
      · exact .inl hk
      · exact .inr (by rw [List.filterMap_cons_some hk]; exact List.mem_cons_self)
    · refine .inr ?_
      cases hi : issue (step s a).1 with
      | none => rwa [List.filterMap_cons_none hi]
      | some j => rw [List.filterMap_cons_some hi]; exact List.mem_cons_of_mem _ hk

end Issued

end Runs
