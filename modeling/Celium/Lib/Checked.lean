import Mathlib.Algebra.GroupWithZero.Nat
/-!
# Checked — calls that return a value, an error, or panic

With overflow checks on, an addition that does not fit its type panics, and so does an allocation of more bytes than an
address space holds.  Both are told apart from the errors that a call returns.
-/
namespace Checked

/-- How a call ends without a value. -/
inductive Fault (ε : Type) where
  | err (e : ε)
  | overflow
  | capacity
deriving DecidableEq, Repr

abbrev Outcome (ε α : Type) := Except (Fault ε) α

variable {ε α β : Type}

/-- `a + b` on 64-bit integers. -/
def add64 (a b : Nat) : Outcome ε Nat := if a + b < 2 ^ 64 then .ok (a + b) else .error .overflow

/-- `a * b` on 64-bit integers. -/
def mul64 (a b : Nat) : Outcome ε Nat := if a * b < 2 ^ 64 then .ok (a * b) else .error .overflow

/-- `a - b` on 64-bit integers. -/
def sub64 (a b : Nat) : Outcome ε Nat := if b ≤ a then .ok (a - b) else .error .overflow

/-- `a.checked_mul(b).ok_or(e)`. -/
def checkedMul64 (a b : Nat) (e : ε) : Outcome ε Nat := if a * b < 2 ^ 64 then .ok (a * b) else .error (.err e)

/-- `a.checked_add(b).ok_or(e)`. -/
def checkedAdd64 (a b : Nat) (e : ε) : Outcome ε Nat := if a + b < 2 ^ 64 then .ok (a + b) else .error (.err e)

/-- `vec![0; n]`: no allocation is larger than `isize::MAX`. -/
def alloc (n : Nat) : Outcome ε Unit := if n < 2 ^ 63 then .ok () else .error .capacity

theorem add64_ok {a b : Nat} (h : a + b < 2 ^ 64) : (add64 a b : Outcome ε Nat) = .ok (a + b) := if_pos h

theorem add64_eq_ok {a b n : Nat} (h : (add64 a b : Outcome ε Nat) = .ok n) : n = a + b := by
  unfold add64 at h
  split at h
  · exact (Except.ok.inj h).symm
  · cases h

theorem mul64_ok {a b : Nat} (h : a * b < 2 ^ 64) : (mul64 a b : Outcome ε Nat) = .ok (a * b) := if_pos h

theorem sub64_ok {a b : Nat} (h : b ≤ a) : (sub64 a b : Outcome ε Nat) = .ok (a - b) := if_pos h

theorem checkedMul64_eq_ok {a b n : Nat} {e : ε} : checkedMul64 a b e = .ok n ↔ a * b < 2 ^ 64 ∧ n = a * b := by
  unfold checkedMul64
  split
  · rename_i h
    exact ⟨fun heq => ⟨h, (Except.ok.inj heq).symm⟩, fun heq => heq.2 ▸ rfl⟩
  · rename_i h
    exact iff_of_false (fun heq => by cases heq) (fun heq => h heq.1)

theorem checkedAdd64_eq_ok {a b n : Nat} {e : ε} : checkedAdd64 a b e = .ok n ↔ a + b < 2 ^ 64 ∧ n = a + b := by
  unfold checkedAdd64
  split
  · rename_i h
    exact ⟨fun heq => ⟨h, (Except.ok.inj heq).symm⟩, fun heq => heq.2 ▸ rfl⟩
  · rename_i h
    exact iff_of_false (fun heq => by cases heq) (fun heq => h heq.1)

theorem ok_bind (a : α) (f : α → Outcome ε β) : (.ok a >>= f : Outcome ε β) = f a := rfl

theorem error_bind (e : Fault ε) (f : α → Outcome ε β) : (.error e >>= f : Outcome ε β) = .error e := rfl

/-- A bind that gives a value went through both of its parts. -/
theorem bind_eq_ok {x : Outcome ε α} {f : α → Outcome ε β} {b : β} : x >>= f = .ok b ↔ ∃ a, x = .ok a ∧ f a = .ok b := by
  cases x with
  | error e => exact iff_of_false (fun h => by cases h) (fun ⟨a, h, _⟩ => by cases h)
  | ok a => exact ⟨fun h => ⟨a, rfl, h⟩, fun ⟨a', h, h'⟩ => Except.ok.inj h ▸ h'⟩

/-- A bind fails with what one of its parts fails with. -/
theorem bind_ne_error {x : Outcome ε α} {f : α → Outcome ε β} {e : Fault ε} (hx : x ≠ .error e)
    (hf : ∀ a, f a ≠ .error e) : x >>= f ≠ .error e := by
  cases x with
  | ok a => exact hf a
  | error e' =>
    intro h
    exact hx (congrArg Except.error (Except.error.inj h))

theorem add64_ne_err (a b : Nat) (e : ε) : (add64 a b : Outcome ε Nat) ≠ .error (.err e) := by
  unfold add64
  split <;> intro h <;> cases h

theorem mul64_ne_err (a b : Nat) (e : ε) : (mul64 a b : Outcome ε Nat) ≠ .error (.err e) := by
  unfold mul64
  split <;> intro h <;> cases h

/-- An invariant of a loop with an accumulator that may fail. -/
theorem foldlM_inv {I : β → Prop} {step : β → α → Outcome ε β} (hstep : ∀ b a b', I b → step b a = .ok b' → I b')
    (as : List α) {b b' : β} (hb : I b) (h : as.foldlM step b = .ok b') : I b' := by
  induction as generalizing b with
  | nil => exact Except.ok.inj h ▸ hb
  | cons a as ih =>
    rw [List.foldlM_cons] at h
    obtain ⟨b₁, h₁, h⟩ := bind_eq_ok.1 h
    exact ih (hstep b a b₁ hb h₁) h

/-- The loop over those elements that `p` picks, when the others are passed over. -/
theorem foldlM_pick {ι : Type} {step : β → ι → Outcome ε β} {p : α → Bool} {g : β → α → Outcome ε β} {at' : ι → α} {is : List ι}
    (h : ∀ b, ∀ i ∈ is, step b i = if p (at' i) then g b (at' i) else .ok b) (b : β) :
    is.foldlM step b = ((is.map at').filter p).foldlM g b := by
  induction is generalizing b with
  | nil => rfl
  | cons i is ih =>
    obtain ⟨hi, his⟩ : (∀ b, step b i = if p (at' i) then g b (at' i) else .ok b) ∧
        ∀ b, ∀ i ∈ is, step b i = if p (at' i) then g b (at' i) else .ok b :=
      ⟨fun b => h b i List.mem_cons_self, fun b j hj => h b j (List.mem_cons_of_mem i hj)⟩
    rw [List.foldlM_cons, hi, List.map_cons, List.filter_cons]
    split
    · rw [List.foldlM_cons]
      exact congrArg _ (funext fun b' => ih his b')
    · exact ih his b

theorem map_eq_ok {x : Outcome ε α} {f : α → β} {b : β} (h : x.map f = .ok b) : ∃ a, x = .ok a ∧ f a = b := by
  cases x with
  | error e => cases h
  | ok a => exact ⟨a, rfl, Except.ok.inj h⟩

/-- An outcome that is not a panic of the arithmetic. -/
def NoOverflow (x : Outcome ε α) : Prop := x ≠ .error .overflow

theorem NoOverflow.ok (a : α) : NoOverflow (.ok a : Outcome ε α) := by
  intro h
  cases h

theorem NoOverflow.err (e : ε) : NoOverflow (.error (.err e) : Outcome ε α) := by
  intro h
  cases h

theorem NoOverflow.bind {x : Outcome ε α} {f : α → Outcome ε β} (hx : NoOverflow x)
    (hf : ∀ a, x = .ok a → NoOverflow (f a)) : NoOverflow (x >>= f) := by
  cases x with
  | ok a => exact hf a rfl
  | error e =>
    intro h
    exact hx (congrArg Except.error (Except.error.inj h))

theorem add64_noOverflow {a b : Nat} (h : a + b < 2 ^ 64) : NoOverflow (add64 a b : Outcome ε Nat) := by
  rw [add64_ok h]
  exact .ok _

theorem checkedMul64_noOverflow (a b : Nat) (e : ε) : NoOverflow (checkedMul64 a b e) := by
  unfold checkedMul64
  split
  · exact .ok _
  · exact .err _

theorem checkedAdd64_noOverflow (a b : Nat) (e : ε) : NoOverflow (checkedAdd64 a b e) := by
  unfold checkedAdd64
  split
  · exact .ok _
  · exact .err _

theorem alloc_noOverflow (n : Nat) : NoOverflow (alloc n : Outcome ε Unit) := by
  unfold alloc
  split
  · exact .ok _
  · intro h
    cases h

theorem mapM_noOverflow {f : α → Outcome ε β} {as : List α} (h : ∀ a ∈ as, NoOverflow (f a)) : NoOverflow (as.mapM f) := by
  induction as with
  | nil => exact .ok _
  | cons a as ih =>
    rw [List.mapM_cons]
    refine (h a List.mem_cons_self).bind fun b _ => ?_
    exact (ih fun a' ha' => h a' (List.mem_cons_of_mem a ha')).bind fun bs _ => .ok _

theorem foldlM_noOverflow {step : β → α → Outcome ε β} {as : List α} (h : ∀ b, ∀ a ∈ as, NoOverflow (step b a)) (b : β) :
    NoOverflow (as.foldlM step b) := by
  induction as generalizing b with
  | nil => exact .ok _
  | cons a as ih =>
    rw [List.foldlM_cons]
    exact (h b a List.mem_cons_self).bind fun b' _ => ih (fun b a' ha' => h b a' (List.mem_cons_of_mem a ha')) b'

end Checked
