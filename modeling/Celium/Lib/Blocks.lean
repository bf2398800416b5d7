import Celium.Lib.Checked
import Celium.Lib.Bytes
/-!
# Blocks — a range read block by block, and a table with interleaved entries

A disk kept in blocks is read in a loop: each turn takes what is left of the range up to the end of the block it is in, and
goes on from there.  The rules lift what one turn does (`serve`) to the whole range.
-/
namespace Blocks

open Bytes Checked

variable {ε α : Type}

/-- The loop, with at most `fuel` turns, over the `want` bytes from `cur` on. -/
def fill (block : Nat) (serve : Nat → Nat → Outcome ε (List α)) : Nat → Nat → Nat → Outcome ε (List α)
  | 0, _, _ => .ok []
  | fuel + 1, cur, want =>
    if want = 0 then .ok []
    else do
      let chunk := min want (block - cur % block)
      let part ← serve cur chunk
      let next ← add64 cur chunk
      let rest ← fill block serve fuel next (want - chunk)
      .ok (part ++ rest)

/-! ## One read after another -/

/-- The bytes of both reads, or the first failure. -/
def both (x y : Outcome ε (List α)) : Outcome ε (List α) := do
  let a ← x
  let b ← y
  .ok (a ++ b)

@[simp] theorem both_ok (a b : List α) : both (.ok a : Outcome ε (List α)) (.ok b) = .ok (a ++ b) := rfl

@[simp] theorem both_error (e : Fault ε) (y : Outcome ε (List α)) : both (.error e) y = .error e := rfl

@[simp] theorem both_nil (x : Outcome ε (List α)) : both x (.ok []) = x := by
  cases x with
  | error e => rfl
  | ok a => exact congrArg Except.ok (List.append_nil a)

@[simp] theorem nil_both (y : Outcome ε (List α)) : both (.ok []) y = y := by
  cases y <;> rfl

theorem both_assoc (x y z : Outcome ε (List α)) : both (both x y) z = both x (both y z) := by
  cases x with
  | error e => rfl
  | ok a =>
    cases y with
    | error e => rfl
    | ok b =>
      cases z with
      | error e => rfl
      | ok c => exact congrArg Except.ok (List.append_assoc a b c)

theorem both_eq_ok {x y : Outcome ε (List α)} {c : List α} :
    both x y = .ok c ↔ ∃ a b, x = .ok a ∧ y = .ok b ∧ c = a ++ b := by
  constructor
  · intro h
    obtain ⟨a, hx, h⟩ := bind_eq_ok.1 h
    obtain ⟨b, hy, h⟩ := bind_eq_ok.1 h
    exact ⟨a, b, hx, hy, (Except.ok.inj h).symm⟩
  · rintro ⟨a, b, rfl, rfl, rfl⟩
    rfl

theorem both_ne_error {x y : Outcome ε (List α)} {e : Fault ε} (hx : x ≠ .error e) (hy : y ≠ .error e) :
    both x y ≠ .error e := by
  cases x with
  | error e' => exact hx
  | ok a =>
    cases y with
    | error e' => exact hy
    | ok b =>
      intro h
      cases h

/-! ## The loop -/

/-- Bytes of one block. -/
theorem same_block (block o : Nat) {i : Nat} (h : o % block + i < block) :
    (o + i) / block = o / block ∧ (o + i) % block = o % block + i := by
  have hblock : 0 < block := Nat.lt_of_le_of_lt (Nat.zero_le _) h
  have heq : o + i = o % block + i + block * (o / block) := by
    have := Nat.mod_add_div o block
    omega
  rw [heq, Nat.add_mul_div_left _ _ hblock, Nat.div_eq_of_lt h, Nat.zero_add, Nat.add_mul_mod_self_left,
    Nat.mod_eq_of_lt h]
  exact ⟨rfl, rfl⟩

section Fill

variable {block : Nat} {serve : Nat → Nat → Outcome ε (List α)}

@[simp] theorem fill_nothing (fuel cur : Nat) : fill block serve fuel cur 0 = .ok [] := by
  cases fuel <;> rfl

/-- What one turn takes, up to the end of its block. -/
def turn (block cur want : Nat) : Nat := min want (block - cur % block)

theorem turn_bounds (hblock : 0 < block) (cur : Nat) {want : Nat} (hwant : 0 < want) :
    0 < turn block cur want ∧ turn block cur want ≤ want ∧ cur % block + turn block cur want ≤ block := by
  have := Nat.mod_lt cur hblock
  unfold turn
  omega

theorem fill_succ (hblock : 0 < block) {fuel cur want : Nat} (hwant : 0 < want) (hfits : cur + want < 2 ^ 64) :
    fill block serve (fuel + 1) cur want =
      both (serve cur (turn block cur want))
        (fill block serve fuel (cur + turn block cur want) (want - turn block cur want)) := by
  obtain ⟨-, hle, -⟩ := turn_bounds hblock cur hwant
  have hnext : (add64 cur (turn block cur want) : Outcome ε Nat) = .ok (cur + turn block cur want) := add64_ok (by omega)
  simp only [turn] at hnext ⊢
  rw [fill, if_neg (Nat.ne_of_gt hwant)]
  simp only [hnext]
  rfl

/-- More fuel than bytes changes nothing. -/
theorem fill_fuel (hblock : 0 < block) (fuel : Nat) {cur want : Nat} (hfuel : want ≤ fuel) (hfits : cur + want < 2 ^ 64) :
    fill block serve fuel cur want = fill block serve want cur want := by
  induction want using Nat.strongRecOn generalizing fuel cur with
  | _ want ih =>
    rcases Nat.eq_zero_or_pos want with rfl | hwant
    · rw [fill_nothing, fill_nothing]
    · obtain ⟨hpos, hle, -⟩ := turn_bounds hblock cur hwant
      obtain ⟨fuel, rfl⟩ : ∃ f, fuel = f + 1 := ⟨fuel - 1, by omega⟩
      obtain ⟨n, rfl⟩ : ∃ n, want = n + 1 := ⟨want - 1, by omega⟩
      rw [fill_succ hblock hwant hfits, fill_succ hblock hwant hfits]
      rw [ih (n + 1 - turn block cur (n + 1)) (by omega) fuel (by omega) (by omega)]
      rw [ih (n + 1 - turn block cur (n + 1)) (by omega) n (by omega) (by omega)]

/-- One turn, and the loop over the rest. -/
theorem fill_turn (hblock : 0 < block) {cur want : Nat} (hwant : 0 < want) (hfits : cur + want < 2 ^ 64) :
    fill block serve want cur want =
      both (serve cur (turn block cur want))
        (fill block serve (want - turn block cur want) (cur + turn block cur want) (want - turn block cur want)) := by
  obtain ⟨hpos, hle, -⟩ := turn_bounds hblock cur hwant
  rw [← fill_fuel hblock (want + 1) (by omega) hfits, fill_succ hblock hwant hfits]
  rw [fill_fuel hblock want (by omega) (by omega)]

/-- **What every turn gives of a disk, the loop gives of it.** -/
theorem fill_eq_window (hblock : 0 < block) {disk : Nat → α} {cur want : Nat} (hfits : cur + want < 2 ^ 64)
    (hserve : ∀ c n, cur ≤ c → c + n ≤ cur + want → 0 < n → c % block + n ≤ block → serve c n = .ok (window disk c n)) :
    fill block serve want cur want = .ok (window disk cur want) := by
  induction want using Nat.strongRecOn generalizing cur with
  | _ want ih =>
    rcases Nat.eq_zero_or_pos want with rfl | hwant
    · rfl
    · obtain ⟨hpos, hle, hin⟩ := turn_bounds hblock cur hwant
      rw [fill_turn hblock hwant hfits, hserve cur _ (Nat.le_refl cur) (by omega) hpos hin]
      rw [ih _ (by omega) (by omega) fun c n hlo hhi => hserve c n (by omega) (by omega)]
      rw [both_ok, ← window_append, Nat.add_sub_cancel' hle]

/-- **What the loop gives is of the disk, if what every turn gives is.** -/
theorem fill_sound (hblock : 0 < block) {disk : Nat → α} {cur want : Nat} (hfits : cur + want < 2 ^ 64)
    (hserve : ∀ c n bs, 0 < n → c % block + n ≤ block → c + n ≤ cur + want → serve c n = .ok bs → bs = window disk c n)
    {bs : List α} (h : fill block serve want cur want = .ok bs) : bs = window disk cur want := by
  induction want using Nat.strongRecOn generalizing cur bs with
  | _ want ih =>
    rcases Nat.eq_zero_or_pos want with rfl | hwant
    · exact (Except.ok.inj h).symm
    · obtain ⟨hpos, hle, hin⟩ := turn_bounds hblock cur hwant
      rw [fill_turn hblock hwant hfits] at h
      obtain ⟨part, rest, hpart, hrest, rfl⟩ := both_eq_ok.1 h
      have hrest := ih _ (by omega) (by omega) (fun c n bs hn hcn hto => hserve c n bs hn hcn (by omega)) hrest
      rw [hserve cur _ part hpos hin (by omega) hpart, hrest, ← window_append, Nat.add_sub_cancel' hle]

/-- The loop fails only as one of its turns does. -/
theorem fill_ne_error (hblock : 0 < block) {e : Fault ε} {cur want : Nat} (hfits : cur + want < 2 ^ 64)
    (hserve : ∀ c n, 0 < n → c % block + n ≤ block → c + n ≤ cur + want → serve c n ≠ .error e) :
    fill block serve want cur want ≠ .error e := by
  induction want using Nat.strongRecOn generalizing cur with
  | _ want ih =>
    rcases Nat.eq_zero_or_pos want with rfl | hwant
    · intro h
      cases h
    · obtain ⟨hpos, hle, hin⟩ := turn_bounds hblock cur hwant
      rw [fill_turn hblock hwant hfits]
      refine both_ne_error (hserve cur _ hpos hin (by omega)) ?_
      exact ih _ (by omega) (by omega) fun c n hn hcn hto => hserve c n hn hcn (by omega)

/-- From the start of a block on, every turn is at the start of one. -/
theorem fill_aligned_ne_error (hblock : 0 < block) {e : Fault ε} {cur want : Nat} (hcur : cur % block = 0)
    (hfits : cur + want < 2 ^ 64)
    (hserve : ∀ c n, c % block = 0 → 0 < n → c + n ≤ cur + want → serve c n ≠ .error e) :
    fill block serve want cur want ≠ .error e := by
  induction want using Nat.strongRecOn generalizing cur with
  | _ want ih =>
    rcases Nat.eq_zero_or_pos want with rfl | hwant
    · intro h
      cases h
    · obtain ⟨hpos, hle, -⟩ := turn_bounds hblock cur hwant
      rw [fill_turn hblock hwant hfits]
      refine both_ne_error (hserve cur _ hcur hpos (by omega)) ?_
      by_cases hlast : want ≤ block
      · rw [turn, hcur, Nat.sub_zero, Nat.min_eq_left hlast, Nat.sub_self, fill_nothing]
        intro h
        cases h
      · refine ih _ (by omega) ?_ (by omega) fun c n hc hn hto => hserve c n hc hn (by omega)
        rw [turn, hcur, Nat.sub_zero, Nat.min_eq_right (by omega), Nat.add_mod_right, hcur]

/-- **Where only a turn inside a block can fail so, the loop does exactly if its first turn does.** -/
theorem fill_eq_error_iff (hblock : 0 < block) {e : Fault ε} {cur want : Nat} (hwant : 0 < want) (hfits : cur + want < 2 ^ 64)
    (hserve : ∀ c n, c % block = 0 → 0 < n → c + n ≤ cur + want → serve c n ≠ .error e) :
    fill block serve want cur want = .error e ↔ serve cur (turn block cur want) = .error e := by
  have hrest : fill block serve (want - turn block cur want) (cur + turn block cur want) (want - turn block cur want) ≠
      .error e := by
    have hmod := Nat.mod_lt cur hblock
    by_cases hlast : want ≤ block - cur % block
    · rw [turn, Nat.min_eq_left hlast, Nat.sub_self, fill_nothing]
      intro h
      cases h
    · have hturn : turn block cur want = block - cur % block := Nat.min_eq_right (by omega)
      refine fill_aligned_ne_error hblock ?_ (by omega) fun c n hc hn hto => hserve c n hc hn (by omega)
      rw [hturn, show cur + (block - cur % block) = cur - cur % block + block by have := Nat.mod_le cur block; omega,
        Nat.add_mod_right]
      exact Nat.sub_mod_eq_zero_of_mod_eq (Nat.mod_mod cur block).symm
  rw [fill_turn hblock hwant hfits]
  cases hfirst : serve cur (turn block cur want) with
  | error e' => rw [both_error]
  | ok a =>
    refine iff_of_false (fun h => ?_) (fun h => by cases h)
    exact both_ne_error (fun h => by cases h) hrest h

/-- What holds of the range of every turn holds of the range of the loop. -/
theorem fill_forall (hblock : 0 < block) {P : Nat → Prop} {cur want : Nat} (hfits : cur + want < 2 ^ 64)
    (hserve : ∀ c n bs, 0 < n → c % block + n ≤ block → c + n ≤ cur + want → serve c n = .ok bs → ∀ i < n, P (c + i))
    {bs : List α} (h : fill block serve want cur want = .ok bs) : ∀ i < want, P (cur + i) := by
  induction want using Nat.strongRecOn generalizing cur bs with
  | _ want ih =>
    intro i hi
    obtain ⟨hpos, hle, hin⟩ := turn_bounds hblock cur (Nat.lt_of_le_of_lt (Nat.zero_le i) hi)
    rw [fill_turn hblock (by omega) hfits] at h
    obtain ⟨part, rest, hpart, hrest, rfl⟩ := both_eq_ok.1 h
    by_cases hfirst : i < turn block cur want
    · exact hserve cur _ part hpos hin (by omega) hpart i hfirst
    · have := ih _ (by omega) (by omega) (fun c n bs hn hcn hto => hserve c n bs hn hcn (by omega)) hrest
        (i - turn block cur want) (by omega)
      rwa [show cur + turn block cur want + (i - turn block cur want) = cur + i by omega] at this

/-- **A range read in two parts**, if a turn below `e` may be: the same bytes, or the same failure. -/
theorem fill_append (hblock : 0 < block) {e : Nat} (he : e < 2 ^ 64)
    (hserve : ∀ c a b, 0 < a → 0 < b → c % block + a + b ≤ block → c + a + b ≤ e →
      serve c (a + b) = both (serve c a) (serve (c + a) b))
    {cur a b : Nat} (hend : cur + a + b ≤ e) :
    fill block serve (a + b) cur (a + b) = both (fill block serve a cur a) (fill block serve b (cur + a) b) := by
  induction a using Nat.strongRecOn generalizing cur with
  | _ a ih =>
    rcases Nat.eq_zero_or_pos a with rfl | ha
    · rw [fill_nothing, nil_both, Nat.zero_add, Nat.add_zero]
    rcases Nat.eq_zero_or_pos b with rfl | hb
    · rw [fill_nothing, both_nil, Nat.add_zero]
    have hmod := Nat.mod_lt cur hblock
    by_cases hinside : a < block - cur % block
    · -- The cut is inside the first turn, and what is left of that turn is the first one of the second part.
      have hin : (cur + a) % block = cur % block + a := by
        rw [Nat.add_mod, Nat.mod_eq_of_lt (a := a) (by omega), Nat.mod_eq_of_lt (by omega)]
      have hfirst : turn block cur a = a := Nat.min_eq_left (by omega)
      have hwhole : turn block cur (a + b) = a + turn block (cur + a) b := by
        unfold turn
        omega
      obtain ⟨hpos, hle, hto⟩ := turn_bounds hblock (cur + a) hb
      rw [fill_turn hblock (Nat.add_pos_left ha b) (by omega), hwhole, hserve cur a _ ha hpos (by omega) (by omega), both_assoc]
      rw [fill_turn hblock ha (by omega), hfirst, Nat.sub_self, fill_nothing, both_nil]
      rw [fill_turn hblock hb (by omega), Nat.add_sub_add_left, Nat.add_assoc]
    · have hfirst : turn block cur a = block - cur % block := Nat.min_eq_right (by omega)
      have hwhole : turn block cur (a + b) = block - cur % block := Nat.min_eq_right (by omega)
      rw [fill_turn hblock (Nat.add_pos_left ha b) (by omega), hwhole]
      rw [fill_turn hblock ha (by omega), hfirst, both_assoc]
      have hrest : a + b - (block - cur % block) = a - (block - cur % block) + b := by omega
      have hnext : cur + a = cur + (block - cur % block) + (a - (block - cur % block)) := by omega
      rw [hrest, hnext, ih (a - (block - cur % block)) (by omega) (by omega)]

end Fill

/-! ## How many blocks there are -/

/-- `a.div_ceil(b)`. -/
def divCeil (a b : Nat) : Nat := (a + b - 1) / b

theorem lt_divCeil_iff {a b : Nat} (hb : 0 < b) {i : Nat} : i < divCeil a b ↔ i * b < a := by
  rw [divCeil, Nat.lt_iff_add_one_le, Nat.le_div_iff_mul_le hb, Nat.succ_mul]
  omega

/-- Every position below `a` is in a block that is counted. -/
theorem div_lt_divCeil {a b : Nat} (hb : 0 < b) {o : Nat} (ho : o < a) : o / b < divCeil a b := by
  rw [lt_divCeil_iff hb]
  exact Nat.lt_of_le_of_lt (Nat.div_mul_le_self o b) ho

/-! ## Interleaved entries -/

/-- The entries of a table without the one after every `ratio` of them; `k` are left before the next of those. -/
def skim (ratio : Nat) : Nat → List α → List α
  | _, [] => []
  | 0, _ :: xs => skim ratio ratio xs
  | k + 1, x :: xs => x :: skim ratio k xs

theorem getElem?_skim {ratio : Nat} (hratio : 0 < ratio) (k : Nat) (xs : List α) (b : Nat) :
    (skim ratio k xs)[b]? = if b < k then xs[b]? else xs[b + 1 + (b - k) / ratio]? := by
  induction xs generalizing k b with
  | nil => cases k <;> simp [skim]
  | cons x xs ih =>
    cases k with
    | zero =>
      rw [skim, ih, if_neg (Nat.not_lt_zero b), Nat.sub_zero]
      by_cases hb : b < ratio
      · rw [if_pos hb, Nat.div_eq_of_lt hb, Nat.add_zero, List.getElem?_cons_succ]
      · have hdiv : b / ratio = (b - ratio) / ratio + 1 := by
          rw [← Nat.add_div_right _ hratio, Nat.sub_add_cancel (Nat.not_lt.1 hb)]
        rw [if_neg hb, hdiv, ← Nat.add_assoc, List.getElem?_cons_succ]
    | succ k =>
      cases b with
      | zero => rw [skim, if_pos (Nat.succ_pos k), List.getElem?_cons_zero, List.getElem?_cons_zero]
      | succ b =>
        rw [skim, List.getElem?_cons_succ, ih, Nat.add_sub_add_right]
        by_cases hb : b < k
        · rw [if_pos hb, if_pos (Nat.succ_lt_succ hb), List.getElem?_cons_succ]
        · rw [if_neg hb, if_neg (fun h => hb (Nat.lt_of_succ_lt_succ h)), Nat.add_right_comm (b + 1) 1,
            List.getElem?_cons_succ]

/-- **Entry `b` without the interleaved ones is entry `b + b / ratio` with them.** -/
theorem getElem?_skim_full {ratio : Nat} (hratio : 0 < ratio) (xs : List α) (b : Nat) :
    (skim ratio ratio xs)[b]? = xs[b + b / ratio]? := by
  rw [getElem?_skim hratio]
  by_cases hb : b < ratio
  · rw [if_pos hb, Nat.div_eq_of_lt hb, Nat.add_zero]
  · have hdiv : b / ratio = (b - ratio) / ratio + 1 := by
      rw [← Nat.add_div_right _ hratio, Nat.sub_add_cancel (Nat.not_lt.1 hb)]
    rw [if_neg hb, hdiv, Nat.add_right_comm b 1, Nat.add_assoc]

end Blocks
