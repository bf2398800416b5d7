import Celium.EptWalk
/-!
# FrameBytes — the bytes of a frame

A frame is 512 entries, whose bytes stand in little-endian order.  Whoever owns it reads and writes its bytes, and a blob
that is copied into it is there afterwards.
-/
namespace Celium

open Ept

/-! ## Bytes of an entry -/

def entryByte (entry j : Nat) : UInt8 := UInt8.ofNat (entry / 256 ^ j)

/-- The entry with another byte at `j`. -/
def setEntryByte (entry j : Nat) (b : UInt8) : Nat :=
  entry % 256 ^ j + 256 ^ j * (b.toNat + 256 * (entry / 256 ^ (j + 1) % 256 ^ (7 - j)))

theorem entryByte_congr {m n k : Nat} (h : m % 256 ^ (k + 1) = n % 256 ^ (k + 1)) : entryByte m k = entryByte n k := by
  have hdiv : m / 256 ^ k % 256 = n / 256 ^ k % 256 := by
    rw [← Nat.mod_mul_right_div_self, ← Nat.mod_mul_right_div_self, ← Nat.pow_succ, h]
  apply UInt8.toNat_inj.1
  rw [entryByte, entryByte, UInt8.toNat_ofNat', UInt8.toNat_ofNat']
  exact hdiv

theorem entryByte_zero (k : Nat) : entryByte 0 k = 0 := by
  rw [entryByte, Nat.zero_div]
  rfl

theorem setEntryByte_lt {j : Nat} (hj : j < 8) (entry : Nat) (b : UInt8) : setEntryByte entry j b < 2 ^ 64 := by
  have hlow : entry % 256 ^ j < 256 ^ j := Nat.mod_lt _ (Nat.pow_pos (by decide))
  have hhigh : entry / 256 ^ (j + 1) % 256 ^ (7 - j) < 256 ^ (7 - j) := Nat.mod_lt _ (Nat.pow_pos (by decide))
  have hb := b.toNat_lt
  have hmid : b.toNat + 256 * (entry / 256 ^ (j + 1) % 256 ^ (7 - j)) + 1 ≤ 256 ^ (8 - j) := by
    rw [show 8 - j = 7 - j + 1 by omega, Nat.pow_succ]
    omega
  calc setEntryByte entry j b
      < 256 ^ j * (b.toNat + 256 * (entry / 256 ^ (j + 1) % 256 ^ (7 - j)) + 1) := by
        rw [setEntryByte, Nat.mul_succ]
        omega
    _ ≤ 256 ^ j * 256 ^ (8 - j) := Nat.mul_le_mul_left _ hmid
    _ = 2 ^ 64 := by
        rw [← Nat.pow_add, show j + (8 - j) = 8 by omega]
        rfl

theorem entryByte_setEntryByte {j k : Nat} (hk : k < 8) (entry : Nat) (b : UInt8) :
    entryByte (setEntryByte entry j b) k = if k = j then b else entryByte entry k := by
  have hlow : entry % 256 ^ j < 256 ^ j := Nat.mod_lt _ (Nat.pow_pos (by decide))
  have hb := b.toNat_lt
  have hdiv : setEntryByte entry j b / 256 ^ j = b.toNat + 256 * (entry / 256 ^ (j + 1) % 256 ^ (7 - j)) := by
    rw [setEntryByte, Nat.add_mul_div_left _ _ (Nat.pow_pos (by decide)), Nat.div_eq_of_lt hlow, Nat.zero_add]
  rcases Nat.lt_trichotomy k j with hlt | rfl | hgt
  · rw [if_neg (Nat.ne_of_lt hlt)]
    refine entryByte_congr ?_
    have hdvd : 256 ^ (k + 1) ∣ 256 ^ j := Nat.pow_dvd_pow 256 hlt
    rw [← Nat.mod_mod_of_dvd _ hdvd, ← Nat.mod_mod_of_dvd entry hdvd, setEntryByte, Nat.add_mul_mod_self_left, Nat.mod_mod]
  · rw [if_pos rfl, entryByte, hdiv]
    apply UInt8.toNat_inj.1
    rw [UInt8.toNat_ofNat', Nat.add_mul_mod_self_left, Nat.mod_eq_of_lt hb]
  · rw [if_neg (Nat.ne_of_gt hgt)]
    obtain ⟨d, rfl⟩ := Nat.exists_eq_add_of_lt hgt
    have hrest : setEntryByte entry j b / 256 ^ (j + 1) = entry / 256 ^ (j + 1) % 256 ^ (7 - j) := by
      rw [Nat.pow_succ, ← Nat.div_div_eq_div_mul, hdiv, Nat.add_mul_div_left _ _ (by decide), Nat.div_eq_of_lt hb,
        Nat.zero_add, ← Nat.pow_succ]
    have hsplit : ∀ n : Nat, entryByte n (j + d + 1) = entryByte (n / 256 ^ (j + 1)) d := by
      intro n
      rw [entryByte, entryByte, Nat.div_div_eq_div_mul, ← Nat.pow_add, show j + 1 + d = j + d + 1 by omega]
    rw [hsplit, hsplit entry, hrest]
    exact entryByte_congr (Nat.mod_mod_of_dvd _ (Nat.pow_dvd_pow 256 (by omega)))

/-! ## Bytes of a frame -/

/-- A place in a frame. -/
abbrev Offset := Fin pageSize

/-- The entry a byte of a frame is in. -/
def cellOf (k : Offset) : Index := ⟨k / 8, by have := k.isLt; simp only [pageSize] at this; omega⟩

section Bytes

variable {σ : Type} (P : FrameProvider σ)

def peek (s : σ) (pa : PhysAddr) (k : Offset) : UInt8 := entryByte (P.readEntry s pa (cellOf k)) (k % 8)

def poke (s : σ) (pa : PhysAddr) (k : Offset) (b : UInt8) : σ :=
  P.writeEntry s pa (cellOf k) (setEntryByte (P.readEntry s pa (cellOf k)) (k % 8) b)

/-- `copy_nonoverlapping` of a list, to a frame from `k` on. -/
def copyIn (pa : PhysAddr) : σ → Nat → List UInt8 → σ
  | s, _, [] => s
  | s, k, b :: bs => if h : k < pageSize then copyIn pa (poke P s pa ⟨k, h⟩ b) (k + 1) bs else s

variable {P} {C : P.Contract} {s s' : σ} {pa : PhysAddr}

/-- What a write to `pa` can do. -/
structure Touches (C : P.Contract) (s s' : σ) (pa : PhysAddr) : Prop where
  valid : C.valid s'
  owned : ∀ a, C.owned s' a ↔ C.owned s a
  other : ∀ a, C.owned s a → a ≠ pa → ∀ i, P.readEntry s' a i = P.readEntry s a i

theorem Touches.refl (hs : C.valid s) : Touches C s s pa := ⟨hs, fun _ => Iff.rfl, fun _ _ _ _ => rfl⟩

theorem Touches.trans {s'' : σ} (h : Touches C s s' pa) (h' : Touches C s' s'' pa) : Touches C s s'' pa where
  valid := h'.valid
  owned a := (h'.owned a).trans (h.owned a)
  other a ha hne i := (h'.other a ((h.owned a).2 ha) hne i).trans (h.other a ha hne i)

theorem touches_write (hs : C.valid s) (hpa : C.owned s pa) (i : Index) {v : Nat} (hv : v < 2 ^ 64) :
    Touches C s (P.writeEntry s pa i v) pa where
  valid := C.write_valid hs hpa i v hv
  owned := C.write_owned hs hpa i v hv
  other a ha hne j := C.write_other hs hpa i v hv a ha j fun heq => hne (Prod.mk.inj heq).1

theorem poke_spec (hs : C.valid s) (hpa : C.owned s pa) (k : Offset) (b : UInt8) :
    Touches C s (poke P s pa k b) pa ∧
      ∀ j, peek P (poke P s pa k b) pa j = Function.update (peek P s pa) k b j := by
  have hk : k.val % 8 < 8 := Nat.mod_lt _ (by decide)
  have hv := setEntryByte_lt hk (P.readEntry s pa (cellOf k)) b
  refine ⟨touches_write hs hpa _ hv, fun j => ?_⟩
  have hj : j.val % 8 < 8 := Nat.mod_lt _ (by decide)
  rw [Function.update_apply, peek, poke]
  by_cases hcell : cellOf j = cellOf k
  · rw [hcell, C.write_self hs hpa _ _ hv, entryByte_setEntryByte hj, peek, hcell]
    have hiff : (j.val % 8 = k.val % 8) ↔ j = k := by
      have hdiv := congrArg Fin.val hcell
      simp only [cellOf] at hdiv
      rw [Fin.ext_iff]
      omega
    by_cases hjk : j = k
    · rw [if_pos (hiff.2 hjk), if_pos hjk]
    · rw [if_neg (fun h => hjk (hiff.1 h)), if_neg hjk]
  · rw [C.write_other hs hpa _ _ hv pa hpa (cellOf j) (fun heq => hcell (Prod.mk.inj heq).2), if_neg, peek]
    rintro rfl
    exact hcell rfl

/-- **A blob that is copied in is there**, and nothing else has changed. -/
theorem copyIn_spec : ∀ {bs : List UInt8} {k : Nat} {s : σ}, C.valid s → C.owned s pa → k + bs.length ≤ pageSize →
    Touches C s (copyIn P pa s k bs) pa ∧
      ∀ j : Offset, peek P (copyIn P pa s k bs) pa j =
        if h : k ≤ j ∧ j < k + bs.length then bs[j.val - k] else peek P s pa j
  | [], k, s, hs, hpa, _ => by
    refine ⟨.refl hs, fun j => ?_⟩
    rw [copyIn, dif_neg]
    rw [List.length_nil]
    omega
  | b :: bs, k, s, hs, hpa, hfits => by
    rw [List.length_cons] at hfits
    have hk : k < pageSize := by omega
    obtain ⟨htouch, hpeek⟩ := poke_spec hs hpa ⟨k, hk⟩ b
    have hfits' : k + 1 + bs.length ≤ pageSize := by omega
    obtain ⟨htouch', hpeek'⟩ := copyIn_spec htouch.valid ((htouch.owned pa).2 hpa) hfits'
    rw [copyIn, dif_pos hk]
    refine ⟨htouch.trans htouch', fun j => ?_⟩
    rw [hpeek' j]
    by_cases hlater : k + 1 ≤ j.val ∧ j.val < k + 1 + bs.length
    · rw [dif_pos hlater, dif_pos (by rw [List.length_cons]; omega)]
      rw [List.getElem_cons, dif_neg (by omega)]
      rfl
    · rw [dif_neg hlater, hpeek, Function.update_apply]
      by_cases hhere : j = ⟨k, hk⟩
      · subst hhere
        rw [if_pos rfl, dif_pos (by rw [List.length_cons]; exact ⟨Nat.le_refl k, by dsimp only; omega⟩)]
        simp only [Nat.sub_self, List.getElem_cons_zero]
      · rw [if_neg hhere, dif_neg]
        rw [List.length_cons]
        rw [Fin.ext_iff] at hhere
        change j.val ≠ k at hhere
        omega

end Bytes

end Celium
