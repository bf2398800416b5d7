import Celium.Lib.Text
/-!
# Lines — the bytes of a text file, read line by line

`from_utf8_lossy`, `str::lines` and `trim`.  Where the bytes of a file do not spell a character, the longest start of one
is replaced as a whole.  A newline is never part of another character, so a file is read piece by piece at its newlines.
-/
namespace Text

/-! ## Bytes that may not be UTF-8 -/

/-- How many bytes follow a first byte, the range of the first of them, and the bits that the first byte gives. -/
def lead (b : Nat) : Option (Nat × Nat × Nat × Nat) :=
  if 0xC2 ≤ b ∧ b ≤ 0xDF then some (1, 0x80, 0xBF, b - 0xC0)
  else if b = 0xE0 then some (2, 0xA0, 0xBF, 0)
  else if b = 0xED then some (2, 0x80, 0x9F, 13)
  else if 0xE1 ≤ b ∧ b ≤ 0xEF then some (2, 0x80, 0xBF, b - 0xE0)
  else if b = 0xF0 then some (3, 0x90, 0xBF, 0)
  else if b = 0xF4 then some (3, 0x80, 0x8F, 4)
  else if 0xF1 ≤ b ∧ b ≤ 0xF3 then some (3, 0x80, 0xBF, b - 0xF0)
  else none

/-- The bytes that follow, the first of them in a range of its own: the number they spell with `acc` before them, if
all are there, and what is left after those that were taken. -/
def continued : Nat → Nat → Nat → Nat → List UInt8 → Option Nat × List UInt8
  | 0, _, _, acc, bs => (some acc, bs)
  | _ + 1, _, _, _, [] => (none, [])
  | k + 1, lo, hi, acc, b :: bs =>
    if lo ≤ b.toNat ∧ b.toNat ≤ hi then continued k 0x80 0xBF (acc * 64 + (b.toNat - 0x80)) bs else (none, b :: bs)

def replacement : Char := Char.ofNat 0xFFFD

/-- The first character, and the bytes after it. -/
def lossyHead (b : UInt8) (bs : List UInt8) : Char × List UInt8 :=
  if b.toNat < 0x80 then (Char.ofNat b.toNat, bs)
  else
    match lead b.toNat with
    | none => (replacement, bs)
    | some (k, lo, hi, acc) =>
      match continued k lo hi acc bs with
      | (some n, rest) => (Char.ofNat n, rest)
      | (none, rest) => (replacement, rest)

def lossyLoop : Nat → List UInt8 → List Char
  | 0, _ => []
  | _ + 1, [] => []
  | fuel + 1, b :: bs => (lossyHead b bs).1 :: lossyLoop fuel (lossyHead b bs).2

/-- `String::from_utf8_lossy`: every turn takes a byte at least. -/
def lossy (bs : List UInt8) : List Char := lossyLoop bs.length bs

theorem continued_length (k lo hi acc : Nat) (bs : List UInt8) : (continued k lo hi acc bs).2.length ≤ bs.length := by
  induction k generalizing lo hi acc bs with
  | zero => exact Nat.le_refl _
  | succ k ih =>
    cases bs with
    | nil => exact Nat.le_refl _
    | cons b bs =>
      rw [continued]
      split
      · exact Nat.le_succ_of_le (ih _ _ _ bs)
      · exact Nat.le_refl _

theorem lossyHead_length (b : UInt8) (bs : List UInt8) : (lossyHead b bs).2.length ≤ bs.length := by
  unfold lossyHead
  split
  · exact Nat.le_refl _
  split
  · exact Nat.le_refl _
  · rename_i k lo hi acc _
    have hlen := continued_length k lo hi acc bs
    split <;> rename_i heq <;> rw [heq] at hlen <;> exact hlen

theorem lossyLoop_eq {fuel : Nat} {bs : List UInt8} (h : bs.length ≤ fuel) : lossyLoop fuel bs = lossy bs := by
  have hstep : ∀ n fuel (bs : List UInt8), bs.length ≤ n → bs.length ≤ fuel → lossyLoop fuel bs = lossyLoop n bs := by
    intro n
    induction n with
    | zero =>
      intro fuel bs hn _
      obtain rfl := List.length_eq_zero_iff.1 (Nat.le_zero.1 hn)
      cases fuel <;> rfl
    | succ n ih =>
      intro fuel bs hn hfuel
      cases bs with
      | nil => cases fuel <;> rfl
      | cons b bs =>
        cases fuel with
        | zero => cases hfuel
        | succ fuel =>
          have hrest := lossyHead_length b bs
          simp only [List.length_cons] at hn hfuel
          rw [lossyLoop, lossyLoop, ih fuel _ (by omega) (by omega)]
  exact hstep bs.length fuel bs (Nat.le_refl _) h

@[simp] theorem lossy_nil : lossy [] = [] := rfl

theorem lossy_cons (b : UInt8) (bs : List UInt8) :
    lossy (b :: bs) = (lossyHead b bs).1 :: lossy (lossyHead b bs).2 := by
  rw [lossy, List.length_cons, lossyLoop, lossyLoop_eq (lossyHead_length b bs)]

/-! ## At a newline -/

/-- An ASCII byte follows no first byte. -/
theorem continued_append {x : UInt8} (hx : x.toNat < 0x80) {k lo : Nat} (hlo : 0x80 ≤ lo) (hi acc : Nat)
    (bs cs : List UInt8) : continued k lo hi acc (bs ++ x :: cs) =
      ((continued k lo hi acc bs).1, (continued k lo hi acc bs).2 ++ x :: cs) := by
  induction k generalizing lo hi acc bs with
  | zero => rfl
  | succ k ih =>
    cases bs with
    | nil =>
      change (if lo ≤ x.toNat ∧ x.toNat ≤ hi then _ else _) = _
      rw [if_neg (by omega)]
      rfl
    | cons b bs =>
      rw [List.cons_append, continued, continued]
      split
      · exact ih (Nat.le_refl _) _ _ bs
      · rfl

theorem lead_spec {b k lo hi acc : Nat} (h : lead b = some (k, lo, hi, acc)) :
    0x80 ≤ lo ∧ 0 < k ∧ 16 ≤ acc * 64 + (lo - 0x80) := by
  unfold lead at h
  iterate 7
    split at h
    · simp only [Option.some.injEq, Prod.mk.injEq] at h
      omega
  cases h

theorem lossyHead_append {x : UInt8} (hx : x.toNat < 0x80) (b : UInt8) (bs cs : List UInt8) :
    lossyHead b (bs ++ x :: cs) = ((lossyHead b bs).1, (lossyHead b bs).2 ++ x :: cs) := by
  unfold lossyHead
  split
  · rfl
  cases hlead : lead b.toNat with
  | none => rfl
  | some p =>
    obtain ⟨k, lo, hi, acc⟩ := p
    simp only
    rw [continued_append hx (lead_spec hlead).1]
    cases continued k lo hi acc bs with
    | mk o rest => cases o <;> rfl

/-- **A text is read in pieces at its ASCII characters.** -/
theorem lossy_append {x : UInt8} (hx : x.toNat < 0x80) (as bs : List UInt8) :
    lossy (as ++ x :: bs) = lossy as ++ Char.ofNat x.toNat :: lossy bs := by
  have hstep : ∀ n (as : List UInt8), as.length ≤ n →
      lossy (as ++ x :: bs) = lossy as ++ Char.ofNat x.toNat :: lossy bs := by
    intro n
    induction n with
    | zero =>
      intro as hn
      obtain rfl := List.length_eq_zero_iff.1 (Nat.le_zero.1 hn)
      rw [List.nil_append, lossy_cons, lossyHead, if_pos hx]
      rfl
    | succ n ih =>
      intro as hn
      cases as with
      | nil => exact ih [] (Nat.zero_le n)
      | cons a as =>
        have hrest := lossyHead_length a as
        simp only [List.length_cons] at hn
        rw [List.cons_append, lossy_cons, lossyHead_append hx, ih _ (by omega), lossy_cons a as]
        rfl
  exact hstep as.length as (Nat.le_refl _)

/-- What continued bytes spell is not smaller than what the first two of them give. -/
theorem le_of_continued {k lo hi acc n : Nat} {bs rest : List UInt8} (h : continued k lo hi acc bs = (some n, rest))
    (hk : 0 < k) : acc * 64 + (lo - 0x80) ≤ n := by
  induction k generalizing lo hi acc bs with
  | zero => cases hk
  | succ k ih =>
    cases bs with
    | nil => cases h
    | cons b bs =>
      rw [continued] at h
      split at h
      · rename_i hb
        rcases Nat.eq_zero_or_pos k with rfl | hpos
        · have := Option.some.inj (Prod.mk.inj h).1
          omega
        · have := ih h hpos
          omega
      · cases h

theorem toNat_ofNat (n : Nat) : (Char.ofNat n).toNat = n ∨ (Char.ofNat n).toNat = 0 := by
  by_cases h : n.isValidChar
  · exact .inl (by rw [Char.ofNat, dif_pos h]; rfl)
  · exact .inr (by rw [Char.ofNat, dif_neg h]; rfl)

/-- A newline is read from a newline only. -/
theorem lossyHead_newline {b : UInt8} {bs : List UInt8} (h : (lossyHead b bs).1 = '\n') : b = 10 := by
  have hofNat : ∀ {n}, Char.ofNat n = '\n' → n = 10 := by
    intro n heq
    have hn := toNat_ofNat n
    rw [heq] at hn
    rcases hn with hn | hn
    · exact hn.symm
    · cases hn
  have hreplacement : replacement ≠ '\n' := by decide
  unfold lossyHead at h
  split at h
  · exact UInt8.toNat_inj.1 (hofNat h)
  split at h
  · exact absurd h hreplacement
  rename_i k lo hi acc hlead
  split at h
  · rename_i n rest hcont
    have hle := le_of_continued hcont (lead_spec hlead).2.1
    have hlow := (lead_spec hlead).2.2
    have hn : n = 10 := hofNat h
    omega
  · exact absurd h hreplacement

theorem lossyHead_rest {b : UInt8} {bs : List UInt8} : ∀ x ∈ (lossyHead b bs).2, x ∈ bs := by
  have hcont : ∀ (k lo hi acc : Nat) (bs : List UInt8), ∀ x ∈ (continued k lo hi acc bs).2, x ∈ bs := by
    intro k
    induction k with
    | zero => exact fun _ _ _ _ _ hx => hx
    | succ k ih =>
      intro lo hi acc bs x hx
      cases bs with
      | nil => exact hx
      | cons b bs =>
        rw [continued] at hx
        split at hx
        · exact List.mem_cons_of_mem _ (ih _ _ _ bs x hx)
        · exact hx
  intro x hx
  unfold lossyHead at hx
  split at hx
  · exact hx
  split at hx
  · exact hx
  rename_i k lo hi acc _
  have hmem := hcont k lo hi acc bs x
  split at hx <;> rename_i heq <;> rw [heq] at hmem <;> exact hmem hx

theorem newline_of_lossy {bs : List UInt8} (h : '\n' ∈ lossy bs) : (10 : UInt8) ∈ bs := by
  have hstep : ∀ n (bs : List UInt8), bs.length ≤ n → '\n' ∈ lossy bs → (10 : UInt8) ∈ bs := by
    intro n
    induction n with
    | zero =>
      intro bs hn h
      obtain rfl := List.length_eq_zero_iff.1 (Nat.le_zero.1 hn)
      cases h
    | succ n ih =>
      intro bs hn h
      cases bs with
      | nil => cases h
      | cons b bs =>
        have hlen := lossyHead_length b bs
        simp only [List.length_cons] at hn
        rw [lossy_cons] at h
        rcases List.mem_cons.1 h with hhead | hrest
        · rw [lossyHead_newline hhead.symm]
          exact List.mem_cons_self
        · exact List.mem_cons_of_mem _ (lossyHead_rest _ (ih _ (by omega) hrest))
  exact hstep bs.length bs (Nat.le_refl _) h

/-! ## Bytes that are UTF-8 -/

theorem toNat_byte {n : Nat} (h : n < 256) : (UInt8.ofNat n).toNat = n := UInt8.toNat_ofNat_of_lt' h

theorem continued_cons {lo hi n : Nat} (hn : n < 256) (hlo : lo ≤ n) (hhi : n ≤ hi) (k acc : Nat) (bs : List UInt8) :
    continued (k + 1) lo hi acc (UInt8.ofNat n :: bs) = continued k 0x80 0xBF (acc * 64 + (n - 0x80)) bs := by
  rw [continued, toNat_byte hn, if_pos ⟨hlo, hhi⟩]

theorem lossyHead_of_lead {n k lo hi acc m : Nat} {bs rest : List UInt8} (hn : n < 256) (hb : 0x80 ≤ n)
    (hlead : lead n = some (k, lo, hi, acc)) (hcont : continued k lo hi acc bs = (some m, rest)) :
    lossyHead (UInt8.ofNat n) bs = (Char.ofNat m, rest) := by
  rw [lossyHead, toNat_byte hn, if_neg (by omega), hlead]
  simp only [hcont]

section Encoded

variable {v : Nat}

theorem lossyHead_two (hlo : 0x7f < v) (hhi : v ≤ 0x7ff) (rest : List UInt8) :
    lossyHead (UInt8.ofNat (v / 64 % 0x20 + 0xc0)) (UInt8.ofNat (v % 0x40 + 0x80) :: rest) = (Char.ofNat v, rest) := by
  have hlead : lead (v / 64 % 0x20 + 0xc0) = some (1, 0x80, 0xBF, v / 64) := by
    unfold lead
    rw [if_pos (by omega)]
    simp only [Option.some.injEq, Prod.mk.injEq, true_and]
    omega
  have hcont : continued 1 0x80 0xBF (v / 64) (UInt8.ofNat (v % 0x40 + 0x80) :: rest) = (some v, rest) := by
    rw [continued_cons (by omega) (by omega) (by omega), continued]
    simp only [Prod.mk.injEq, Option.some.injEq, and_true]
    omega
  rw [lossyHead_of_lead (by omega) (by omega) hlead hcont]

theorem lossyHead_three (hlo : 0x7ff < v) (hhi : v ≤ 0xffff) (hsurrogate : v < 0xD800 ∨ 0xDFFF < v) (rest : List UInt8) :
    lossyHead (UInt8.ofNat (v / 4096 % 0x10 + 0xe0))
      (UInt8.ofNat (v / 64 % 0x40 + 0x80) :: UInt8.ofNat (v % 0x40 + 0x80) :: rest) = (Char.ofNat v, rest) := by
  obtain ⟨lo, hi, hlead, hfrom, hto⟩ : ∃ lo hi, lead (v / 4096 % 0x10 + 0xe0) = some (2, lo, hi, v / 4096) ∧
      lo ≤ v / 64 % 0x40 + 0x80 ∧ v / 64 % 0x40 + 0x80 ≤ hi := by
    unfold lead
    rw [if_neg (by omega)]
    by_cases hzero : v / 4096 = 0
    · rw [if_pos (by omega), hzero]
      exact ⟨_, _, rfl, by omega, by omega⟩
    rw [if_neg (by omega)]
    by_cases hd : v / 4096 = 13
    · rw [if_pos (by omega), hd]
      exact ⟨_, _, rfl, by omega, by omega⟩
    · rw [if_neg (by omega), if_pos (by omega)]
      exact ⟨_, _, congrArg _ (congrArg _ (congrArg _ (congrArg _ (by omega)))), by omega, by omega⟩
  have hcont : continued 2 lo hi (v / 4096)
      (UInt8.ofNat (v / 64 % 0x40 + 0x80) :: UInt8.ofNat (v % 0x40 + 0x80) :: rest) = (some v, rest) := by
    rw [continued_cons (by omega) hfrom hto, continued_cons (by omega) (by omega) (by omega), continued]
    simp only [Prod.mk.injEq, Option.some.injEq, and_true]
    omega
  rw [lossyHead_of_lead (by omega) (by omega) hlead hcont]

theorem lossyHead_four (hlo : 0xffff < v) (hhi : v < 0x110000) (rest : List UInt8) :
    lossyHead (UInt8.ofNat (v / 262144 % 0x08 + 0xf0)) (UInt8.ofNat (v / 4096 % 0x40 + 0x80) ::
      UInt8.ofNat (v / 64 % 0x40 + 0x80) :: UInt8.ofNat (v % 0x40 + 0x80) :: rest) = (Char.ofNat v, rest) := by
  obtain ⟨lo, hi, hlead, hfrom, hto⟩ : ∃ lo hi, lead (v / 262144 % 0x08 + 0xf0) = some (3, lo, hi, v / 262144) ∧
      lo ≤ v / 4096 % 0x40 + 0x80 ∧ v / 4096 % 0x40 + 0x80 ≤ hi := by
    unfold lead
    rw [if_neg (by omega), if_neg (by omega), if_neg (by omega), if_neg (by omega)]
    by_cases hzero : v / 262144 = 0
    · rw [if_pos (by omega), hzero]
      exact ⟨_, _, rfl, by omega, by omega⟩
    rw [if_neg (by omega)]
    by_cases hfour : v / 262144 = 4
    · rw [if_pos (by omega), hfour]
      exact ⟨_, _, rfl, by omega, by omega⟩
    · rw [if_neg (by omega), if_pos (by omega)]
      exact ⟨_, _, congrArg _ (congrArg _ (congrArg _ (congrArg _ (by omega)))), by omega, by omega⟩
  have hcont : continued 3 lo hi (v / 262144) (UInt8.ofNat (v / 4096 % 0x40 + 0x80) ::
      UInt8.ofNat (v / 64 % 0x40 + 0x80) :: UInt8.ofNat (v % 0x40 + 0x80) :: rest) = (some v, rest) := by
    rw [continued_cons (by omega) hfrom hto, continued_cons (by omega) (by omega) (by omega),
      continued_cons (by omega) (by omega) (by omega), continued]
    simp only [Prod.mk.injEq, Option.some.injEq, and_true]
    omega
  rw [lossyHead_of_lead (by omega) (by omega) hlead hcont]

end Encoded

/-- **The bytes of a character are read as the character.** -/
theorem lossyHead_encode (c : Char) : ∃ b bs, String.utf8EncodeChar c = b :: bs ∧
    ∀ rest, lossyHead b (bs ++ rest) = (c, rest) := by
  have hvalid : c.val.toNat < 0xD800 ∨ 0xDFFF < c.val.toNat ∧ c.val.toNat < 0x110000 := c.valid
  have hchar : Char.ofNat c.val.toNat = c := Char.ofNat_toNat c
  unfold String.utf8EncodeChar
  simp only
  generalize c.val.toNat = v at hvalid hchar
  subst hchar
  split
  · refine ⟨_, _, rfl, fun rest => ?_⟩
    rw [lossyHead, toNat_byte (by omega), if_pos (by omega)]
    rfl
  split
  · rename_i hlo hhi
    exact ⟨_, _, rfl, lossyHead_two (Nat.not_le.1 hlo) hhi⟩
  split
  · rename_i hlo hhi
    exact ⟨_, _, rfl, lossyHead_three (Nat.not_le.1 hlo) hhi (by omega)⟩
  · rename_i hlo
    exact ⟨_, _, rfl, lossyHead_four (Nat.not_le.1 hlo) (by omega)⟩

/-- **Valid UTF-8 is read as it is.** -/
theorem lossy_encode (cs : List Char) (rest : List UInt8) :
    lossy (cs.flatMap String.utf8EncodeChar ++ rest) = cs ++ lossy rest := by
  induction cs with
  | nil => rfl
  | cons c cs ih =>
    obtain ⟨b, bs, hbytes, hhead⟩ := lossyHead_encode c
    rw [List.flatMap_cons, hbytes, List.append_assoc, List.cons_append, lossy_cons, hhead, ih]
    rfl

theorem lossy_utf8 (s : String) : lossy (utf8 s) = s.toList := by
  have h := lossy_encode s.toList []
  rwa [List.append_nil, ← utf8_eq_flatMap, lossy_nil, List.append_nil] at h

/-! ## Lines -/

/-- The pieces up to and with each newline. -/
def splitInclusive : List Char → List (List Char)
  | [] => []
  | c :: cs =>
    if c = '\n' then ['\n'] :: splitInclusive cs
    else
      match splitInclusive cs with
      | [] => [[c]]
      | l :: ls => (c :: l) :: ls

/-- A line without its end. -/
def chopLine (l : List Char) : List Char :=
  if l.getLast? = some '\n' then
    if l.dropLast.getLast? = some '\r' then l.dropLast.dropLast else l.dropLast
  else l

/-- `str::lines`. -/
def lines (cs : List Char) : List (List Char) := (splitInclusive cs).map chopLine

/-- `str::trim`. -/
def trim (cs : List Char) : List Char :=
  ((cs.dropWhile isWhitespace).reverse.dropWhile isWhitespace).reverse

theorem splitInclusive_ne_nil {cs : List Char} (h : cs ≠ []) : splitInclusive cs ≠ [] := by
  cases cs with
  | nil => exact absurd rfl h
  | cons c cs =>
    rw [splitInclusive]
    split
    · exact List.cons_ne_nil _ _
    · split <;> exact List.cons_ne_nil _ _

/-- A text that ends in a newline is split apart from what follows. -/
theorem splitInclusive_append (as bs : List Char) :
    splitInclusive (as ++ '\n' :: bs) = splitInclusive (as ++ ['\n']) ++ splitInclusive bs := by
  induction as with
  | nil => simp [splitInclusive]
  | cons a as ih =>
    rw [List.cons_append, List.cons_append, splitInclusive, splitInclusive, ih]
    split
    · rfl
    · have hne : splitInclusive (as ++ ['\n']) ≠ [] := splitInclusive_ne_nil (by simp)
      cases hs : splitInclusive (as ++ ['\n']) with
      | nil => exact absurd hs hne
      | cons l ls => rfl

theorem lines_append (as bs : List Char) : lines (as ++ '\n' :: bs) = lines (as ++ ['\n']) ++ lines bs := by
  rw [lines, splitInclusive_append, List.map_append, lines, lines]

/-- A text without a newline is one line, unless it is empty. -/
theorem splitInclusive_plain {cs : List Char} (h : '\n' ∉ cs) (hne : cs ≠ []) : splitInclusive cs = [cs] := by
  induction cs with
  | nil => exact absurd rfl hne
  | cons c cs ih =>
    have hc : c ≠ '\n' := fun hc => h (hc ▸ List.mem_cons_self)
    rw [splitInclusive, if_neg hc]
    cases cs with
    | nil => rfl
    | cons d ds => rw [ih (fun hm => h (List.mem_cons_of_mem _ hm)) (List.cons_ne_nil d ds)]

theorem lines_plain {cs : List Char} (h : '\n' ∉ cs) (hne : cs ≠ []) : lines cs = [cs] := by
  have hlast : cs.getLast? ≠ some '\n' := fun hlast => h (List.mem_of_getLast? hlast)
  rw [lines, splitInclusive_plain h hne, List.map_singleton, chopLine, if_neg hlast]

/-- A line that is written with its newline is read without it, unless it ends in a carriage return. -/
theorem lines_newline {cs : List Char} (h : '\n' ∉ cs) (hcr : cs.getLast? ≠ some '\r') : lines (cs ++ ['\n']) = [cs] := by
  have hsplit : splitInclusive (cs ++ ['\n']) = [cs ++ ['\n']] := by
    induction cs with
    | nil => rfl
    | cons c cs ih =>
      have hc : c ≠ '\n' := fun hc => h (hc ▸ List.mem_cons_self)
      have hcs : splitInclusive (cs ++ ['\n']) = [cs ++ ['\n']] := by
        cases cs with
        | nil => rfl
        | cons d ds => exact ih (fun hm => h (List.mem_cons_of_mem _ hm)) (by simpa using hcr)
      rw [List.cons_append, splitInclusive, if_neg hc, hcs]
  rw [lines, hsplit, List.map_singleton, chopLine, List.getLast?_concat, if_pos rfl, List.dropLast_concat, if_neg hcr]

/-- What is left of a trimmed text does not end in a blank. -/
theorem getLast?_trim {cs : List Char} {c : Char} (h : (trim cs).getLast? = some c) : isWhitespace c = false := by
  rw [trim, List.getLast?_reverse] at h
  have hnot := List.head?_dropWhile_not isWhitespace (cs.dropWhile isWhitespace).reverse
  rw [h] at hnot
  simpa using hnot

theorem mem_lossy_of_newline {bs : List UInt8} (h : (10 : UInt8) ∈ bs) : '\n' ∈ lossy bs := by
  obtain ⟨as, cs, rfl⟩ := List.append_of_mem h
  rw [lossy_append (by decide)]
  exact List.mem_append_right _ List.mem_cons_self

theorem lossy_length_le (bs : List UInt8) : (lossy bs).length ≤ bs.length := by
  have hloop : ∀ fuel (bs : List UInt8), (lossyLoop fuel bs).length ≤ fuel := by
    intro fuel
    induction fuel with
    | zero => exact fun _ => Nat.le_refl 0
    | succ fuel ih =>
      intro bs
      cases bs with
      | nil => exact Nat.zero_le _
      | cons b bs => exact Nat.succ_le_succ (ih _)
  exact hloop bs.length bs

theorem trim_length_le (cs : List Char) : (trim cs).length ≤ cs.length := by
  rw [trim, List.length_reverse]
  refine Nat.le_trans (List.dropWhile_sublist _).length_le ?_
  rw [List.length_reverse]
  exact (List.dropWhile_sublist _).length_le

end Text
