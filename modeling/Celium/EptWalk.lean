import Celium.Ept
/-!
# EptWalk — a translation is the last mapping of its page

The tables of an `Ept` are a tree of frames that are all different, whatever was mapped and wherever an allocation failed.
So a mapping reaches the translations of its own page and no others.
-/
namespace Celium

open Bytes Walk

namespace Ept

/-! ## Entries -/

/-- Where an entry leads. -/
def link (entry : Nat) : Option PhysAddr := if entryIsPresent entry then some (entryAddr entry) else none

theorem and_addrMask (n : Nat) : n &&& addrMask = 2 ^ 12 * (n % 2 ^ 52 / 2 ^ 12) := and_mid n (j := 12) (k := 52) (by decide)

theorem and_offset (n : Nat) : n &&& 0xFFF = n % pageSize := and_low n 12

theorem addrMask_of_aligned {a : PhysAddr} (h : a.addr % pageSize = 0) : a.addr &&& addrMask = a.addr := by
  have := a.lt
  rw [and_addrMask, Nat.mod_eq_of_lt this]
  exact Nat.mul_div_cancel' (Nat.dvd_of_mod_eq_zero h)

/-- The address field of an entry without its low bits. -/
theorem addrMask_flags (n : Nat) {bits : Nat} (h : bits &&& addrMask = 0) : (n ||| bits) &&& addrMask = n &&& addrMask := by
  rw [Nat.and_or_distrib_right, h, Nat.or_zero]

theorem access_flags {n : Nat} (bits : Nat) (h : n &&& 0b111 = 0) : (n ||| bits) &&& 0b111 = bits &&& 0b111 := by
  rw [Nat.and_or_distrib_right, h, Nat.zero_or]

theorem access_aligned {n : Nat} (h : n % pageSize = 0) : n &&& 0b111 = 0 := by
  have hlow : n &&& 0b111 = n % 8 := and_low n 3
  rw [pageSize] at h
  omega

theorem link_table {a : PhysAddr} (h : a.addr % pageSize = 0) : link (a.addr ||| nonLeafRwx) = some a := by
  have hpresent : entryIsPresent (a.addr ||| nonLeafRwx) := by
    rw [entryIsPresent, access_flags _ (access_aligned h)]
    decide
  have haddr : entryAddr (a.addr ||| nonLeafRwx) = a := by
    rw [entryAddr, PhysAddr.mk.injEq, addrMask_flags _ (by decide), addrMask_of_aligned h]
  rw [link, if_pos hpresent, haddr]

theorem link_zero : link 0 = none := if_neg (by decide)

/-! ## The tree of tables -/

variable {σ : Type} {P : FrameProvider σ} {C : P.Contract} {e : Ept} {s s' : σ}

/-- The tables of the upper three levels and the lowest are different frames, all of them handed out by the provider. -/
structure Inv (C : P.Contract) (e : Ept) (s : σ) : Prop where
  valid : C.valid s
  tree : Tree link (P.readEntry s) e.pml4 3 (C.owned s)

/-- The leaf entry at the end of a walk, if the walk gets there. -/
def look (P : FrameProvider σ) (e : Ept) (s : σ) (q : List Index) (j : Index) : Option Nat :=
  (walk link (P.readEntry s) e.pml4 q).map fun t => P.readEntry s t j

/-- The leaf entry, if it is present. -/
def leaf (P : FrameProvider σ) (e : Ept) (s : σ) (q : List Index) (j : Index) : Option Nat :=
  (look P e s q j).filter fun v => entryIsPresent v

theorem walkDown_eq (a : PhysAddr) (path : List Index) :
    walkDown P s a path = match walk link (P.readEntry s) a path with
      | some t => .ok t
      | none => .error (.hardware "ept::translate: walk hit absent non-leaf") := by
  induction path generalizing a with
  | nil => rfl
  | cons i path ih =>
    rw [walkDown, walk, link]
    split
    · exact ih _
    · rfl

theorem translate_eq (e : Ept) (s : σ) (gpa : PhysAddr) :
    e.translate P s gpa = match look P e s (tablePath gpa) (leafIndex gpa) with
      | some v =>
        if v &&& 0b111 = 0 then .error (.hardware "ept::translate: leaf absent") else .ok (leafAddr v gpa)
      | none => .error (.hardware "ept::translate: walk hit absent non-leaf") := by
  rw [translate, walkDown_eq, look]
  cases walk link (P.readEntry s) e.pml4 (tablePath gpa) with
  | none => rfl
  | some t => rfl

theorem new_inv (hs : C.valid s) (hnew : Ept.new P s = (.ok e, s')) :
    Inv C e s' ∧ ∀ q j, q.length = 3 → leaf P e s' q j = none := by
  unfold Ept.new at hnew
  split at hnew
  · rename_i pml4 s₁ halloc
    cases hnew
    have hempty : ∀ i, link (P.readEntry s' pml4 i) = none := by
      intro i
      rw [C.alloc_zero hs halloc i, link_zero]
    refine ⟨⟨C.alloc_valid hs halloc, .single (C.alloc_fresh hs halloc).2 hempty⟩, fun q j hq => ?_⟩
    cases q with
    | nil => cases hq
    | cons i q =>
      rw [leaf, look, walk, hempty]
      rfl
  · cases hnew

/-- One turn of the loop of `map_4k` that allocates: the table at the end of `path` gets a new one under `i`. -/
theorem link_step (hinv : Inv C e s) {path : List Index} {t b : PhysAddr} {i : Index} {s₁ : σ} (hlen : path.length < 3)
    (hpath : walk link (P.readEntry s) e.pml4 path = some t) (habsent : ¬ entryIsPresent (P.readEntry s t i))
    (halloc : P.allocZeroed s = (.ok b, s₁)) (hs' : s' = P.writeEntry s₁ t i (b.addr ||| nonLeafRwx)) :
    Inv C e s' ∧ walk link (P.readEntry s') e.pml4 (path ++ [i]) = some b ∧
      (∀ q j, q.length = 3 → leaf P e s' q j = leaf P e s q j) ∧
      (path.length + 1 < 3 → ∀ q j, q.length = 3 → look P e s' q j = look P e s q j) := by
  subst hs'
  have hvalid := C.alloc_valid hinv.valid halloc
  have hkeep := C.alloc_owned hinv.valid halloc
  obtain ⟨hfresh, hb⟩ := C.alloc_fresh hinv.valid halloc
  have ht : C.owned s t := hinv.tree.owned (by omega) hpath
  have hv : b.addr ||| nonLeafRwx < 2 ^ 64 := Nat.or_lt_two_pow (Nat.lt_trans b.lt (by decide)) (by decide)
  have hbt : ∀ j, (b, j) ≠ (t, i) := by
    intro j h
    exact hfresh ((Prod.mk.inj h).1 ▸ ht)
  have hsame : ∀ a, C.owned s a → ∀ j, (a, j) ≠ (t, i) →
      P.readEntry (P.writeEntry s₁ t i (b.addr ||| nonLeafRwx)) a j = P.readEntry s a j := by
    intro a ha j hne
    rw [C.write_other hvalid (hkeep t ht) i _ hv a (hkeep a ha) j hne, C.alloc_same hinv.valid halloc a ha]
  have hzero : ∀ j, P.readEntry (P.writeEntry s₁ t i (b.addr ||| nonLeafRwx)) b j = 0 := by
    intro j
    rw [C.write_other hvalid (hkeep t ht) i _ hv b hb j (hbt j), C.alloc_zero hinv.valid halloc]
  have hempty : ∀ j, link (P.readEntry (P.writeEntry s₁ t i (b.addr ||| nonLeafRwx)) b j) = none := by
    intro j
    rw [hzero, link_zero]
  have hlink : link (P.readEntry (P.writeEntry s₁ t i (b.addr ||| nonLeafRwx)) t i) = some b := by
    rw [C.write_self hvalid (hkeep t ht) i _ hv, link_table (C.alloc_frame hinv.valid halloc).2]
  have hfree : link (P.readEntry s t i) = none := if_neg habsent
  have hwalk := fun {q : List Index} (hq : q.length ≤ 3) => hinv.tree.walk_link hlen hpath hfree hlink hempty hsame hq
  have howned := C.write_owned hvalid (hkeep t ht) i _ hv
  have hlook : ∀ q j, q.length = 3 → q ≠ path ++ [i] →
      look P e (P.writeEntry s₁ t i (b.addr ||| nonLeafRwx)) q j = look P e s q j := by
    intro q j hq hne
    rw [look, hwalk (Nat.le_of_eq hq), if_neg hne, look]
    refine Option.map_congr fun u hu => hsame u (hinv.tree.owned (Nat.le_of_eq hq) hu) j fun heq => ?_
    -- A lowest table is not the one that was written to.
    have := congrArg List.length (hinv.tree.unique (Nat.le_of_eq hq) (by omega) ((Prod.mk.inj heq).1 ▸ hu) hpath)
    omega
  refine ⟨⟨C.write_valid hvalid (hkeep t ht) i _ hv, ?_⟩, ?_, ?_, ?_⟩
  · exact hinv.tree.link hlen hpath hfree hlink hempty hsame hfresh (fun a ha => (howned a).2 (hkeep a ha)) ((howned b).2 hb)
  · rw [hwalk (by rw [List.length_append, List.length_singleton]; omega), if_pos rfl]
  · intro q j hq
    by_cases hnew : q = path ++ [i]
    · have hnone : walk link (P.readEntry s) e.pml4 q = none := by
        rw [hnew, walk_concat, hpath]
        exact hfree
      rw [leaf, look, hwalk (Nat.le_of_eq hq), if_pos hnew, Option.map_some, hzero, leaf, look, hnone]
      rfl
    · rw [leaf, hlook q j hq hnew, leaf]
  · intro hshort q j hq
    refine hlook q j hq fun h => ?_
    rw [h, List.length_append, List.length_singleton] at hq
    omega

theorem alloc_failed (hinv : Inv C e s) {err : HyperError} (halloc : P.allocZeroed s = (.error err, s')) :
    Inv C e s' ∧ ∀ q j, q.length = 3 → look P e s' q j = look P e s q j := by
  have hsame := C.alloc_same hinv.valid halloc
  obtain ⟨htree, hwalk⟩ := hinv.tree.congr hsame (C.alloc_owned hinv.valid halloc)
  refine ⟨⟨C.alloc_valid hinv.valid halloc, htree⟩, fun q j hq => ?_⟩
  rw [look, hwalk q (Nat.le_of_eq hq), look]
  exact Option.map_congr fun u hu => hsame u (hinv.tree.owned (Nat.le_of_eq hq) hu) j

theorem descend_spec (done path : List Index) {s s' : σ} {t : PhysAddr} {r : HyperResult PhysAddr}
    (hinv : Inv C e s) (hdone : walk link (P.readEntry s) e.pml4 done = some t) (hlen : done.length + path.length = 3)
    (h : descend P s t path = (r, s')) :
    Inv C e s' ∧ (∀ q j, q.length = 3 → leaf P e s' q j = leaf P e s q j) ∧
      (∀ t', r = .ok t' → walk link (P.readEntry s') e.pml4 (done ++ path) = some t') ∧
      (∀ err, r = .error err → ∀ q j, q.length = 3 → look P e s' q j = look P e s q j) := by
  induction path generalizing s t done with
  | nil =>
    cases h
    refine ⟨hinv, fun _ _ _ => rfl, fun t' ht' => ?_, fun err herr => by cases herr⟩
    cases ht'
    rw [List.append_nil, hdone]
  | cons i path ih =>
    rw [List.length_cons] at hlen
    rw [descend] at h
    split at h
    · rename_i hpresent
      have hnext : walk link (P.readEntry s) e.pml4 (done ++ [i]) = some (entryAddr (P.readEntry s t i)) := by
        rw [walk_concat, hdone]
        exact if_pos hpresent
      have := ih (done ++ [i]) hinv hnext (by rw [List.length_append, List.length_singleton]; omega) h
      rwa [List.append_assoc, List.singleton_append] at this
    · rename_i habsent
      split at h
      · rename_i err s₁ halloc
        cases h
        obtain ⟨hinv', hlook⟩ := alloc_failed hinv halloc
        refine ⟨hinv', fun q j hq => ?_, (fun t' ht' => by cases ht'), fun _ _ => hlook⟩
        rw [leaf, hlook q j hq, leaf]
      · rename_i newTable s₁ halloc
        obtain ⟨hinv', hnext, hleaf, hlook⟩ := link_step hinv (by omega) hdone habsent halloc rfl
        obtain ⟨hinv'', hleaf', hok, herr⟩ := ih (done ++ [i]) hinv' hnext
          (by rw [List.length_append, List.length_singleton]; omega) h
        rw [List.append_assoc, List.singleton_append] at hok
        refine ⟨hinv'', fun q j hq => (hleaf' q j hq).trans (hleaf q j hq), hok, fun err hr q j hq => ?_⟩
        -- With no level left the loop is over, so an error came from further down.
        have hshort : done.length + 1 < 3 := by
          cases path with
          | nil =>
            cases h
            cases hr
          | cons j path =>
            rw [List.length_cons] at hlen
            omega
        exact (herr err hr q j hq).trans (hlook hshort q j hq)

/-! ## One mapping -/

/-- The host page that a leaf leads to: the one that was asked for, and the flags in its address field. -/
theorem leafEntry_addr {hpa : PhysAddr} (h : hpa.addr % pageSize = 0) (flags : EptFlags) :
    leafEntry hpa flags &&& addrMask = hpa.addr ||| (flags.bits &&& addrMask) := by
  rw [leafEntry, Nat.and_or_distrib_right, Nat.and_assoc, Nat.and_self, addrMask_of_aligned h]

theorem EptFlags.Declared.addr {flags : EptFlags} (h : flags.Declared) : flags.bits &&& addrMask = 0 := by
  rw [← h, Nat.and_assoc]
  exact Nat.and_zero _

/-- **The flags that have a name fit every host page.** -/
theorem EptFlags.Declared.fits {flags : EptFlags} (h : flags.Declared) (gpa hpa : PhysAddr) :
    (MapCall.mk gpa hpa flags).Fits := by
  rw [MapCall.Fits, h.addr, Nat.or_zero]

theorem leafEntry_access {hpa : PhysAddr} (h : hpa.addr % pageSize = 0) (flags : EptFlags) :
    leafEntry hpa flags &&& 0b111 = flags.bits &&& 0b111 := by
  rw [leafEntry, addrMask_of_aligned h, access_flags _ (access_aligned h)]

theorem leafEntry_lt (hpa : PhysAddr) (flags : EptFlags) : leafEntry hpa flags < 2 ^ 64 :=
  Nat.or_lt_two_pow (Nat.lt_of_le_of_lt Nat.and_le_right (by decide)) flags.lt

/-- A mapping that succeeds sets the leaf entry of its page, and one that fails sets nothing. -/
theorem map4k_spec (hinv : Inv C e s) {gpa hpa : PhysAddr} {flags : EptFlags} {r : HyperResult Unit}
    (h : e.map4k P s gpa hpa flags = (r, s')) :
    Inv C e s' ∧
      (r = .ok () → hpa.addr % pageSize = 0 ∧ ∀ q j, q.length = 3 →
        leaf P e s' q j = if q = tablePath gpa ∧ j = leafIndex gpa then some (leafEntry hpa flags) else leaf P e s q j) ∧
      (∀ err, r = .error err → ∀ q j, q.length = 3 → look P e s' q j = look P e s q j) := by
  unfold map4k at h
  split at h
  · cases h
    exact ⟨hinv, (fun hr => by cases hr), fun _ _ _ _ _ => rfl⟩
  rename_i haligned
  split at h
  · cases h
    exact ⟨hinv, (fun hr => by cases hr), fun _ _ _ _ _ => rfl⟩
  rename_i haccess
  have hhpa : hpa.addr % pageSize = 0 := by
    rw [← and_offset]
    exact Decidable.not_not.1 fun hne => haligned (.inr hne)
  split at h
  · rename_i err s₁ hdescend
    cases h
    obtain ⟨hinv', -, -, herr⟩ := descend_spec [] (tablePath gpa) hinv rfl rfl hdescend
    exact ⟨hinv', (fun hr => by cases hr), fun _ _ => herr err rfl⟩
  · rename_i table s₁ hdescend
    cases h
    obtain ⟨hinv', hleaf, hok, -⟩ := descend_spec [] (tablePath gpa) hinv rfl rfl hdescend
    have hpath := hok table rfl
    rw [List.nil_append] at hpath
    have hlen : (tablePath gpa).length = 3 := rfl
    have howned := hinv'.tree.owned (Nat.le_of_eq hlen) hpath
    have hv := leafEntry_lt hpa flags
    have hsame := C.write_other hinv'.valid howned (leafIndex gpa) _ hv
    obtain ⟨htree, hwalk⟩ := hinv'.tree.write hlen hpath hsame
    have hown := C.write_owned hinv'.valid howned (leafIndex gpa) _ hv
    refine ⟨⟨C.write_valid hinv'.valid howned _ _ hv, ?_⟩, fun _ => ⟨hhpa, fun q j hq => ?_⟩, fun err hr => by cases hr⟩
    · exact (htree.congr (fun _ _ _ => rfl) fun a ha => (hown a).2 ha).1
    · rw [leaf, look, hwalk q (Nat.le_of_eq hq)]
      split
      · rename_i hpage
        obtain ⟨rfl, rfl⟩ := hpage
        rw [hpath, Option.map_some, C.write_self hinv'.valid howned _ _ hv]
        refine Option.filter_some_pos ?_
        rw [decide_eq_true_iff, entryIsPresent, leafEntry_access hhpa]
        exact haccess
      · rename_i hpage
        rw [← hleaf q j hq, leaf, look]
        refine congrArg _ (Option.map_congr fun u hu => hsame u (hinv'.tree.owned (Nat.le_of_eq hq) hu) j fun heq => ?_)
        obtain ⟨rfl, rfl⟩ := Prod.mk.inj heq
        exact hpage ⟨hinv'.tree.unique (Nat.le_of_eq hq) (Nat.le_of_eq hlen) hu hpath, rfl⟩

/-! ## Runs -/

theorem index_val (a k : Nat) : (index (a >>> k)).val = a / 2 ^ k % 512 := by
  rw [index, Nat.shiftRight_eq_div_pow]
  exact and_low _ 9

/-- The four indices of an address are its page below bit 48. -/
theorem same_slot_iff {a b : PhysAddr} :
    (tablePath a = tablePath b ∧ leafIndex a = leafIndex b) ↔
      a.addr / pageSize % 2 ^ 36 = b.addr / pageSize % 2 ^ 36 := by
  have hindices : (tablePath a = tablePath b ∧ leafIndex a = leafIndex b) ↔
      ∀ k ∈ [12, 21, 30, 39], index (a.addr >>> k) = index (b.addr >>> k) := by
    simp only [tablePath, leafIndex, eptIndices, List.tail_cons, List.head_cons, List.reverse_cons, List.reverse_nil,
      List.nil_append, List.cons_append, List.cons.injEq, and_true, List.forall_mem_cons, List.not_mem_nil, false_implies,
      implies_true]
    tauto
  rw [hindices]
  simp only [Fin.ext_iff, index_val, pageSize, List.forall_mem_cons, List.not_mem_nil, false_implies, implies_true, and_true]
  omega

/-- Below `2^48` the four indices of an address are its page. -/
theorem same_page_iff {a b : PhysAddr} (ha : a.addr < 2 ^ 48) (hb : b.addr < 2 ^ 48) :
    (tablePath a = tablePath b ∧ leafIndex a = leafIndex b) ↔ a.addr / pageSize = b.addr / pageSize := by
  rw [same_slot_iff, pageSize]
  omega

theorem lastCall_concat (results : List (MapCall × HyperResult Unit)) (c : MapCall) (r : HyperResult Unit) (page : Nat) :
    lastCall (results ++ [(c, r)]) page =
      if r = .ok () ∧ c.gpa.addr / pageSize = page then some c else lastCall results page := by
  rw [lastCall, List.filter_append]
  split
  · rename_i h
    rw [List.filter_cons, if_pos (decide_eq_true h), List.filter_nil, List.getLast?_concat]
    rfl
  · rename_i h
    rw [List.filter_cons, if_neg fun hc => h (of_decide_eq_true hc), List.filter_nil, List.append_nil, lastCall]

theorem lastCall_mem {results : List (MapCall × HyperResult Unit)} {page : Nat} {c : MapCall}
    (h : lastCall results page = some c) : (c, .ok ()) ∈ results := by
  obtain ⟨⟨c, r⟩, hlast, rfl⟩ := Option.map_eq_some_iff.1 h
  obtain ⟨hmem, hkept⟩ := List.mem_filter.1 (List.mem_of_getLast? hlast)
  obtain ⟨rfl, -⟩ := of_decide_eq_true hkept
  exact hmem

/-- The tables against the history of the calls. -/
structure Agrees (C : P.Contract) (e : Ept) (results : List (MapCall × HyperResult Unit)) (s : σ) : Prop where
  inv : Inv C e s
  mapped : ∀ gpa : PhysAddr, gpa.addr < 2 ^ 48 →
    leaf P e s (tablePath gpa) (leafIndex gpa) =
      (lastCall results (gpa.addr / pageSize)).map fun c => leafEntry c.hpa c.flags
  recorded : ∀ page c, lastCall results page = some c →
    c.gpa.addr < 2 ^ 48 ∧ c.gpa.addr / pageSize = page ∧ c.hpa.addr % pageSize = 0

theorem Agrees.step {results : List (MapCall × HyperResult Unit)} (hagrees : Agrees C e results s) {c : MapCall}
    (hc : c.gpa.addr < 2 ^ 48) {r : HyperResult Unit} (h : e.map4k P s c.gpa c.hpa c.flags = (r, s')) :
    Agrees C e (results ++ [(c, r)]) s' := by
  obtain ⟨hinv, hok, herr⟩ := map4k_spec hagrees.inv h
  cases r with
  | ok u =>
    obtain ⟨hhpa, hleaf⟩ := hok rfl
    refine ⟨hinv, fun gpa hgpa => ?_, fun page c' hlast => ?_⟩
    · rw [hleaf _ _ rfl, lastCall_concat]
      have hiff := same_page_iff hgpa hc
      by_cases hpage : gpa.addr / pageSize = c.gpa.addr / pageSize
      · rw [if_pos (hiff.2 hpage), if_pos ⟨rfl, hpage.symm⟩, Option.map_some]
      · rw [if_neg fun h => hpage (hiff.1 h), if_neg fun h => hpage h.2.symm, hagrees.mapped gpa hgpa]
    · rw [lastCall_concat] at hlast
      split at hlast
      · rename_i hpage
        obtain rfl := Option.some.inj hlast
        exact ⟨hc, hpage.2, hhpa⟩
      · exact hagrees.recorded page c' hlast
  | error err =>
    have hlast : ∀ page, lastCall (results ++ [(c, .error err)]) page = lastCall results page := by
      intro page
      rw [lastCall_concat, if_neg fun h => by cases h.1]
    refine ⟨hinv, fun gpa hgpa => ?_, fun page c' h => hagrees.recorded page c' (hlast page ▸ h)⟩
    rw [hlast, ← hagrees.mapped gpa hgpa, leaf, herr err rfl _ _ rfl, leaf]

theorem Agrees.run (calls : List MapCall) {results : List (MapCall × HyperResult Unit)} {s : σ} (hagrees : Agrees C e results s)
    (hcalls : ∀ c ∈ calls, c.gpa.addr < 2 ^ 48) :
    Agrees C e (results ++ (e.mapAll P s calls).1) (e.mapAll P s calls).2 := by
  induction calls generalizing results s with
  | nil =>
    rw [mapAll, List.append_nil]
    exact hagrees
  | cons c calls ih =>
    obtain ⟨hc, hcalls⟩ := List.forall_mem_cons.1 hcalls
    have hnext := ih (hagrees.step hc rfl) hcalls
    rwa [List.append_assoc, List.singleton_append] at hnext

/-- What `translate` says, by the leaf entry. -/
theorem translate_leaf (e : Ept) (s : σ) (gpa : PhysAddr) :
    match leaf P e s (tablePath gpa) (leafIndex gpa) with
    | some v => e.translate P s gpa = .ok (leafAddr v gpa)
    | none => ∃ msg, e.translate P s gpa = .error (.hardware msg) := by
  rw [translate_eq, leaf]
  cases look P e s (tablePath gpa) (leafIndex gpa) with
  | none => exact ⟨_, rfl⟩
  | some v =>
    by_cases hv : v &&& 0b111 = 0
    · rw [Option.filter_some, if_neg fun h : decide (entryIsPresent v) = true => of_decide_eq_true h hv]
      exact ⟨_, if_pos hv⟩
    · rw [Option.filter_some, if_pos (decide_eq_true hv : decide (entryIsPresent v) = true)]
      exact if_neg hv

theorem leafAddr_eq (v : Nat) (gpa : PhysAddr) : (leafAddr v gpa).addr = (v &&& addrMask) + gpa.addr % pageSize := by
  have hoff : gpa.addr % pageSize < 2 ^ 12 := Nat.mod_lt _ (by decide)
  change v &&& addrMask ||| gpa.addr &&& 0xFFF = _
  rw [and_addrMask, and_offset]
  exact (Nat.two_pow_add_eq_or_of_lt hoff _).symm

/-- What `translate` says after a history, whatever the flags were. -/
theorem Agrees.translate {results : List (MapCall × HyperResult Unit)} (hagrees : Agrees C e results s) {gpa : PhysAddr}
    (hgpa : gpa.addr < 2 ^ 48) :
    match lastCall results (gpa.addr / pageSize) with
    | some c => ∃ a, e.translate P s gpa = .ok a ∧
        a.addr = (c.hpa.addr ||| (c.flags.bits &&& addrMask)) + gpa.addr % pageSize
    | none => ∃ msg, e.translate P s gpa = .error (.hardware msg) := by
  have hmapped := hagrees.mapped gpa hgpa
  have htranslate := translate_leaf (P := P) e s gpa
  split
  · rename_i c hlast
    rw [hlast, Option.map_some] at hmapped
    rw [hmapped] at htranslate
    obtain ⟨-, -, haligned⟩ := hagrees.recorded _ c hlast
    exact ⟨_, htranslate, by rw [leafAddr_eq, leafEntry_addr haligned]⟩
  · rename_i hlast
    rw [hlast, Option.map_none] at hmapped
    rwa [hmapped] at htranslate

end Ept

open Ept in
/-- **A translation is the last mapping of its page**, after any sequence of calls, exactly if the last calls' flags leave
the address field alone; and a call that fails changes none. -/
theorem ept_translates {σ : Type} {P : FrameProvider σ} (C : P.Contract) {s s' : σ} (hs : C.valid s) {e : Ept}
    (hnew : Ept.new P s = (.ok e, s')) {calls : List MapCall} (hcalls : ∀ c ∈ calls, c.gpa.addr < 2 ^ 48) :
    ((∀ gpa : PhysAddr, gpa.addr < 2 ^ 48 →
      match lastMapped (e.mapAll P s' calls).1 (gpa.addr / pageSize) with
      | some hpa => ∃ a, e.translate P (e.mapAll P s' calls).2 gpa = .ok a ∧ a.addr = hpa.addr + gpa.addr % pageSize
      | none => ∃ msg, e.translate P (e.mapAll P s' calls).2 gpa = .error (.hardware msg)) ↔
      ∀ page c, lastCall (e.mapAll P s' calls).1 page = some c → c.Fits) ∧
    ∀ (c : MapCall) err s'', e.map4k P (e.mapAll P s' calls).2 c.gpa c.hpa c.flags = (.error err, s'') →
      ∀ gpa, e.translate P s'' gpa = e.translate P (e.mapAll P s' calls).2 gpa := by
  obtain ⟨hinv, hempty⟩ := new_inv hs hnew
  have hstart : Agrees C e [] s' := by
    refine ⟨hinv, fun gpa _ => ?_, fun page c h => by cases h⟩
    rw [hempty _ _ rfl]
    rfl
  have hend := hstart.run calls hcalls
  rw [List.nil_append] at hend
  refine ⟨⟨fun hall page c hlast => ?_, fun hfits gpa hgpa => ?_⟩, fun c err s'' hmap gpa => ?_⟩
  · obtain ⟨hc, rfl, -⟩ := hend.recorded page c hlast
    have hclaim := hall c.gpa hc
    have htranslate := hend.translate hc
    rw [lastMapped, hlast] at hclaim
    rw [hlast] at htranslate
    obtain ⟨a, ha, haddr⟩ := hclaim
    obtain ⟨a', ha', haddr'⟩ := htranslate
    obtain rfl := Except.ok.inj (ha.symm.trans ha')
    exact Nat.add_right_cancel (haddr'.symm.trans haddr)
  · have htranslate := hend.translate hgpa
    rw [lastMapped]
    split at htranslate
    · rename_i c hlast
      rw [hlast]
      rwa [hfits _ c hlast] at htranslate
    · rename_i hlast
      rw [hlast]
      exact htranslate
  · obtain ⟨-, -, herr⟩ := map4k_spec hend.inv hmap
    rw [translate_eq, herr err rfl _ _ rfl, translate_eq]

/-! ## The frame pool -/

namespace Ept

theorem allocZeroed_state (s : KernelFrames) : (kernelFrames.allocZeroed s).2 = { s with next := s.next + pageSize } := by
  unfold kernelFrames
  dsimp only
  split <;> rfl

theorem allocZeroed_ok {s s' : KernelFrames} {a : PhysAddr} (h : kernelFrames.allocZeroed s = (.ok a, s')) :
    a.addr = s.base.addr + s.next ∧ s.next + pageSize ≤ poolPages * pageSize := by
  unfold kernelFrames at h
  dsimp only at h
  split at h
  · cases (Prod.mk.inj h).1
  · rename_i hroom
    obtain rfl := Except.ok.inj (Prod.mk.inj h).1
    exact ⟨rfl, Nat.not_lt.1 hroom⟩

/-- The pool meets the contract as long as what it has not handed out is zero. -/
def kernelContract : kernelFrames.Contract where
  valid s := s.next % pageSize = 0 ∧ ∀ a : PhysAddr, s.base.addr + s.next ≤ a.addr → ∀ i, s.mem a i = 0
  owned s a := a.addr < s.base.addr + s.next
  alloc_valid {s r s'} hs h := by
    have hstate := allocZeroed_state s
    rw [h] at hstate
    subst hstate
    refine ⟨?_, fun a ha => hs.2 a (Nat.le_trans (Nat.add_le_add_left (Nat.le_add_right _ _) _) ha)⟩
    have := hs.1
    simp only [pageSize] at *
    omega
  alloc_owned {s r s'} hs h a ha := by
    have hstate := allocZeroed_state s
    rw [h] at hstate
    subst hstate
    exact Nat.lt_of_lt_of_le ha (Nat.add_le_add_left (Nat.le_add_right _ _) _)
  alloc_same {s r s'} hs h a ha i := by
    have hstate := allocZeroed_state s
    rw [h] at hstate
    subst hstate
    rfl
  alloc_frame {s a s'} hs h := by
    have := s.aligned
    have := s.nonzero
    have := hs.1
    obtain ⟨haddr, -⟩ := allocZeroed_ok h
    simp only [pageSize] at *
    omega
  alloc_fresh {s a s'} hs h := by
    have hstate := allocZeroed_state s
    rw [h] at hstate
    subst hstate
    obtain ⟨haddr, -⟩ := allocZeroed_ok h
    simp only [pageSize] at *
    omega
  alloc_zero {s a s'} hs h i := by
    have hstate := allocZeroed_state s
    rw [h] at hstate
    subst hstate
    exact hs.2 a (Nat.le_of_eq (allocZeroed_ok h).1.symm) i
  write_valid {s a} hs ha i v _ := by
    refine ⟨hs.1, fun b hb j => ?_⟩
    rw [← hs.2 b hb j]
    refine if_neg fun heq : (b, j) = (a, i) => ?_
    rw [(Prod.mk.inj heq).1] at hb
    exact Nat.not_le.2 ha hb
  write_owned {s a} hs ha i v _ b := Iff.rfl
  write_self {s a} hs ha i v _ := if_pos rfl
  write_other {s a} hs ha i v _ b hb j hne := if_neg hne

def freshPool : KernelFrames where
  base := ⟨0x100000, by decide⟩
  next := 0
  mem := fun _ _ => 0
  aligned := by decide
  nonzero := by decide
  fits := by decide

def oneCall : MapCall := ⟨⟨0x1000, by decide⟩, ⟨0x5000, by decide⟩, ⟨0b111, by decide⟩⟩

/-- The same page again, to another host page. -/
def remapCall : MapCall := { oneCall with hpa := ⟨0x7000, by decide⟩ }

/-- A page under another table of the second level. -/
def farCall : MapCall := { oneCall with gpa := ⟨0x40000000, by decide⟩ }

/-- The pool with four frames left. -/
def lastFrames : KernelFrames := { freshPool with next := 0xFFC000 }

def lastEpt : Ept := ⟨⟨0x10FC000, by decide⟩⟩

/-- The state after a page was mapped, a second table could not be had, and the page was mapped again. -/
def afterRemap : KernelFrames :=
  (lastEpt.mapAll kernelFrames { lastFrames with next := 0xFFD000 } [oneCall, farCall, remapCall]).2

/-- A page is mapped twice with a call in between that runs out of frames: the second mapping is the one that is read, and
the failing call, made again, leaves it. -/
theorem pool_translates :
    (∃ a, lastEpt.translate kernelFrames afterRemap ⟨0x1234, by decide⟩ = .ok a ∧ a.addr = 0x7234) ∧
    ∃ err s, lastEpt.map4k kernelFrames afterRemap farCall.gpa farCall.hpa farCall.flags = (.error err, s) ∧
      ∀ gpa, lastEpt.translate kernelFrames s gpa = lastEpt.translate kernelFrames afterRemap gpa := by
  have hnew : Ept.new kernelFrames lastFrames = (.ok lastEpt, { lastFrames with next := 0xFFD000 }) := rfl
  have hvalid : kernelContract.valid lastFrames := ⟨by decide, fun _ _ _ => rfl⟩
  have h := ept_translates kernelContract hvalid hnew (by decide : ∀ c ∈ [oneCall, farCall, remapCall], c.gpa.addr < 2 ^ 48)
  have hresults : (lastEpt.mapAll kernelFrames { lastFrames with next := 0xFFD000 } [oneCall, farCall, remapCall]).1 =
      [(oneCall, .ok ()), (farCall, .error (.exhausted "frame pool")), (remapCall, .ok ())] := rfl
  have hfits : ∀ page c, lastCall (lastEpt.mapAll kernelFrames { lastFrames with next := 0xFFD000 }
      [oneCall, farCall, remapCall]).1 page = some c → c.Fits := by
    intro page c hlast
    have hmem := lastCall_mem hlast
    rw [hresults] at hmem
    have hflags : c.flags = oneCall.flags := by
      simp only [List.mem_cons, Prod.mk.injEq, List.not_mem_nil, or_false, reduceCtorEq, and_false, false_or] at hmem
      obtain ⟨rfl, -⟩ | ⟨rfl, -⟩ := hmem
      · rfl
      · rfl
    have hdeclared : c.flags.Declared := by
      rw [hflags]
      decide
    exact hdeclared.fits c.gpa c.hpa
  exact ⟨h.1.2 hfits ⟨0x1234, by decide⟩ (by decide), _, _, rfl, h.2 farCall _ _ rfl⟩

/-- A flag in the address field, which has no name. -/
def strayCall : MapCall := { oneCall with hpa := ⟨0x8000, by decide⟩, flags := ⟨0x1001, by decide⟩ }

/-- **A flag without a name moves the page**: the mapping is accepted, and leads to the frame after the one that was asked
for. -/
theorem stray_flag_moves_page : ∃ e s, Ept.new kernelFrames freshPool = (.ok e, s) ∧
    lastMapped (e.mapAll kernelFrames s [strayCall]).1 1 = some ⟨0x8000, by decide⟩ ∧
    e.translate kernelFrames (e.mapAll kernelFrames s [strayCall]).2 ⟨0x1000, by decide⟩ = .ok ⟨0x9000, by decide⟩ :=
  ⟨⟨freshPool.base⟩, { freshPool with next := 0x1000 }, rfl, rfl, rfl⟩

end Ept

end Celium
