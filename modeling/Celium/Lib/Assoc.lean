import Mathlib.Algebra.GroupWithZero.Nat
import Mathlib.Data.List.AList
import Mathlib.Data.List.Sort
/-!
# Assoc — finite maps as association lists, read by lookup

Mathlib's `AList` with values of one type: what a lookup finds after an insert or an erase, and which values and keys
the entries hold.
-/
namespace Assoc

variable {κ ν : Type}

/-- The values in the order of their keys, as an ordered map lists them. -/
def sorted (le : κ → κ → Prop) [DecidableRel le] (m : AList (fun _ : κ => ν)) : List ν :=
  (m.entries.insertionSort (fun a b => le a.1 b.1)).map (·.2)

/-- Every value rewritten in place, as a loop over `iter_mut` or `values_mut` does. -/
def mapVals (f : κ → ν → ν) (m : AList (fun _ : κ => ν)) : AList (fun _ : κ => ν) where
  entries := m.entries.map (fun e => ⟨e.1, f e.1 e.2⟩)
  nodupKeys := by
    have h := m.nodupKeys
    rw [List.NodupKeys, List.keys] at h ⊢
    rw [List.map_map]
    exact h

/-- The entries whose key passes the test. -/
def retain (p : κ → Bool) (m : AList (fun _ : κ => ν)) : AList (fun _ : κ => ν) where
  entries := m.entries.filter (fun e => p e.1)
  nodupKeys := m.nodupKeys.sublist List.filter_sublist

theorem mem_sorted (le : κ → κ → Prop) [DecidableRel le] (m : AList (fun _ : κ => ν)) (v : ν) :
    v ∈ sorted le m ↔ v ∈ m.entries.map (·.2) := by
  have hperm : (m.entries.insertionSort (fun a b => le a.1 b.1)).Perm m.entries := List.perm_insertionSort _ _
  exact (hperm.map (·.2)).mem_iff

theorem nodup_entries (m : AList (fun _ : κ => ν)) : m.entries.Nodup :=
  List.Nodup.of_map Sigma.fst m.keys_nodup

variable [DecidableEq κ]

theorem lookup_mapVals (f : κ → ν → ν) (m : AList (fun _ : κ => ν)) (k : κ) :
    (mapVals f m).lookup k = (m.lookup k).map (f k) := by
  ext v
  rw [Option.map_eq_some_iff, ← Option.mem_def, AList.mem_lookup_iff]
  simp only [mapVals, List.mem_map]
  constructor
  · rintro ⟨⟨k', w⟩, hmem, heq⟩
    obtain ⟨rfl, hw⟩ := Sigma.mk.inj heq
    exact ⟨w, AList.mem_lookup_iff.2 hmem, eq_of_heq hw⟩
  · rintro ⟨w, hw, rfl⟩
    exact ⟨⟨k, w⟩, AList.mem_lookup_iff.1 hw, rfl⟩

theorem lookup_retain (p : κ → Bool) (m : AList (fun _ : κ => ν)) (k : κ) :
    (retain p m).lookup k = if p k then m.lookup k else none := by
  ext v
  rw [← Option.mem_def, AList.mem_lookup_iff]
  simp only [retain, List.mem_filter]
  by_cases hp : p k = true
  · rw [if_pos hp, ← Option.mem_def, AList.mem_lookup_iff]
    exact and_iff_left hp
  · rw [if_neg hp]
    simp [hp]

theorem lookup_insert_ite (m : AList (fun _ : κ => ν)) (a b : κ) (v : ν) :
    (m.insert a v).lookup b = if b = a then some v else m.lookup b := by
  split
  · rename_i h
    subst h
    exact AList.lookup_insert m
  · exact AList.lookup_insert_ne ‹_›

theorem lookup_erase_ite (m : AList (fun _ : κ => ν)) (a b : κ) :
    (m.erase a).lookup b = if b = a then none else m.lookup b := by
  split
  · rename_i h
    subst h
    exact AList.lookup_erase b m
  · exact AList.lookup_erase_ne ‹_›

theorem lookup_foldl_erase (ks : List κ) (m : AList (fun _ : κ => ν)) (k : κ) :
    (ks.foldl (fun m k => m.erase k) m).lookup k = if k ∈ ks then none else m.lookup k := by
  induction ks generalizing m with
  | nil => simp
  | cons a ks ih =>
    rw [List.foldl_cons, ih, lookup_erase_ite]
    by_cases hk : k ∈ ks
    · simp [hk]
    · by_cases ha : k = a
      · simp [ha]
      · simp [hk, ha]

/-- Erasing keys in another order leaves the same map. -/
theorem foldl_erase_perm {ks ks' : List κ} (h : ks.Perm ks') (m : AList (fun _ : κ => ν)) :
    ks.foldl (fun m k => m.erase k) m = ks'.foldl (fun m k => m.erase k) m :=
  h.foldl_eq' (fun a _ b _ m => AList.erase_erase a b m) m

/-- What the values count together, one of them erased. -/
theorem sum_erase (f : ν → ℕ) {m : AList (fun _ : κ => ν)} {k : κ} {v : ν} (h : m.lookup k = some v) :
    ((m.erase k).entries.map (fun e => f e.2)).sum + f v = (m.entries.map (fun e => f e.2)).sum := by
  have hmem : (⟨k, v⟩ : (_ : κ) × ν) ∈ m.entries := AList.mem_lookup_iff.1 h
  obtain ⟨w, l₁, l₂, -, hm, he⟩ := List.exists_of_kerase (List.mem_keys_of_mem hmem)
  have hw : v = w := by
    have : (⟨k, w⟩ : (_ : κ) × ν) ∈ m.entries := by simp [hm]
    exact Option.some.inj (h.symm.trans (AList.mem_lookup_iff.2 this))
  have herase : (m.erase k).entries = l₁ ++ l₂ := he
  rw [herase, hm, hw]
  simp only [List.map_append, List.map_cons, List.sum_append, List.sum_cons]
  omega

theorem sum_erase_le (f : ν → ℕ) (m : AList (fun _ : κ => ν)) (k : κ) :
    ((m.erase k).entries.map (fun e => f e.2)).sum ≤ (m.entries.map (fun e => f e.2)).sum := by
  cases h : m.lookup k with
  | some v => exact Nat.le.intro (sum_erase f h)
  | none =>
    have hkeys : k ∉ m.entries.keys := AList.lookup_eq_none.1 h
    exact (congrArg (fun l => (l.map (fun e => f e.2)).sum) (List.kerase_of_notMem_keys hkeys)).le

theorem sum_insert_le (f : ν → ℕ) (m : AList (fun _ : κ => ν)) (k : κ) (v : ν) :
    ((m.insert k v).entries.map (fun e => f e.2)).sum ≤ (m.entries.map (fun e => f e.2)).sum + f v := by
  have := sum_erase_le f m k
  rw [AList.entries_insert, List.map_cons, List.sum_cons]
  exact (Nat.add_comm _ _).trans_le (Nat.add_le_add_right this _)

theorem mem_values (m : AList (fun _ : κ => ν)) (v : ν) :
    v ∈ m.entries.map (·.2) ↔ ∃ k, m.lookup k = some v := by
  simp only [List.mem_map, Sigma.exists]
  constructor
  · rintro ⟨k, w, h, rfl⟩
    exact ⟨k, AList.mem_lookup_iff.2 h⟩
  · rintro ⟨k, h⟩
    exact ⟨k, v, AList.mem_lookup_iff.1 h, rfl⟩

theorem mem_sorted_iff (le : κ → κ → Prop) [DecidableRel le] (m : AList (fun _ : κ => ν)) (v : ν) :
    v ∈ sorted le m ↔ ∃ k, m.lookup k = some v :=
  (mem_sorted le m v).trans (mem_values m v)

theorem length_erase_le (m : AList (fun _ : κ => ν)) (k : κ) : (m.erase k).entries.length ≤ m.entries.length :=
  (List.kerase_sublist k m.entries).length_le

theorem length_insert_le (m : AList (fun _ : κ => ν)) (k : κ) (v : ν) :
    (m.insert k v).entries.length ≤ m.entries.length + 1 := by
  rw [AList.entries_insert, List.length_cons]
  exact Nat.succ_le_succ (length_erase_le m k)

section Sorted

variable {μ : Type} (le : κ → κ → Prop) [DecidableRel le]

theorem eq_of_mem_entries (m : AList (fun _ : κ => ν)) {a b : (_ : κ) × ν} (ha : a ∈ m.entries) (hb : b ∈ m.entries)
    (h : a.1 = b.1) : a = b := by
  obtain ⟨k, v⟩ := a
  obtain ⟨k', w⟩ := b
  obtain rfl : k = k' := h
  have hv : v = w := Option.some.inj ((AList.mem_lookup_iff.2 ha).symm.trans (AList.mem_lookup_iff.2 hb))
  rw [hv]

/-- **What an ordered map lists depends on its lookups only**, and a change of the values shows in the list. -/
theorem sorted_map [Std.Total le] [IsTrans κ le] (hanti : ∀ a b, le a b → le b a → a = b)
    {m : AList (fun _ : κ => ν)} {m' : AList (fun _ : κ => μ)} {f : ν → μ}
    (h : ∀ k, m'.lookup k = (m.lookup k).map f) : sorted le m' = (sorted le m).map f := by
  have htotal : Std.Total (fun a b : (_ : κ) × μ => le a.1 b.1) := ⟨fun a b => Std.Total.total (r := le) a.1 b.1⟩
  have htotal' : Std.Total (fun a b : (_ : κ) × ν => le a.1 b.1) := ⟨fun a b => Std.Total.total (r := le) a.1 b.1⟩
  have htrans : IsTrans ((_ : κ) × μ) (fun a b => le a.1 b.1) := ⟨fun _ _ _ h h' => IsTrans.trans (r := le) _ _ _ h h'⟩
  have htrans' : IsTrans ((_ : κ) × ν) (fun a b => le a.1 b.1) := ⟨fun _ _ _ h h' => IsTrans.trans (r := le) _ _ _ h h'⟩
  let g : (_ : κ) × ν → (_ : κ) × μ := fun e => ⟨e.1, f e.2⟩
  have hinj : ∀ a ∈ m.entries, ∀ b ∈ m.entries, g a = g b → a = b :=
    fun a ha b hb hab => eq_of_mem_entries m ha hb (congrArg (fun e => e.1) hab : (g a).1 = (g b).1)
  have hentries : m'.entries.Perm (m.entries.map g) := by
    refine (List.perm_ext_iff_of_nodup (nodup_entries m') ((List.nodup_map_iff_inj_on (nodup_entries m)).2 hinj)).2 ?_
    rintro ⟨k, w⟩
    rw [← AList.mem_lookup_iff, h k, Option.mem_def, Option.map_eq_some_iff, List.mem_map]
    constructor
    · rintro ⟨v, hv, rfl⟩
      exact ⟨⟨k, v⟩, AList.mem_lookup_iff.1 hv, rfl⟩
    · rintro ⟨⟨k', v⟩, hv, heq⟩
      obtain ⟨rfl, hw⟩ := Sigma.mk.inj heq
      exact ⟨v, AList.mem_lookup_iff.2 hv, eq_of_heq hw⟩
  have hsort : m'.entries.insertionSort (fun a b => le a.1 b.1) =
      (m.entries.insertionSort (fun a b => le a.1 b.1)).map g := by
    have hsorted := List.pairwise_insertionSort (fun a b : (_ : κ) × μ => le a.1 b.1) m'.entries
    refine List.Perm.eq_of_pairwise ?_ hsorted ?_ ?_
    · intro a b ha hb hab hba
      have hb' : b ∈ m'.entries := by
        obtain ⟨e, he, rfl⟩ := List.mem_map.1 hb
        exact hentries.mem_iff.2 (List.mem_map_of_mem ((List.perm_insertionSort _ _).mem_iff.1 he))
      exact eq_of_mem_entries m' ((List.perm_insertionSort _ _).mem_iff.1 ha) hb' (hanti a.1 b.1 hab hba)
    · exact List.pairwise_map.2 (List.pairwise_insertionSort (fun a b : (_ : κ) × ν => le a.1 b.1) m.entries)
    · exact (List.perm_insertionSort _ _).trans (hentries.trans ((List.perm_insertionSort _ _).map g).symm)
  rw [sorted, hsort, sorted, List.map_map, List.map_map]
  rfl

end Sorted

/-- Where every value carries its own key, the values have pairwise distinct keys. -/
theorem nodup_map_values {key : ν → κ} (m : AList (fun _ : κ => ν)) (h : ∀ k v, m.lookup k = some v → key v = k) :
    ((m.entries.map (·.2)).map key).Nodup := by
  have : (m.entries.map (·.2)).map key = m.keys := by
    rw [List.map_map]
    refine List.map_congr_left fun e he => ?_
    exact h e.1 e.2 (AList.mem_lookup_iff.2 he)
  rw [this]
  exact m.keys_nodup

end Assoc
