import Celium.Lib.Lww
import Mathlib.Data.Set.Basic
/-!
# Gossip — owners write, everybody else merges

A table is replicated over many nodes.  Each key has one owner; the owner writes the rows under its own keys, with
stamps above all it wrote there before, and sends them about; every other node merges what reaches it by last writer
wins.  Rows that were sent may be lost, repeated, reordered and handed to anybody, and a node may lose its whole table.

Whatever happens, a row anywhere is one its owner wrote, two rows of one key and one stamp are one row, and a node that
has merged the newest row of a key keeps it until a newer one is written (`sound_apply`, `ordered_apply`,
`deliver_newest`, `keeps_newest`).
-/
namespace Gossip

set_option linter.unusedSectionVars false

variable {ι κ ν τ : Type} [DecidableEq ι] [DecidableEq κ] [LinearOrder τ]

/-- How rows are filed: who owns a key, and the key and the stamp of a row. -/
structure Scheme (ι κ ν τ : Type) where
  owner : κ → ι
  key : ν → κ
  stamp : ν → τ

/-- What every node holds, the rows ever sent, and the rows ever written by their owners. -/
structure World (ι κ ν : Type) where
  table : ι → κ → Option ν
  sent : Set ν
  written : Set ν

inductive Act (ι κ ν : Type) where
  | write (i : ι) (t : κ → Option ν)
  | send (i : ι) (rows : Set ν)
  | deliver (j : ι) (rows : List ν)
  | reset (i : ι)

/-- The world with another table at node `i`. -/
def World.put (w : World ι κ ν) (i : ι) (t : κ → Option ν) : World ι κ ν :=
  { w with table := fun j => if j = i then t else w.table j }

theorem World.put_self (w : World ι κ ν) (i : ι) (t : κ → Option ν) : (w.put i t).table i = t := if_pos rfl

theorem World.put_ne (w : World ι κ ν) {i j : ι} (h : j ≠ i) (t : κ → Option ν) : (w.put i t).table j = w.table j :=
  if_neg h

section

variable (S : Scheme ι κ ν τ)

/-- The rows `t` puts under the keys of `i`. -/
def ownRows (i : ι) (t : κ → Option ν) : Set ν := {v | ∃ k, S.owner k = i ∧ t k = some v}

def World.apply (w : World ι κ ν) : Act ι κ ν → World ι κ ν
  | .write i t =>
    { w.put i (fun k => if S.owner k = i then t k else w.table i k) with written := w.written ∪ ownRows S i t }
  | .send _ rows => { w with sent := w.sent ∪ rows }
  | .deliver j rows => w.put j (Lww.mergeAll S.stamp S.key (fun k => S.owner k = j) (w.table j) rows)
  | .reset i => w.put i (fun _ => none)

/-- What the nodes keep to: an owner files a row under its key and sends rows it holds, and what arrives was sent. -/
def Act.Fair (w : World ι κ ν) : Act ι κ ν → Prop
  | .write i t => ∀ k v, S.owner k = i → t k = some v → S.key v = k
  | .send i rows => rows ⊆ ownRows S i (w.table i)
  | .deliver _ rows => ∀ v ∈ rows, v ∈ w.sent
  | .reset _ => True

/-- A row an owner writes is the one it has or is stamped above all it ever wrote under the key. -/
def Act.Newer (w : World ι κ ν) : Act ι κ ν → Prop
  | .write i t => ∀ k v, S.owner k = i → t k = some v →
      w.table i k = some v ∨ ∀ u ∈ w.written, S.key u = k → S.stamp u < S.stamp v
  | _ => True

/-- No row written under the key of `v` is stamped above it. -/
def Newest (w : World ι κ ν) (v : ν) : Prop := v ∈ w.written ∧ ∀ u ∈ w.written, S.key u = S.key v → S.stamp u ≤ S.stamp v

/-- What holds however the nodes act. -/
structure Sound (w : World ι κ ν) : Prop where
  keyed : ∀ j k v, w.table j k = some v → S.key v = k
  held : ∀ j k v, w.table j k = some v → v ∈ w.written
  sent : ∀ v ∈ w.sent, v ∈ w.written

/-- What holds besides where owners stamp their rows in order. -/
structure Ordered (w : World ι κ ν) : Prop where
  agree : ∀ u ∈ w.written, ∀ v ∈ w.written, S.key u = S.key v → S.stamp u = S.stamp v → u = v
  own : ∀ k v, w.table (S.owner k) k = some v → Newest S w v

/-- Nothing was ever written. -/
def World.empty : World ι κ ν := ⟨fun _ _ => none, ∅, ∅⟩

end

variable {S : Scheme ι κ ν τ}

theorem sound_empty : Sound S (World.empty (ι := ι) (κ := κ) (ν := ν)) where
  keyed := fun _ _ _ h => by cases h
  held := fun _ _ _ h => by cases h
  sent := fun _ h => h.elim

theorem ordered_empty : Ordered S (World.empty (ι := ι) (κ := κ) (ν := ν)) where
  agree := fun _ h => h.elim
  own := fun _ _ h => by cases h

/-! ## One act -/

/-- A table after rows have arrived holds what it held or one of them. -/
theorem mergeAll_cases (closed : κ → Prop) [DecidablePred closed] (t : κ → Option ν) (rows : List ν) (k : κ) :
    Lww.mergeAll S.stamp S.key closed t rows k = t k ∨
      ∃ v ∈ rows, S.key v = k ∧ Lww.mergeAll S.stamp S.key closed t rows k = some v := by
  by_cases hk : closed k
  · exact .inl (Lww.mergeAll_closed hk t rows)
  · rw [Lww.mergeAll_apply hk]
    have hholds : Lww.Holds S.stamp (t k) (rows.filter (fun v => S.key v = k)) _ := Lww.holds_keepAll _ _
    rcases hholds with ⟨h, -⟩ | ⟨v, hv, h, -⟩
    · exact .inl h
    · obtain ⟨hmem, hkey⟩ := List.mem_filter.1 hv
      exact .inr ⟨v, hmem, of_decide_eq_true hkey, h⟩

theorem written_apply (w : World ι κ ν) (a : Act ι κ ν) : w.written ⊆ (w.apply S a).written := by
  cases a with
  | write i t => exact Set.subset_union_left
  | send i rows => exact subset_rfl
  | deliver j rows => exact subset_rfl
  | reset i => exact subset_rfl

theorem apply_write_self (w : World ι κ ν) (i : ι) (t : κ → Option ν) (k : κ) :
    (w.apply S (.write i t)).table i k = if S.owner k = i then t k else w.table i k :=
  congrFun (w.put_self i (fun k => if S.owner k = i then t k else w.table i k)) k

theorem apply_deliver_self (w : World ι κ ν) (j : ι) (rows : List ν) (k : κ) :
    (w.apply S (.deliver j rows)).table j k =
      Lww.mergeAll S.stamp S.key (fun k => S.owner k = j) (w.table j) rows k := congrFun (w.put_self j _) k

/-- The node an act is about; the tables of the others stay as they are. -/
def Act.node : Act ι κ ν → ι
  | .write i _ => i
  | .send i _ => i
  | .deliver j _ => j
  | .reset i => i

theorem apply_other (w : World ι κ ν) {a : Act ι κ ν} {j : ι} (h : j ≠ a.node) : (w.apply S a).table j = w.table j := by
  cases a with
  | send i rows => rfl
  | write i t => exact w.put_ne h _
  | deliver i rows => exact w.put_ne h _
  | reset i => exact w.put_ne h _

/-- What a table holds after an act: the row it held, one the owner wrote, or one that arrived from the owner. -/
theorem apply_table {w : World ι κ ν} {a : Act ι κ ν} {j : ι} {k : κ} {v : ν} (hv : (w.apply S a).table j k = some v) :
    w.table j k = some v ∨ (∃ t, a = .write j t ∧ S.owner k = j ∧ t k = some v) ∨
      ∃ rows, a = .deliver j rows ∧ v ∈ rows ∧ S.key v = k ∧ S.owner k ≠ j := by
  by_cases hj : j = a.node
  · cases a with
    | send i rows => exact .inl hv
    | write i t =>
      obtain rfl : j = i := hj
      rw [apply_write_self] at hv
      split at hv
      · exact .inr (.inl ⟨t, rfl, ‹_›, hv⟩)
      · exact .inl hv
    | reset i =>
      obtain rfl : j = i := hj
      have hnone : (w.apply S (.reset j)).table j k = none := congrFun (w.put_self j _) k
      rw [hnone] at hv
      cases hv
    | deliver i rows =>
      obtain rfl : j = i := hj
      rw [apply_deliver_self] at hv
      by_cases hk : S.owner k = j
      · rw [Lww.mergeAll_closed (k := k) hk] at hv
        exact .inl hv
      · rcases mergeAll_cases (S := S) (fun k => S.owner k = j) (w.table j) rows k with heq | ⟨u, hu, hkey, heq⟩
        · exact .inl (heq.symm.trans hv)
        · rw [heq] at hv
          obtain rfl := Option.some.inj hv
          exact .inr (.inr ⟨rows, rfl, hu, hkey, hk⟩)
  · rw [apply_other w hj] at hv
    exact .inl hv

/-- **However the nodes act, the world stays sound.** -/
theorem sound_apply {w : World ι κ ν} (h : Sound S w) {a : Act ι κ ν} (hf : a.Fair S w) : Sound S (w.apply S a) := by
  refine ⟨fun j k v hv => ?_, fun j k v hv => ?_, ?_⟩
  · rcases apply_table hv with hold | ⟨t, rfl, hk, hnew⟩ | ⟨rows, rfl, -, hkey, -⟩
    · exact h.keyed j k v hold
    · exact hf k v hk hnew
    · exact hkey
  · rcases apply_table hv with hold | ⟨t, rfl, hk, hnew⟩ | ⟨rows, rfl, hmem, -, -⟩
    · exact written_apply w a (h.held j k v hold)
    · exact .inr ⟨k, hk, hnew⟩
    · exact h.sent v (hf v hmem)
  · cases a with
    | write i t => exact fun v hv => .inl (h.sent v hv)
    | deliver j rows => exact h.sent
    | reset i => exact h.sent
    | send i rows =>
      rintro v (hv | hv)
      · exact h.sent v hv
      · obtain ⟨k, -, hk⟩ := hf hv
        exact h.held i k v hk

/-- A row just written is what was there or beats everything written under the key. -/
theorem write_fresh {w : World ι κ ν} (h : Sound S w) (ho : Ordered S w) {i : ι} {t : κ → Option ν}
    (hf : Act.Fair S w (.write i t)) (hn : Act.Newer S w (.write i t)) {v : ν} (hv : v ∈ ownRows S i t) {u : ν}
    (hu : u ∈ w.written) (hkey : S.key u = S.key v) : u = v ∨ (v ∈ w.written ∧ S.stamp u ≤ S.stamp v ∧
      (S.stamp u = S.stamp v → u = v)) ∨ S.stamp u < S.stamp v := by
  obtain ⟨k, hk, hv⟩ := hv
  have hvk : S.key v = k := hf k v hk hv
  rcases hn k v hk hv with hold | hlt
  · subst hk
    have hw := h.held _ k v hold
    exact .inr (.inl ⟨hw, (ho.own k v hold).2 u hu hkey, ho.agree u hu v hw hkey⟩)
  · exact .inr (.inr (hlt u hu (hkey.trans hvk)))

theorem ordered_write {w : World ι κ ν} (h : Sound S w) (ho : Ordered S w) {i : ι} {t : κ → Option ν}
    (hf : Act.Fair S w (.write i t)) (hn : Act.Newer S w (.write i t)) : Ordered S (w.apply S (.write i t)) := by
  -- two rows of one key written at once are one row
  have hsame : ∀ u ∈ ownRows S i t, ∀ v ∈ ownRows S i t, S.key u = S.key v → u = v := by
    rintro u ⟨k, hk, hu⟩ v ⟨k', hk', hv⟩ hkey
    have hkk : k = k' := by rw [← hf k u hk hu, hkey, hf k' v hk' hv]
    subst hkk
    exact Option.some.inj (hu.symm.trans hv)
  have hcross : ∀ u ∈ w.written, ∀ v ∈ ownRows S i t, S.key u = S.key v → S.stamp u = S.stamp v → u = v := by
    intro u hu v hv hkey hstamp
    rcases write_fresh h ho hf hn hv hu hkey with heq | ⟨-, -, heq⟩ | hlt
    · exact heq
    · exact heq hstamp
    · exact absurd hstamp (ne_of_lt hlt)
  refine ⟨?_, fun k v hv => ?_⟩
  · rintro u (hu | hu) v (hv | hv) hkey hstamp
    · exact ho.agree u hu v hv hkey hstamp
    · exact hcross u hu v hv hkey hstamp
    · exact (hcross v hv u hu hkey.symm hstamp.symm).symm
    · exact hsame u hu v hv hkey
  · have hnew : S.owner k = i → v ∈ ownRows S i t := by
      rintro rfl
      rw [apply_write_self, if_pos rfl] at hv
      exact ⟨k, rfl, hv⟩
    have hmem := (sound_apply h hf).held _ k v hv
    refine ⟨hmem, ?_⟩
    by_cases hk : S.owner k = i
    · rintro u (hu | hu) huk
      · rcases write_fresh h ho hf hn (hnew hk) hu huk with rfl | ⟨-, hle, -⟩ | hlt
        · exact le_rfl
        · exact hle
        · exact le_of_lt hlt
      · exact le_of_eq (congrArg S.stamp (hsame u hu v (hnew hk) huk))
    · have hold : w.table (S.owner k) k = some v := by
        rw [← hv]
        exact (congrFun (apply_other (S := S) w (a := .write i t) hk) k).symm
      rintro u (hu | ⟨k', hk', hu⟩) huk
      · exact (ho.own k v hold).2 u hu huk
      · have hkk : k' = k := by rw [← hf k' u hk' hu, huk, h.keyed _ k v hold]
        exact absurd (hkk ▸ hk') hk

/-- **Where owners stamp their rows in order, the world stays ordered.** -/
theorem ordered_apply {w : World ι κ ν} (h : Sound S w) (ho : Ordered S w) {a : Act ι κ ν} (hf : a.Fair S w)
    (hn : a.Newer S w) : Ordered S (w.apply S a) := by
  have hcarry : (∀ t i, a ≠ .write i t) → (w.apply S a).written = w.written → Ordered S (w.apply S a) := by
    intro hw heq
    refine ⟨?_, fun k v hv => ?_⟩
    · rw [heq]
      exact ho.agree
    · unfold Newest
      rw [heq]
      rcases apply_table hv with hold | ⟨t, rfl, -, -⟩ | ⟨rows, rfl, -, -, hne⟩
      · exact ho.own k v hold
      · exact absurd rfl (hw t _)
      · exact absurd rfl hne
  cases a with
  | write i t => exact ordered_write h ho hf hn
  | send i rows => exact hcarry (fun _ _ => nofun) rfl
  | deliver j rows => exact hcarry (fun _ _ => nofun) rfl
  | reset i => exact hcarry (fun _ _ => nofun) rfl

/-! ## The newest row of a key -/

/-- **A node that is handed the newest row of a key holds it.** -/
theorem deliver_newest {w : World ι κ ν} (h : Sound S w) (ho : Ordered S w) {j : ι} {rows : List ν}
    (hf : Act.Fair S w (.deliver j rows)) {v : ν} (hv : Newest S w v) (hmem : v ∈ rows) (hj : S.owner (S.key v) ≠ j) :
    (w.apply S (.deliver j rows)).table j (S.key v) = some v := by
  rw [apply_deliver_self, Lww.mergeAll_apply (k := S.key v) hj]
  have hin : v ∈ rows.filter (fun u => S.key u = S.key v) := List.mem_filter.2 ⟨hmem, by simp⟩
  have hholds : Lww.Holds S.stamp (w.table j (S.key v)) (rows.filter (fun u => S.key u = S.key v)) _ :=
    Lww.holds_keepAll _ _
  rcases hholds with ⟨hkeep, hnone⟩ | ⟨u, hu, hkeep, -, hmax⟩
  · rw [hkeep]
    cases hold : w.table j (S.key v) with
    | none =>
      rw [hold] at hnone
      exact absurd trivial (hnone v hin)
    | some o =>
      rw [hold] at hnone
      have hge : S.stamp v ≤ S.stamp o := not_lt.1 (hnone v hin)
      have hko : S.key o = S.key v := h.keyed j _ o hold
      have hwo := h.held j _ o hold
      exact congrArg some (ho.agree o hwo v hv.1 hko (le_antisymm (hv.2 o hwo hko) hge))
  · obtain ⟨humem, hkey⟩ := List.mem_filter.1 hu
    have hku : S.key u = S.key v := of_decide_eq_true hkey
    have hwu := h.sent u (hf u humem)
    rw [hkeep]
    exact congrArg some (ho.agree u hwu v hv.1 hku (le_antisymm (hv.2 u hwu hku) (hmax v hin)))

/-- **A node keeps the newest row of a key**, unless it loses its table. -/
theorem keeps_newest {w : World ι κ ν} (h : Sound S w) {a : Act ι κ ν} (hf : a.Fair S w) {j : ι} {v : ν}
    (hv : Newest S w v) (hj : S.owner (S.key v) ≠ j) (ha : a ≠ .reset j) (hold : w.table j (S.key v) = some v) :
    (w.apply S a).table j (S.key v) = some v := by
  by_cases hi : j = a.node
  · cases a with
    | send i rows => exact hold
    | write i t =>
      obtain rfl : j = i := hi
      rw [apply_write_self, if_neg hj]
      exact hold
    | reset i =>
      obtain rfl : j = i := hi
      exact absurd rfl ha
    | deliver i rows =>
      obtain rfl : j = i := hi
      rw [apply_deliver_self, Lww.mergeAll_apply (k := S.key v) hj, hold]
      have hholds : Lww.Holds S.stamp (some v) (rows.filter (fun u => S.key u = S.key v)) _ := Lww.holds_keepAll _ _
      rcases hholds with ⟨hkeep, -⟩ | ⟨u, hu, hkeep, hbeats, -⟩
      · exact hkeep
      · obtain ⟨humem, hkey⟩ := List.mem_filter.1 hu
        exact absurd hbeats (not_lt.2 (hv.2 u (h.sent u (hf u humem)) (of_decide_eq_true hkey)))
  · rw [apply_other w hi]
    exact hold

end Gossip
