import Celium.Lib.JsonBuffer
import Celium.Lib.JsonWrite
import Mathlib.Data.List.Dedup
/-!
# Serde — types and their derived JSON

A `Codec` writes the values of a type as JSON and reads them back.  Records are objects: a derived reader takes their
members by name in any order, ignores names it does not know, refuses a known name twice, and falls back on a default
where the field has one; it also takes an array, by position.  An internally tagged enum is the record of its variant
with the variant's name as one member more.  Round trips are a field of every codec, so that they compose.
-/
namespace Serde

open Json (Value Tame held named)

structure Codec (α : Type) where
  write : α → Value
  read : Value → Option α
  read_write : ∀ a, read (write a) = some a
  tame : ∀ a, Tame (write a)

namespace Codec

variable {α β : Type}

@[simp] theorem read_write_some (c : Codec α) (a : α) : c.read (c.write a) = some a := c.read_write a

/-- A newtype is written as what it wraps. -/
def wrap (c : Codec α) (mk : α → β) (get : β → α) (h : ∀ b, mk (get b) = b) : Codec β where
  write b := c.write (get b)
  read v := (c.read v).map mk
  read_write b := by rw [c.read_write, Option.map_some, h]
  tame b := c.tame (get b)

def text : Codec String where
  write s := .str s.toList
  read := Json.readText
  read_write s := by simp [Json.readText]
  tame _ := trivial

/-- A whole number of at most `max`, as a type that holds just those. -/
def number (max : Nat) (toNat : α → Nat) (ofNat : Nat → α) (hle : ∀ a, toNat a ≤ max) (h : ∀ a, ofNat (toNat a) = a) :
    Codec α where
  write a := .num (Nat.toDigits 10 (toNat a))
  read v := (Json.readNat max v).map ofNat
  read_write a := by
    have hread : Json.readNat max (.num (Nat.toDigits 10 (toNat a))) = some (toNat a) :=
      Json.readNat_value (hle a)
    rw [hread, Option.map_some, h]
  tame a := Json.decimal_toDigits _

def u8 : Codec UInt8 := number (2 ^ 8 - 1) UInt8.toNat UInt8.ofNat
  (fun a => Nat.le_sub_one_of_lt a.toNat_lt) (fun _ => UInt8.ofNat_toNat)

def u16 : Codec UInt16 := number (2 ^ 16 - 1) UInt16.toNat UInt16.ofNat
  (fun a => Nat.le_sub_one_of_lt a.toNat_lt) (fun _ => UInt16.ofNat_toNat)

def u32 : Codec UInt32 := number (2 ^ 32 - 1) UInt32.toNat UInt32.ofNat
  (fun a => Nat.le_sub_one_of_lt a.toNat_lt) (fun _ => UInt32.ofNat_toNat)

def u64 : Codec UInt64 := number (2 ^ 64 - 1) UInt64.toNat UInt64.ofNat
  (fun a => Nat.le_sub_one_of_lt a.toNat_lt) (fun _ => UInt64.ofNat_toNat)

def bool : Codec Bool where
  write b := .bool b
  read
    | .bool b => some b
    | _ => none
  read_write _ := rfl
  tame _ := trivial

/-- `None` is `null`. -/
def option (c : Codec α) (h : ∀ a, c.write a ≠ .null) : Codec (Option α) where
  write
    | none => .null
    | some a => c.write a
  read
    | .null => some none
    | v => (c.read v).map some
  read_write o := by
    cases o with
    | none => rfl
    | some a =>
      dsimp only
      split
      · rename_i heq
        exact absurd heq (h a)
      · rw [c.read_write, Option.map_some]
  tame o := by
    cases o with
    | none => trivial
    | some a => exact c.tame a

theorem mapM_write (c : Codec α) (as : List α) : (as.map c.write).mapM c.read = some as := by
  induction as with
  | nil => rfl
  | cons a as ih => simp [List.mapM_cons, ih]

def list (c : Codec α) : Codec (List α) where
  write as := .arr (as.map c.write)
  read
    | .arr vs => vs.mapM c.read
    | _ => none
  read_write as := c.mapM_write as
  tame as := by
    change Json.TameAll (as.map c.write)
    rw [Json.tameAll_iff]
    intro v hv
    obtain ⟨a, -, rfl⟩ := List.mem_map.1 hv
    exact c.tame a

/-- An array of just `n` elements. -/
def vector (c : Codec α) (n : Nat) : Codec (Vector α n) where
  write as := .arr (as.toList.map c.write)
  read v := do
    let as ← c.list.read v
    if h : as.length = n then pure ⟨as.toArray, by simpa using h⟩ else none
  read_write as := by
    have hread : c.list.read (.arr (as.toList.map c.write)) = some as.toList := c.mapM_write as.toList
    have hlen : as.toList.length = n := by simp
    simp only [hread, Option.bind_eq_bind, Option.bind_some, dif_pos hlen]
    rfl
  tame as := c.list.tame as.toList

/-- An enum of unit variants, by name; `{"name": null}` is read too. -/
def names (table : List (String × α)) (name : α → String) (h : ∀ a, table.lookup (name a) = some a) : Codec α where
  write a := .str (name a).toList
  read
    | .str s => table.lookup (String.ofList s)
    | .obj [(s, .null)] => table.lookup (String.ofList s)
    | _ => none
  read_write a := by simp [h]
  tame _ := trivial

/-- A value that is read by way of a tree, which may be too deep or hold a number that overflows. -/
def buffered (c : Codec α) (depth : Nat) (h : ∀ a, held (c.write a) depth = true) : Codec α where
  write := c.write
  read v := if held v depth then c.read v else none
  read_write a := by rw [if_pos (h a), c.read_write]
  tame := c.tame

theorem buffered_read {c : Codec α} {depth : Nat} {h : ∀ a, held (c.write a) depth = true} (v : Value) :
    (c.buffered depth h).read v = if held v depth then c.read v else none := rfl

/-! ## What is written can be kept -/

@[simp] theorem held_text (s : String) (n : Nat) : held (text.write s) n = true := rfl

@[simp] theorem held_bool (b : Bool) (n : Nat) : held (bool.write b) n = true := rfl

theorem held_number {max : Nat} {toNat : α → Nat} {ofNat : Nat → α} {hle : ∀ a, toNat a ≤ max}
    {h : ∀ a, ofNat (toNat a) = a} (hmax : max ≤ Fixed.u64Max) (a : α) (n : Nat) :
    held ((number max toNat ofNat hle h).write a) n = true := by
  change held (.num (Nat.toDigits 10 (toNat a))) n = true
  rw [held]
  exact Json.inRange_toDigits ((hle a).trans hmax)

@[simp] theorem held_u8 (a : UInt8) (n : Nat) : held (u8.write a) n = true := held_number (by decide) a n

@[simp] theorem held_u16 (a : UInt16) (n : Nat) : held (u16.write a) n = true := held_number (by decide) a n

@[simp] theorem held_u32 (a : UInt32) (n : Nat) : held (u32.write a) n = true := held_number (by decide) a n

@[simp] theorem held_u64 (a : UInt64) (n : Nat) : held (u64.write a) n = true := held_number (by decide) a n

@[simp] theorem held_option (c : Codec α) (h : ∀ a, c.write a ≠ .null) (o : Option α) (n : Nat) :
    held ((c.option h).write o) n = true ↔ ∀ a, o = some a → held (c.write a) n = true := by
  cases o with
  | none => exact iff_of_true rfl (fun _ ha => by cases ha)
  | some a => exact ⟨fun ha _ hb => Option.some.inj hb ▸ ha, fun hall => hall a rfl⟩

theorem held_map (c : Codec α) (as : List α) (n : Nat) :
    held (.arr (as.map c.write)) (n + 1) = true ↔ ∀ a ∈ as, held (c.write a) n = true := by
  rw [held, Json.heldAll_iff, List.forall_mem_map]

@[simp] theorem held_list (c : Codec α) (as : List α) (n : Nat) :
    held (c.list.write as) (n + 1) = true ↔ ∀ a ∈ as, held (c.write a) n = true := held_map c as n

@[simp] theorem held_vector (c : Codec α) {k : Nat} (as : Vector α k) (n : Nat) :
    held ((c.vector k).write as) (n + 1) = true ↔ ∀ a ∈ as.toList, held (c.write a) n = true := held_map c as.toList n

end Codec

/-! ## The fields of a record -/

/-- What a derived reader finds for a field: a value, no member of the name, or the end of an array. -/
inductive Slot where
  | here (v : Value)
  | missing
  | ended

/-- A field as it was written, or left out. -/
def Slot.of : Option Value → Slot
  | some v => .here v
  | none => .missing

/-- The members of a record: the fields that are written, in order. -/
def present : List String → List (Option Value) → List (List Char × Value)
  | n :: ns, some v :: vs => (n.toList, v) :: present ns vs
  | _ :: ns, none :: vs => present ns vs
  | _, _ => []

/-- The members of one name: none, one, or too many. -/
def Slot.ofNamed : List Value → Option Slot
  | [] => some .missing
  | [v] => some (.here v)
  | _ => none

/-- The fields of a record, out of an object by name or out of an array by position. -/
def fieldsOf (names : List String) : Value → Option (List Slot)
  | .obj ms => names.mapM (fun n => Slot.ofNamed (named n ms))
  | .arr vs =>
    if vs.length ≤ names.length then some (vs.map .here ++ List.replicate (names.length - vs.length) .ended) else none
  | _ => none

section

variable {α : Type}

/-- A field without a default. -/
def need (c : Codec α) : Slot → Option α
  | .here v => c.read v
  | _ => none

/-- A field of an optional type without a default: a member that is not there is none. -/
def needOption (c : Codec (Option α)) : Slot → Option (Option α)
  | .here v => c.read v
  | .missing => some none
  | .ended => none

/-- A field with a default. -/
def orElse (c : Codec α) (d : α) : Slot → Option α
  | .here v => c.read v
  | _ => some d

/-- An optional field that is left out where it is none. -/
def skipNone (c : Codec α) (o : Option α) : Option Value := o.map c.write

@[simp] theorem need_of (c : Codec α) (a : α) : need c (.of (some (c.write a))) = some a := c.read_write a

@[simp] theorem needOption_of (c : Codec (Option α)) (o : Option α) : needOption c (.of (some (c.write o))) = some o :=
  c.read_write o

@[simp] theorem orElse_of (c : Codec α) (d a : α) : orElse c d (.of (some (c.write a))) = some a := c.read_write a

@[simp] theorem orElse_skipNone (c : Codec α) (h : ∀ a, c.write a ≠ .null) (o : Option α) :
    orElse (c.option h) none (.of (skipNone c o)) = some o := by
  cases o with
  | none => rfl
  | some a => exact (c.option h).read_write (some a)

theorem orElse_dropped (p : Prop) [Decidable p] (c : Codec α) (d a : α) :
    orElse c d (.of (if p then none else some (c.write a))) = some (if p then d else a) := by
  by_cases hp : p
  · rw [if_pos hp, if_pos hp]
    rfl
  · rw [if_neg hp, if_neg hp, orElse_of]

theorem orElse_skipNone_dropped (p : Prop) [Decidable p] (c : Codec α) (h : ∀ a, c.write a ≠ .null) (o : Option α) :
    orElse (c.option h) none (.of (if p then none else skipNone c o)) = some (if p then none else o) := by
  by_cases hp : p
  · rw [if_pos hp, if_pos hp]
    rfl
  · rw [if_neg hp, if_neg hp, orElse_skipNone]

/-- What is written for the fields of a record is tame. -/
def Written (vals : List (Option Value)) : Prop := ∀ v, some v ∈ vals → Tame v

@[simp] theorem written_nil : Written [] := fun _ h => by cases h

@[simp] theorem written_write (c : Codec α) (a : α) (vals : List (Option Value)) :
    Written (some (c.write a) :: vals) ↔ Written vals := by
  constructor
  · exact fun h v hv => h v (List.mem_cons_of_mem _ hv)
  · intro h v hv
    rcases List.mem_cons.1 hv with heq | hv
    · exact Option.some.inj heq ▸ c.tame a
    · exact h v hv

@[simp] theorem written_skipNone (c : Codec α) (o : Option α) (vals : List (Option Value)) :
    Written (skipNone c o :: vals) ↔ Written vals := by
  cases o with
  | some a => exact written_write c a vals
  | none =>
    constructor
    · exact fun h v hv => h v (List.mem_cons_of_mem _ hv)
    · intro h v hv
      rcases List.mem_cons.1 hv with heq | hv
      · cases heq
      · exact h v hv

/-- What is written for the fields of a record can be kept. -/
def Kept (depth : Nat) (vals : List (Option Value)) : Prop := ∀ v, some v ∈ vals → held v depth = true

@[simp] theorem kept_nil (n : Nat) : Kept n [] := fun _ h => by cases h

@[simp] theorem kept_cons (n : Nat) (v : Value) (vals : List (Option Value)) :
    Kept n (some v :: vals) ↔ held v n = true ∧ Kept n vals := by
  constructor
  · exact fun h => ⟨h v List.mem_cons_self, fun w hw => h w (List.mem_cons_of_mem _ hw)⟩
  · rintro ⟨hv, hvals⟩ w hw
    rcases List.mem_cons.1 hw with heq | hw
    · exact Option.some.inj heq ▸ hv
    · exact hvals w hw

@[simp] theorem kept_skipNone (c : Codec α) (o : Option α) (vals : List (Option Value)) (n : Nat) :
    Kept n (skipNone c o :: vals) ↔ (∀ a, o = some a → held (c.write a) n = true) ∧ Kept n vals := by
  cases o with
  | some a =>
    refine (kept_cons n (c.write a) vals).trans (and_congr_left' ?_)
    exact ⟨fun ha _ hb => Option.some.inj hb ▸ ha, fun hall => hall a rfl⟩
  | none =>
    constructor
    · exact fun h => ⟨(fun _ ha => by cases ha), fun v hv => h v (List.mem_cons_of_mem _ hv)⟩
    · rintro ⟨-, h⟩ v hv
      rcases List.mem_cons.1 hv with heq | hv
      · cases heq
      · exact h v hv

end

/-! ## What is written is found -/

theorem mem_present {m : List Char × Value} : ∀ {names : List String} {vals : List (Option Value)},
    m ∈ present names vals → (∃ n ∈ names, m.1 = n.toList) ∧ some m.2 ∈ vals
  | n :: ns, some v :: vs, h => by
    rcases List.mem_cons.1 h with rfl | h
    · exact ⟨⟨n, List.mem_cons_self, rfl⟩, List.mem_cons_self⟩
    · obtain ⟨⟨x, hx, hm⟩, hv⟩ := mem_present h
      exact ⟨⟨x, List.mem_cons_of_mem n hx, hm⟩, List.mem_cons_of_mem _ hv⟩
  | n :: ns, none :: vs, h => by
    obtain ⟨⟨x, hx, hm⟩, hv⟩ := @mem_present m ns vs h
    exact ⟨⟨x, List.mem_cons_of_mem n hx, hm⟩, List.mem_cons_of_mem _ hv⟩
  | [], [], h => by cases h
  | [], _ :: _, h => by cases h
  | _ :: _, [], h => by cases h

theorem named_of_not_mem {n : String} {ms : List (List Char × Value)} (h : ∀ m ∈ ms, m.1 ≠ n.toList) : named n ms = [] := by
  rw [named, List.filter_eq_nil_iff.2 (fun m hm => by simpa using h m hm), List.map_nil]

theorem named_cons_self (n : String) (v : Value) (ms : List (List Char × Value)) :
    named n ((n.toList, v) :: ms) = v :: named n ms := by simp [named]

theorem named_cons_ne {n : String} {k : List Char} (h : k ≠ n.toList) (v : Value) (ms : List (List Char × Value)) :
    named n ((k, v) :: ms) = named n ms := by simp [named, h]

theorem Slot.ofNamed_perm {vs vs' : List Value} (h : vs.Perm vs') : Slot.ofNamed vs = Slot.ofNamed vs' := by
  have hlen := h.length_eq
  match vs, vs', h with
  | [], vs', h => rw [List.nil_perm.1 h]
  | [v], vs', h => rw [List.singleton_perm.1 h]
  | _ :: _ :: _, [], _ => cases hlen
  | _ :: _ :: _, [_], _ => cases hlen
  | _ :: _ :: _, _ :: _ :: _, _ => rfl

/-- A derived reader depends on the members of the record's own names alone, and not on their order. -/
theorem fieldsOf_congr {names : List String} {ms ms' : List (List Char × Value)}
    (h : ∀ n ∈ names, (named n ms).Perm (named n ms')) : fieldsOf names (.obj ms) = fieldsOf names (.obj ms') := by
  rw [fieldsOf, fieldsOf]
  induction names with
  | nil => rfl
  | cons n ns ih =>
    rw [List.mapM_cons, List.mapM_cons, Slot.ofNamed_perm (h n List.mem_cons_self),
      ih (fun x hx => h x (List.mem_cons_of_mem n hx))]

/-- **The fields of a written record are found**: each where it was written, and missing where it was left out. -/
theorem fieldsOf_present {names : List String} (hnd : names.Nodup) {vals : List (Option Value)}
    (hlen : names.length = vals.length) : fieldsOf names (.obj (present names vals)) = some (vals.map .of) := by
  induction names generalizing vals with
  | nil =>
    obtain rfl := List.eq_nil_of_length_eq_zero hlen.symm
    rfl
  | cons n ns ih =>
    cases vals with
    | nil => cases hlen
    | cons o vs =>
      obtain ⟨hn, hnd⟩ := List.nodup_cons.1 hnd
      have hfresh : ∀ m ∈ present ns vs, m.1 ≠ n.toList := by
        intro m hm heq
        obtain ⟨⟨x, hx, hmx⟩, -⟩ := mem_present hm
        exact hn (String.toList_inj.1 (heq.symm.trans hmx) ▸ hx)
      have hrest := ih hnd (Nat.succ.inj hlen)
      cases o with
      | none =>
        rw [present, fieldsOf, List.mapM_cons, named_of_not_mem hfresh]
        rw [fieldsOf] at hrest
        simp only [hrest]
        rfl
      | some v =>
        have htail : fieldsOf ns (.obj ((n.toList, v) :: present ns vs)) = some (vs.map .of) := by
          rw [← hrest]
          refine fieldsOf_congr (fun x hx => ?_)
          have hne : n.toList ≠ x.toList := fun heq => hn (String.toList_inj.1 heq ▸ hx)
          rw [named_cons_ne hne]
        rw [fieldsOf] at htail
        rw [present, fieldsOf, List.mapM_cons, named_cons_self, named_of_not_mem hfresh]
        simp only [htail]
        rfl

theorem tame_present {names : List String} {vals : List (Option Value)}
    (hnames : ∀ n ∈ names, ∀ c ∈ n.toList, Json.PlainChar c) (hvals : Written vals) :
    Json.TameMembers (present names vals) := by
  rw [Json.tameMembers_iff]
  intro m hm
  obtain ⟨⟨n, hn, hmn⟩, hv⟩ := mem_present hm
  exact ⟨fun c hc => hnames n hn c (hmn ▸ hc), hvals _ hv⟩

/-- Names that a record may have: all different, and no character to escape. -/
def Proper (names : List String) : Prop := names.Nodup ∧ ∀ n ∈ names, n.toList.all (fun c => decide (Json.PlainChar c)) = true

instance (names : List String) : Decidable (Proper names) := inferInstanceAs (Decidable (_ ∧ _))

theorem Proper.plain {names : List String} (h : Proper names) : ∀ n ∈ names, ∀ c ∈ n.toList, Json.PlainChar c :=
  fun n hn => Json.plain_of_all (h.2 n hn)

/-- The same members of these names, in any order; members of other names do not count. -/
def SameMembers (names : List String) (ms ms' : List (List Char × Value)) : Prop :=
  (ms.filter (fun m => m.1 ∈ names.map String.toList)).Perm (ms'.filter (fun m => m.1 ∈ names.map String.toList))

theorem SameMembers.of_perm {names : List String} {ms ms' : List (List Char × Value)} (h : ms.Perm ms') :
    SameMembers names ms ms' := h.filter _

theorem SameMembers.unknown {names : List String} {m : List Char × Value} {ms ms' : List (List Char × Value)}
    (hm : m.1 ∉ names.map String.toList) (h : SameMembers names ms ms') : SameMembers names (m :: ms) ms' := by
  rw [SameMembers, List.filter_cons_of_neg (by simpa using hm)]
  exact h

theorem SameMembers.named {names : List String} {ms ms' : List (List Char × Value)} (h : SameMembers names ms ms')
    {n : String} (hn : n ∈ names) : (Json.named n ms).Perm (Json.named n ms') := by
  have hself : ∀ ms : List (List Char × Value),
      Json.named n (ms.filter (fun m => m.1 ∈ names.map String.toList)) = Json.named n ms := by
    intro ms
    rw [Json.named, Json.named, List.filter_filter]
    congr 1
    refine List.filter_congr (fun m _ => ?_)
    by_cases hm : m.1 = n.toList
    · simp [hm, String.toList_inj, hn]
    · simp [hm]
  rw [← hself ms, ← hself ms']
  exact (h.filter _).map _

/-! ## Records -/

/-- A struct: its fields in order, what is written for each, and the value their slots make. -/
structure Record (α : Type) where
  fields : List String
  values : α → List (Option Value)
  build : List Slot → Option α
  proper : Proper fields
  length : ∀ a, fields.length = (values a).length
  built : ∀ a, build ((values a).map .of) = some a
  tame : ∀ a, Written (values a)

namespace Record

variable {α : Type}

/-- The members that are written for a value. -/
def members (r : Record α) (a : α) : List (List Char × Value) := present r.fields (r.values a)

/-- `#[derive(Serialize, Deserialize)]` on a struct. -/
def codec (r : Record α) : Codec α where
  write a := .obj (r.members a)
  read v := (fieldsOf r.fields v).bind r.build
  read_write a := by rw [members, fieldsOf_present r.proper.1 (r.length a), Option.bind_some, r.built]
  tame a := tame_present r.proper.plain (r.tame a)

theorem held (r : Record α) {n : Nat} (h : ∀ a, Kept n (r.values a)) (a : α) :
    Json.held (r.codec.write a) (n + 1) = true := by
  change Json.held (.obj (r.members a)) (n + 1) = true
  rw [Json.held, Json.heldMembers_iff]
  exact fun m hm => h a m.2 (mem_present hm).2

theorem read_obj (r : Record α) (ms : List (List Char × Value)) :
    r.codec.read (.obj ms) = (fieldsOf r.fields (.obj ms)).bind r.build := rfl

theorem read_present (r : Record α) {vals : List (Option Value)} (hlen : r.fields.length = vals.length) :
    r.codec.read (.obj (present r.fields vals)) = r.build (vals.map .of) := by
  rw [read_obj, fieldsOf_present r.proper.1 hlen, Option.bind_some]

/-- **Members of other names, and the order of all, do not matter.** -/
theorem read_congr (r : Record α) {ms ms' : List (List Char × Value)} (h : SameMembers r.fields ms ms') :
    r.codec.read (.obj ms) = r.codec.read (.obj ms') := by
  rw [read_obj, read_obj, fieldsOf_congr (fun n hn => h.named hn)]

/-- The members that a sender writes that does not know the fields `gone`. -/
def membersWithout (r : Record α) (gone : List String) (a : α) : List (List Char × Value) :=
  (r.members a).filter (fun m => String.ofList m.1 ∉ gone)

theorem present_filter (gone : List String) : ∀ (names : List String) (vals : List (Option Value)),
    (present names vals).filter (fun m => String.ofList m.1 ∉ gone) =
      present names (List.zipWith (fun n o => if n ∈ gone then none else o) names vals)
  | n :: ns, some v :: vs => by
    have hrest := present_filter gone ns vs
    rw [present, List.zipWith_cons_cons]
    by_cases hn : n ∈ gone
    · rw [List.filter_cons_of_neg (by simpa using hn), if_pos hn, present, hrest]
    · rw [List.filter_cons_of_pos (by simpa using hn), if_neg hn, present, hrest]
  | n :: ns, none :: vs => by
    rw [present, List.zipWith_cons_cons, ite_self, present, present_filter gone ns vs]
  | [], [] => rfl
  | [], _ :: _ => rfl
  | _ :: _, [] => rfl

/-- The fields that an older sender leaves out are missing, and the others are where they were. -/
theorem read_without (r : Record α) (gone : List String) (a : α) {ms : List (List Char × Value)}
    (h : SameMembers r.fields ms (r.membersWithout gone a)) :
    r.codec.read (.obj ms) =
      r.build ((List.zipWith (fun n o => if n ∈ gone then none else o) r.fields (r.values a)).map .of) := by
  rw [r.read_congr h, membersWithout, members, present_filter]
  have hlen : r.fields.length =
      (List.zipWith (fun n o => if n ∈ gone then none else o) r.fields (r.values a)).length := by
    rw [List.length_zipWith, ← r.length a, Nat.min_self]
  rw [r.read_present hlen]

end Record

/-! ## Internally tagged enums -/

/-- `#[serde(tag = ..)]` on an enum: the variants with their fields, and for a value the name of its variant and what is
written for its fields. -/
structure Tagged (α : Type) where
  tag : String
  variants : List (String × List String)
  name : α → String
  values : α → List (Option Value)
  build : String → List Slot → Option α
  proper : ∀ p ∈ variants, Proper (tag :: p.2)
  listed : ∀ a, ∃ fields, variants.lookup (name a) = some fields ∧ fields.length = (values a).length
  built : ∀ a, build (name a) ((values a).map .of) = some a
  tame : ∀ a, Written (values a)

namespace Tagged

variable {α : Type}

/-- The name of the variant, and the rest of its record. -/
def untag (tag : String) : Value → Option (String × Value)
  | .obj ms =>
    match named tag ms with
    | [.str s] => some (String.ofList s, .obj (ms.filter (fun m => m.1 ≠ tag.toList)))
    | _ => none
  | .arr (.str s :: vs) => some (String.ofList s, .arr vs)
  | _ => none

def readVariant (t : Tagged α) (p : String × Value) : Option α := do
  let fields ← t.variants.lookup p.1
  let slots ← fieldsOf fields p.2
  t.build p.1 slots

theorem untag_cons {tag : String} {s : List Char} {ms : List (List Char × Value)} (h : ∀ m ∈ ms, m.1 ≠ tag.toList) :
    untag tag (.obj ((tag.toList, .str s) :: ms)) = some (String.ofList s, .obj ms) := by
  have hnamed : named tag ((tag.toList, .str s) :: ms) = [.str s] := by
    rw [named_cons_self, named_of_not_mem h]
  have hfilter : ((tag.toList, Value.str s) :: ms).filter (fun m => m.1 ≠ tag.toList) = ms := by
    rw [List.filter_cons_of_neg (by simp), List.filter_eq_self]
    intro m hm
    simpa using h m hm
  simp only [untag, hnamed, hfilter]

theorem untag_twice {tag : String} {ms : List (List Char × Value)} (h : 2 ≤ (named tag ms).length) :
    untag tag (.obj ms) = none := by
  rw [untag]
  match hms : named tag ms with
  | [] => simp [hms] at h
  | [v] => simp [hms] at h
  | v :: _ :: _ => cases v <;> rfl

theorem mem_of_lookup {β : Type} {key : String} {v : β} : ∀ {l : List (String × β)}, l.lookup key = some v → (key, v) ∈ l
  | (k, w) :: l, h => by
    rw [List.lookup_cons] at h
    split at h
    · rename_i heq
      obtain rfl := eq_of_beq heq
      exact Option.some.inj h ▸ List.mem_cons_self
    · exact List.mem_cons_of_mem _ (mem_of_lookup h)
  | [], h => by cases h

/-- A variant's fields are not named as the tag. -/
theorem not_tag (t : Tagged α) {a : α} {fields : List String} (h : t.variants.lookup (t.name a) = some fields) :
    ∀ m ∈ present fields (t.values a), m.1 ≠ t.tag.toList := by
  intro m hm heq
  obtain ⟨⟨n, hn, hmn⟩, -⟩ := mem_present hm
  have hproper := (t.proper _ (mem_of_lookup h)).1
  exact (List.nodup_cons.1 hproper).1 (String.toList_inj.1 (heq.symm.trans hmn) ▸ hn)

/-- The members that are written for a value: the tag and the fields of its variant. -/
def members (t : Tagged α) (a : α) : List (List Char × Value) :=
  (t.tag.toList, .str (t.name a).toList) :: present ((t.variants.lookup (t.name a)).getD []) (t.values a)

/-- `#[derive(Serialize, Deserialize)]` on an internally tagged enum. -/
def codec (t : Tagged α) : Codec α where
  write a := .obj (t.members a)
  read v := (untag t.tag v).bind t.readVariant
  read_write a := by
    obtain ⟨fields, hlook, hlen⟩ := t.listed a
    have hnd := (List.nodup_cons.1 (t.proper _ (mem_of_lookup hlook)).1).2
    rw [members, hlook, Option.getD_some, untag_cons (t.not_tag hlook), Option.bind_some, String.ofList_toList, readVariant]
    simp only [hlook, Option.bind_eq_bind, Option.bind_some, fieldsOf_present hnd hlen, t.built]
  tame a := by
    obtain ⟨fields, hlook, -⟩ := t.listed a
    have hproper := t.proper _ (mem_of_lookup hlook)
    rw [members, hlook, Option.getD_some]
    exact ⟨hproper.plain t.tag List.mem_cons_self, trivial,
      tame_present (fun n hn => hproper.plain n (List.mem_cons_of_mem _ hn)) (t.tame a)⟩

theorem held (t : Tagged α) {n : Nat} (h : ∀ a, Kept n (t.values a)) (a : α) :
    Json.held (t.codec.write a) (n + 1) = true := by
  change Json.held (.obj (t.members a)) (n + 1) = true
  rw [Json.held, Json.heldMembers_iff, members, List.forall_mem_cons]
  exact ⟨rfl, fun m hm => h a m.2 (mem_present hm).2⟩

theorem named_filter_ne {tag n : String} (hn : n ≠ tag) (ms : List (List Char × Value)) :
    named n (ms.filter (fun m => m.1 ≠ tag.toList)) = named n ms := by
  rw [named, named, List.filter_filter]
  congr 1
  refine List.filter_congr (fun m _ => ?_)
  by_cases hm : m.1 = n.toList
  · simp [hm, String.toList_inj, hn]
  · simp [hm]

/-- Every name a reader of the enum looks for. -/
def names (t : Tagged α) : List String := t.tag :: t.variants.flatMap Prod.snd

/-- **Where the tag stands, members of other names, and the order of all do not matter.** -/
theorem read_congr (t : Tagged α) {ms ms' : List (List Char × Value)} (h : SameMembers t.names ms ms') :
    t.codec.read (.obj ms) = t.codec.read (.obj ms') := by
  change (untag t.tag (.obj ms)).bind t.readVariant = (untag t.tag (.obj ms')).bind t.readVariant
  have htag := h.named (n := t.tag) List.mem_cons_self
  -- what is left of the members beside the tag makes one variant
  have hrest : ∀ s, t.readVariant (s, .obj (ms.filter (fun m => m.1 ≠ t.tag.toList))) =
      t.readVariant (s, .obj (ms'.filter (fun m => m.1 ≠ t.tag.toList))) := by
    intro s
    rw [readVariant, readVariant]
    dsimp only
    cases hlook : t.variants.lookup s with
    | none => rfl
    | some fields =>
      have hmem := mem_of_lookup hlook
      have hfields : fieldsOf fields (.obj (ms.filter (fun m => m.1 ≠ t.tag.toList))) =
          fieldsOf fields (.obj (ms'.filter (fun m => m.1 ≠ t.tag.toList))) := by
        refine fieldsOf_congr (fun n hn => ?_)
        have hne : n ≠ t.tag := by
          rintro rfl
          exact (List.nodup_cons.1 (t.proper _ hmem).1).1 hn
        rw [named_filter_ne hne, named_filter_ne hne]
        exact h.named (List.mem_cons_of_mem _ (List.mem_flatMap.2 ⟨_, hmem, hn⟩))
      simp only [Option.bind_eq_bind, Option.bind_some, hfields]
  have hlen := htag.length_eq
  match hms : named t.tag ms with
  | [] =>
    have hms' : named t.tag ms' = [] := List.nil_perm.1 (hms ▸ htag)
    simp only [untag, hms, hms']
  | [v] =>
    have hms' : named t.tag ms' = [v] := (List.singleton_perm.1 (hms ▸ htag)).symm
    simp only [untag, hms, hms']
    cases v with
    | str s => exact hrest _
    | _ => rfl
  | _ :: _ :: _ =>
    have htwice : 2 ≤ (named t.tag ms).length := by simp [hms]
    rw [untag_twice htwice, untag_twice (hlen ▸ htwice)]

end Tagged

end Serde
