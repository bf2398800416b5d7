import Celium.HyperWire
import Celium.Wire
/-!
# WireRequest — what the host writes, the kernel reads

The members of an object, written by the host's writer and read by the kernel's scanner (`readAll_members`), and from it
the exact requests that come through: those whose strings need no escape.
-/
namespace Celium

namespace Wire

open Json (Plain)

/-! ## Strings and numbers -/

theorem string_json (bs rest : List UInt8) :
    string (Json.string bs ++ rest) = stringRest (bs.flatMap Json.escape ++ '"'.toUInt8 :: rest) := by
  rw [Json.string, List.cons_append, List.append_assoc, List.singleton_append]
  rfl

theorem stringRest_cons {b : UInt8} (hb : Plain b) (bs : List UInt8) :
    stringRest (Json.escape b ++ bs) = (stringRest bs).map (fun p => (b :: p.1, p.2)) := by
  rw [Json.escape_of_plain hb, List.singleton_append, stringRest, if_neg hb.1, if_neg hb.2.1]
  cases stringRest bs with
  | error e => rfl
  | ok p => rfl

/-- **A string as the host writes it** is read back if it is plain. -/
theorem string_plain {bs : List UInt8} (h : ∀ b ∈ bs, Plain b) (rest : List UInt8) :
    string (Json.string bs ++ rest) = .ok (bs, rest) := by
  rw [string_json]
  induction bs with
  | nil => rfl
  | cons b bs ih =>
    obtain ⟨hb, hbs⟩ := List.forall_mem_cons.1 h
    rw [List.flatMap_cons, List.append_assoc, stringRest_cons hb, ih hbs]
    rfl

/-- **One that is not plain** is refused. -/
theorem string_escaped {bs : List UInt8} (h : ¬ ∀ b ∈ bs, Plain b) (rest : List UInt8) :
    string (Json.string bs ++ rest) = .error (.invalid "wire: escapes not allowed") := by
  rw [string_json]
  induction bs with
  | nil => exact absurd (fun b hb => absurd hb List.not_mem_nil) h
  | cons b bs ih =>
    rw [List.flatMap_cons, List.append_assoc]
    by_cases hb : Plain b
    · rw [stringRest_cons hb, ih (fun hbs => h (List.forall_mem_cons.2 ⟨hb, hbs⟩))]
      rfl
    · obtain ⟨t, ht⟩ := Json.escape_of_not_plain hb
      rw [ht]
      rfl

theorem isDigit_digitChar : ∀ d < 10, isDigit (Nat.digitChar d).toUInt8 = true := by decide

theorem digitChar_value : ∀ d < 10, ((Nat.digitChar d).toUInt8 - '0'.toUInt8).toNat = d := by decide

theorem isDigit_decimal (n : Nat) : ∀ b ∈ Json.decimal n, isDigit b = true := by
  induction n using Nat.strongRecOn with
  | ind n ih =>
    intro b hb
    by_cases h : n < 10
    · rw [Json.decimal_of_lt h, List.mem_singleton] at hb
      exact hb ▸ isDigit_digitChar n h
    · rw [Json.decimal_of_ge (Nat.not_lt.1 h), List.mem_append, List.mem_singleton] at hb
      rcases hb with hb | rfl
      · exact ih (n / 10) (by omega) b hb
      · exact isDigit_digitChar (n % 10) (Nat.mod_lt n (by decide))

theorem accumulate_append {size acc : Nat} {as bs : List UInt8} :
    accumulate size acc (as ++ bs) = (accumulate size acc as).bind (fun n => accumulate size n bs) := by
  induction as generalizing acc with
  | nil => rfl
  | cons a as ih =>
    rw [List.cons_append, accumulate, accumulate]
    split_ifs
    · rfl
    · rfl
    · exact ih

/-- A number as the host writes it comes to itself, where the type has room for it. -/
theorem accumulate_decimal {size n : Nat} (h : n < size) : accumulate size 0 (Json.decimal n) = some n := by
  induction n using Nat.strongRecOn with
  | ind n ih =>
    by_cases hlt : n < 10
    · rw [Json.decimal_of_lt hlt, accumulate, digitChar_value n hlt, if_neg (by omega), if_neg (by omega), accumulate]
      simp
    · rw [Json.decimal_of_ge (Nat.not_lt.1 hlt), accumulate_append, ih (n / 10) (by omega) (by omega), Option.bind_some,
        accumulate, digitChar_value (n % 10) (Nat.mod_lt n (by decide)), if_neg (by omega), if_neg (by omega), accumulate]
      congr 1
      omega

/-- **A number as the host writes it**, with no further digit after it, is read back. -/
theorem number_decimal {size n : Nat} {overflow : String} {rest : List UInt8} (h : n < size)
    (hrest : ∀ b ∈ rest.head?, isDigit b = false) :
    number size overflow (Json.decimal n ++ rest) = .ok (n, rest) := by
  have hnone : rest.takeWhile isDigit = [] ∧ rest.dropWhile isDigit = rest := by
    cases rest with
    | nil => exact ⟨rfl, rfl⟩
    | cons b bs => simp [hrest b rfl]
  have htake : (Json.decimal n ++ rest).takeWhile isDigit = Json.decimal n := by
    rw [List.takeWhile_append_of_pos (isDigit_decimal n), hnone.1, List.append_nil]
  have hdrop : (Json.decimal n ++ rest).dropWhile isDigit = rest := by
    rw [List.dropWhile_append_of_pos (isDigit_decimal n), hnone.2]
  simp only [number, htake, hdrop, if_neg (Json.decimal_ne_nil n), accumulate_decimal h]

/-! ## Members -/

/-- The value of a member, in the two kinds requests have. -/
inductive Value where
  | text (bs : List UInt8)
  | num (n : Nat)

namespace Value

/-- A value as the host writes it. -/
def json : Value → List UInt8
  | .text bs => Json.string bs
  | .num n   => Json.decimal n

/-- A value whose bytes stand for themselves. -/
def Plain : Value → Prop
  | .text bs => ∀ b ∈ bs, Json.Plain b
  | .num _   => True

instance : DecidablePred Plain
  | .text bs => inferInstanceAs (Decidable (∀ b ∈ bs, Json.Plain b))
  | .num _   => .isTrue trivial

/-- The first byte of a value is a quote or a digit. -/
theorem json_head (v : Value) : ∃ b bs, v.json = b :: bs ∧ (b = '"'.toUInt8 ∨ isDigit b = true) := by
  cases v with
  | text bs => exact ⟨_, _, rfl, .inl rfl⟩
  | num n =>
    cases h : Json.decimal n with
    | nil => exact absurd h (Json.decimal_ne_nil n)
    | cons b bs => exact ⟨b, bs, h, .inr (isDigit_decimal n b (h ▸ List.mem_cons_self))⟩

end Value

/-- The values a field takes: a string, or a number its type has room for. -/
def Key.Takes : Key → Value → Prop
  | .op, .text _ | .label, .text _ | .imagePath, .text _ | .bytesHex, .text _ => True
  | .vmId, .num n | .cpuCount, .num n | .bootBlobCrc32c, .num n | .len, .num n | .crc32c, .num n => n < 2 ^ 32
  | .memoryMib, .num n => n < 2 ^ 64
  | _, _ => False

/-- A field set to a value it takes. -/
def Fields.put (f : Fields) : Key × Value → Fields
  | (.op, .text bs) => { f with op := some bs }
  | (.label, .text bs) => { f with label := some bs }
  | (.imagePath, .text bs) => { f with imagePath := some bs }
  | (.bytesHex, .text bs) => { f with bytesHex := some bs }
  | (.vmId, .num n) => { f with vmId := some (.ofNat n) }
  | (.cpuCount, .num n) => { f with cpuCount := some (.ofNat n) }
  | (.memoryMib, .num n) => { f with memoryMib := some (.ofNat n) }
  | (.bootBlobCrc32c, .num n) => { f with bootBlobCrc32c := some (.ofNat n) }
  | (.len, .num n) => { f with len := some (.ofNat n) }
  | (.crc32c, .num n) => { f with crc32c := some (.ofNat n) }
  | _ => f

/-- A member as the host writes it. -/
def memberJson (m : Key × Value) : List UInt8 := Json.member m.1.name m.2.json

/-- No value starts with a blank. -/
theorem skipWs_value (v : Value) (rest : List UInt8) : skipWs (v.json ++ rest) = v.json ++ rest := by
  obtain ⟨b, bs, hv, hb⟩ := v.json_head
  have hws : isWs b = false := by
    rcases hb with rfl | hb
    · rfl
    · cases h : isWs b with
      | false => rfl
      | true =>
        simp only [isWs, Bool.or_eq_true, beq_iff_eq] at h
        rcases h with ((rfl | rfl) | rfl) | rfl <;> exact absurd hb (by decide)
  rw [hv, List.cons_append, skipWs, List.dropWhile_cons_of_neg (by simp [hws])]

/-- No value is `null`. -/
theorem tryConsumeNull_value (v : Value) (rest : List UInt8) : tryConsumeNull (v.json ++ rest) = none := by
  obtain ⟨b, bs, hv, hb⟩ := v.json_head
  rw [hv, List.cons_append, tryConsumeNull, if_neg]
  intro h
  have hn : b = 'n'.toUInt8 := (List.cons.inj h).1
  rcases hb with rfl | hb
  · exact absurd hn (by decide)
  · exact absurd (hn ▸ hb) (by decide)

theorem orNull_value {α : Type} (value : List UInt8 → HyperResult (α × List UInt8)) (v : Value) (rest : List UInt8) :
    orNull value (v.json ++ rest) = (value (v.json ++ rest)).map (fun p => (some p.1, p.2)) := by
  rw [orNull, tryConsumeNull_value]

theorem u32Value_decimal {n : Nat} {rest : List UInt8} (h : n < 2 ^ 32)
    (hrest : ∀ b ∈ rest.head?, isDigit b = false) : u32Value (Json.decimal n ++ rest) = .ok (.ofNat n, rest) := by
  rw [u32Value, number_decimal h hrest]
  rfl

theorem u64Value_decimal {n : Nat} {rest : List UInt8} (h : n < 2 ^ 64)
    (hrest : ∀ b ∈ rest.head?, isDigit b = false) : u64Value (Json.decimal n ++ rest) = .ok (.ofNat n, rest) := by
  rw [u64Value, number_decimal h hrest]
  rfl

/-- **A value that a field takes** is put in the field if it is plain, and is refused otherwise. -/
theorem readKnown_value (f : Fields) {key : Key} {v : Value} (h : key.Takes v) {rest : List UInt8}
    (hrest : ∀ b ∈ rest.head?, isDigit b = false) :
    f.readKnown key (v.json ++ rest) =
      if v.Plain then .ok (f.put (key, v), rest) else .error (.invalid "wire: escapes not allowed") := by
  cases v with
  | text bs =>
    have hnull := orNull_value string (.text bs) rest
    rw [Value.json] at hnull
    by_cases hp : ∀ b ∈ bs, Plain b
    · rw [if_pos (show (Value.text bs).Plain from hp), Value.json]
      cases key with
      | op | label | imagePath | bytesHex =>
        simp only [Fields.readKnown, hnull, string_plain hp]
        rfl
      | vmId | cpuCount | memoryMib | bootBlobCrc32c | len | crc32c => exact absurd h not_false
    · rw [if_neg (show ¬ (Value.text bs).Plain from hp), Value.json]
      cases key with
      | op | label | imagePath | bytesHex =>
        simp only [Fields.readKnown, hnull, string_escaped hp]
        rfl
      | vmId | cpuCount | memoryMib | bootBlobCrc32c | len | crc32c => exact absurd h not_false
  | num n =>
    have hnull32 := orNull_value u32Value (.num n) rest
    have hnull64 := orNull_value u64Value (.num n) rest
    simp only [Value.json] at hnull32 hnull64
    rw [if_pos (show (Value.num n).Plain from trivial), Value.json]
    cases key with
    | op | label | imagePath | bytesHex => exact absurd h not_false
    | memoryMib =>
      simp only [Fields.readKnown, hnull64, u64Value_decimal h hrest]
      rfl
    | vmId | cpuCount | bootBlobCrc32c | len | crc32c =>
      simp only [Fields.readKnown, hnull32, u32Value_decimal h hrest]
      rfl

theorem ofBytes_name (key : Key) : Key.ofBytes (Text.utf8 key.name) = some key := by
  cases key <;> decide

set_option maxRecDepth 10000 in
theorem plain_name (key : Key) : ∀ b ∈ Text.utf8 key.name, Json.Plain b := by
  cases key <;> decide

theorem skipWs_of_not {b : UInt8} {bs : List UInt8} (h : isWs b = false) : skipWs (b :: bs) = b :: bs := by
  rw [skipWs, List.dropWhile_cons_of_neg (by simp [h])]

/-- **One member**: it is read, or refused, and the loop goes on after a comma and ends at a brace. -/
theorem readAll_member (fuel : Nat) (f : Fields) {m : Key × Value} (h : m.1.Takes m.2) {b : UInt8} (rest : List UInt8)
    (hb : b = ','.toUInt8 ∨ b = '}'.toUInt8) :
    Fields.readAll (fuel + 1) f (memberJson m ++ b :: rest) =
      if m.2.Plain then if b = ','.toUInt8 then Fields.readAll fuel (f.put m) rest else .ok (f.put m, rest)
      else .error (.invalid "wire: escapes not allowed") := by
  have hkey : string (memberJson m ++ b :: rest) = .ok (Text.utf8 m.1.name, ':'.toUInt8 :: (m.2.json ++ b :: rest)) := by
    rw [memberJson, Json.member, List.append_assoc, string_plain (plain_name m.1)]
    rfl
  have hvalue : f.read (Text.utf8 m.1.name) (m.2.json ++ b :: rest) =
      if m.2.Plain then .ok (f.put m, b :: rest) else .error (.invalid "wire: escapes not allowed") := by
    simp only [Fields.read, ofBytes_name, skipWs_value]
    refine readKnown_value f h (fun b' hb' => ?_)
    rw [List.head?_cons, Option.mem_some_iff] at hb'
    rcases hb with rfl | rfl <;> exact hb' ▸ rfl
  have hcolon : skipWs (':'.toUInt8 :: (m.2.json ++ b :: rest)) = ':'.toUInt8 :: (m.2.json ++ b :: rest) :=
    skipWs_of_not rfl
  have hafter : skipWs (b :: rest) = b :: rest := skipWs_of_not (by rcases hb with rfl | rfl <;> rfl)
  obtain ⟨bs, hquote⟩ : ∃ bs, memberJson m ++ b :: rest = '"'.toUInt8 :: bs := ⟨_, rfl⟩
  rw [hquote] at hkey ⊢
  rw [Fields.readAll, skipWs_of_not rfl]
  simp only [if_neg (show ¬ '"'.toUInt8 = '}'.toUInt8 by decide), hkey, hcolon, expect, if_true, hvalue]
  by_cases hp : m.2.Plain
  · simp only [if_pos hp, hafter]
    rcases hb with rfl | rfl
    · rfl
    · rfl
  · simp only [if_neg hp]

/-- **The members of an object as the host writes it**: they are put in the fields one after the other, if every string
among them is plain. -/
theorem readAll_members {fuel : Nat} (f : Fields) {ms : List (Key × Value)} (h : ∀ m ∈ ms, m.1.Takes m.2)
    (hfuel : ms.length < fuel) (rest : List UInt8) :
    Fields.readAll fuel f (Json.members (ms.map memberJson) ++ '}'.toUInt8 :: rest) =
      if ∀ m ∈ ms, m.2.Plain then .ok (ms.foldl Fields.put f, rest)
      else .error (.invalid "wire: escapes not allowed") := by
  induction ms generalizing f fuel with
  | nil =>
    obtain ⟨fuel, rfl⟩ : ∃ k, fuel = k + 1 := ⟨fuel - 1, by simp at hfuel; omega⟩
    rfl
  | cons m ms ih =>
    obtain ⟨fuel, rfl⟩ : ∃ k, fuel = k + 1 := ⟨fuel - 1, by simp at hfuel; omega⟩
    obtain ⟨hm, hms⟩ := List.forall_mem_cons.1 h
    have hrest := ih (f.put m) hms (Nat.lt_of_succ_lt_succ hfuel)
    rw [List.map_cons, Json.members, List.append_assoc]
    cases ms with
    | nil =>
      rw [List.map_nil, List.flatMap_nil, List.nil_append, readAll_member fuel f hm rest (.inr rfl),
        if_neg (show ¬ '}'.toUInt8 = ','.toUInt8 by decide)]
      simp
    | cons m' ms =>
      rw [List.map_cons, List.flatMap_cons, List.cons_append, List.cons_append, readAll_member fuel f hm _ (.inl rfl),
        if_pos rfl]
      rw [List.map_cons, Json.members] at hrest
      rw [hrest]
      by_cases hp : m.2.Plain
      · simp only [List.forall_mem_cons (a := m), hp, true_and, if_true, List.foldl_cons]
      · simp only [List.forall_mem_cons (a := m), hp, false_and, if_false]

theorem length_le_members (ms : List (Key × Value)) : ms.length ≤ (Json.members (ms.map memberJson)).length := by
  have hpos : ∀ m : Key × Value, 0 < (memberJson m).length := fun m => Nat.zero_lt_succ _
  have hrest : ∀ ms : List (Key × Value),
      ms.length ≤ ((ms.map memberJson).flatMap (','.toUInt8 :: ·)).length := by
    intro ms
    induction ms with
    | nil => exact Nat.zero_le 0
    | cons m ms ih =>
      rw [List.map_cons, List.flatMap_cons, List.length_append, List.length_cons, List.length_cons]
      omega
  cases ms with
  | nil => exact Nat.zero_le _
  | cons m ms =>
    have := hpos m
    have := hrest ms
    rw [List.map_cons, Json.members, List.length_append, List.length_cons]
    omega

/-- **An object as the host writes it**: the kernel makes of it what the fields come to, if every string in it is plain,
and refuses it otherwise. -/
theorem decodeRequest_object {ms : List (Key × Value)} (h : ∀ m ∈ ms, m.1.Takes m.2) :
    decodeRequest (Json.object (ms.map memberJson)) =
      if ∀ m ∈ ms, m.2.Plain then (ms.foldl Fields.put {}).request
      else .error (.invalid "wire: escapes not allowed") := by
  have hfuel : ms.length < (Json.object (ms.map memberJson)).length := by
    have := length_le_members ms
    rw [Json.object, List.length_cons, List.length_append]
    omega
  have hopen : expect '{'.toUInt8 (Json.object (ms.map memberJson)) =
      .ok (Json.members (ms.map memberJson) ++ ['}'.toUInt8]) := by
    rw [Json.object, expect, if_pos rfl]
  have hread := readAll_members {} h hfuel []
  simp only [decodeRequest, hopen, hread]
  by_cases hp : ∀ m ∈ ms, m.2.Plain
  · simp only [if_pos hp]
    rfl
  · simp only [if_neg hp]

end Wire

/-! ## Requests -/

namespace HyperRequest

open Wire (Key Value)

/-- A request as the kernel is to see it. -/
def toKernel : HyperRequest → Wire.Request
  | .create label imagePath cpuCount memoryMib bootBlobCrc32c =>
    .create (Text.utf8 label) (imagePath.map Text.utf8) cpuCount memoryMib bootBlobCrc32c
  | .start vmId => .start vmId
  | .stop vmId => .stop vmId
  | .delete vmId => .delete vmId
  | .list => .list
  | .imageLoad len crc32c bytesHex => .imageLoad len crc32c (Text.utf8 bytesHex)

/-- The requests in question: a `create` whose label and path are within their limits, and those with no string. -/
def Sendable : HyperRequest → Prop
  | .create label imagePath .. =>
    (Text.utf8 label).length ≤ Wire.labelMax ∧ ∀ path ∈ imagePath, (Text.utf8 path).length ≤ Wire.imagePathMax
  | .imageLoad .. => False
  | _ => True

/-- No quote, backslash or control character in the label or the path. -/
def Plain : HyperRequest → Prop
  | .create label imagePath .. =>
    (∀ b ∈ Text.utf8 label, Json.Plain b) ∧ ∀ path ∈ imagePath, ∀ b ∈ Text.utf8 path, Json.Plain b
  | _ => True

/-- The members of a request. -/
def members (r : HyperRequest) : List (Key × Value) :=
  (.op, .text (Text.utf8 r.op)) ::
    match r with
    | .create label imagePath cpuCount memoryMib bootBlobCrc32c =>
      (.label, .text (Text.utf8 label)) :: (imagePath.toList.map (fun s => (Key.imagePath, Value.text (Text.utf8 s))) ++
        cpuCount.toList.map (fun n => (Key.cpuCount, Value.num n.toNat)) ++
        memoryMib.toList.map (fun n => (Key.memoryMib, Value.num n.toNat)) ++
        bootBlobCrc32c.toList.map (fun n => (Key.bootBlobCrc32c, Value.num n.toNat)))
    | .start vmId | .stop vmId | .delete vmId => [(.vmId, .num vmId.toNat)]
    | .list => []
    | .imageLoad len crc32c bytesHex =>
      [(.len, .num len.toNat), (.crc32c, .num crc32c.toNat), (.bytesHex, .text (Text.utf8 bytesHex))]

theorem toJson_eq (r : HyperRequest) : r.toJson = Json.object (r.members.map Wire.memberJson) := by
  cases r with
  | create label imagePath cpuCount memoryMib bootBlobCrc32c =>
    cases imagePath <;> cases cpuCount <;> cases memoryMib <;> cases bootBlobCrc32c <;> rfl
  | start vmId | stop vmId | delete vmId => rfl
  | list => rfl
  | imageLoad len crc32c bytesHex => rfl

theorem members_takes (r : HyperRequest) : ∀ m ∈ r.members, m.1.Takes m.2 := by
  intro m hm
  rcases List.mem_cons.1 hm with rfl | hm
  · trivial
  cases r with
  | create label imagePath cpuCount memoryMib bootBlobCrc32c =>
    simp only [List.mem_cons, List.mem_append, List.mem_map, Option.mem_toList] at hm
    rcases hm with rfl | ((⟨s, -, rfl⟩ | ⟨n, -, rfl⟩) | ⟨n, -, rfl⟩) | ⟨n, -, rfl⟩
    · trivial
    · trivial
    · exact n.toNat_lt
    · exact n.toNat_lt
    · exact n.toNat_lt
  | start vmId | stop vmId | delete vmId =>
    rw [List.mem_singleton.1 hm]
    exact vmId.toNat_lt
  | list => cases hm
  | imageLoad len crc32c bytesHex =>
    simp only [List.mem_cons, List.not_mem_nil, or_false] at hm
    rcases hm with rfl | rfl | rfl
    · exact len.toNat_lt
    · exact crc32c.toNat_lt
    · trivial

set_option maxRecDepth 10000 in
theorem op_plain (r : HyperRequest) : ∀ b ∈ Text.utf8 r.op, Json.Plain b := by
  cases r <;> (dsimp only [op]; decide)

theorem members_plain (r : HyperRequest) (h : r.Sendable) : (∀ m ∈ r.members, m.2.Plain) ↔ r.Plain := by
  have hop := r.op_plain
  cases r with
  | create label imagePath cpuCount memoryMib bootBlobCrc32c =>
    simp only [members, List.forall_mem_cons, List.forall_mem_append, List.forall_mem_map, Option.mem_toList,
      Value.Plain, Plain, implies_true, and_true]
    exact ⟨fun h => h.2, fun h => ⟨hop, h⟩⟩
  | start vmId | stop vmId | delete vmId => simpa [members, Value.Plain, Plain] using hop
  | list => simpa [members, Value.Plain, Plain] using hop
  | imageLoad len crc32c bytesHex => exact absurd h not_false

/-- The fields of a `create`, all collected. -/
theorem foldl_create (label : String) (imagePath : Option String) (cpuCount : Option UInt32) (memoryMib : Option UInt64)
    (bootBlobCrc32c : Option UInt32) :
    (create label imagePath cpuCount memoryMib bootBlobCrc32c).members.foldl Wire.Fields.put {} =
      { op := some (Text.utf8 "create"), label := some (Text.utf8 label), imagePath := imagePath.map Text.utf8,
        cpuCount, memoryMib, bootBlobCrc32c } := by
  cases imagePath <;> cases cpuCount <;> cases memoryMib <;> cases bootBlobCrc32c <;>
    simp [members, Wire.Fields.put, op]

/-- The fields of a request within its limits come to the request. -/
theorem request_members (r : HyperRequest) (h : r.Sendable) :
    (r.members.foldl Wire.Fields.put {}).request = .ok r.toKernel := by
  cases r with
  | create label imagePath cpuCount memoryMib bootBlobCrc32c =>
    obtain ⟨hlabel, hpath⟩ := h
    have hop : Wire.Op.ofBytes (Text.utf8 "create") = some .create := by decide
    have hany : (imagePath.map Text.utf8).any (fun p => decide (Wire.imagePathMax < p.length)) = false := by
      cases imagePath with
      | none => rfl
      | some path => simpa using hpath path rfl
    rw [foldl_create]
    simp only [Wire.Fields.request, hop, Wire.Fields.create, if_neg (Nat.not_lt.2 hlabel), hany]
    rfl
  | start vmId =>
    have hop : Wire.Op.ofBytes (Text.utf8 "start") = some .start := by decide
    simp [members, op, Wire.Fields.put, Wire.Fields.request, hop, Wire.Fields.orMissing, Except.map, toKernel]
  | stop vmId =>
    have hop : Wire.Op.ofBytes (Text.utf8 "stop") = some .stop := by decide
    simp [members, op, Wire.Fields.put, Wire.Fields.request, hop, Wire.Fields.orMissing, Except.map, toKernel]
  | delete vmId =>
    have hop : Wire.Op.ofBytes (Text.utf8 "delete") = some .delete := by decide
    simp [members, op, Wire.Fields.put, Wire.Fields.request, hop, Wire.Fields.orMissing, Except.map, toKernel]
  | list => rfl
  | imageLoad len crc32c bytesHex => exact absurd h not_false

/-! ## The length of a line -/

theorem textField_length (key : String) (hkey : (Text.utf8 key).length ≤ 16) {v : Option String} {n : Nat}
    (h : ∀ s ∈ v, (Text.utf8 s).length ≤ n) :
    ((textField key v).flatMap (','.toUInt8 :: ·)).length ≤ 6 * n + 102 := by
  cases v with
  | none => exact Nat.zero_le _
  | some s =>
    have hname := Json.string_length_le (Text.utf8 key)
    have hvalue := Json.string_length_le (Text.utf8 s)
    have hs := h s rfl
    simp only [textField, Option.toList_some, List.map_cons, List.map_nil, List.flatMap_cons, List.flatMap_nil,
      Json.member, List.length_append, List.length_cons, List.length_nil]
    omega

theorem numField_length (key : String) (hkey : (Text.utf8 key).length ≤ 16) {v : Option Nat}
    (h : ∀ n ∈ v, n < 2 ^ 64) : ((numField key v).flatMap (','.toUInt8 :: ·)).length ≤ 120 := by
  cases v with
  | none => exact Nat.zero_le _
  | some n =>
    have hname := Json.string_length_le (Text.utf8 key)
    have hvalue : (Json.decimal n).length ≤ 20 := Json.decimal_length_le (by decide) ((h n rfl).trans (by decide))
    simp only [numField, Option.toList_some, List.map_cons, List.map_nil, List.flatMap_cons, List.flatMap_nil,
      Json.member, List.length_append, List.length_cons, List.length_nil]
    omega

theorem num32Field_length (key : String) (hkey : (Text.utf8 key).length ≤ 16) (v : Option UInt32) :
    ((numField key (v.map UInt32.toNat)).flatMap (','.toUInt8 :: ·)).length ≤ 120 := by
  refine numField_length key hkey (fun n hn => ?_)
  obtain ⟨m, -, rfl⟩ := Option.map_eq_some_iff.1 hn
  exact m.toNat_lt.trans (by decide)

theorem fields_length (r : HyperRequest) (h : r.Sendable) :
    (r.fields.flatMap (','.toUInt8 :: ·)).length ≤ 1524 := by
  cases r with
  | create label imagePath cpuCount memoryMib bootBlobCrc32c =>
    obtain ⟨hlabel, hpath⟩ := h
    have h1 := textField_length "label" (by decide) (v := some label) (n := 32)
      (fun s hs => Option.mem_some_iff.1 hs ▸ hlabel)
    have h2 := textField_length "image_path" (by decide) hpath
    have h3 := num32Field_length "cpu_count" (by decide) cpuCount
    have h4 : ((numField "memory_mib" (memoryMib.map UInt64.toNat)).flatMap (','.toUInt8 :: ·)).length ≤ 120 := by
      refine numField_length "memory_mib" (by decide) (fun n hn => ?_)
      obtain ⟨m, -, rfl⟩ := Option.map_eq_some_iff.1 hn
      exact m.toNat_lt
    have h5 := num32Field_length "boot_blob_crc32c" (by decide) bootBlobCrc32c
    simp only [fields, List.flatMap_append, List.length_append, Wire.imagePathMax] at h2 ⊢
    omega
  | start vmId | stop vmId | delete vmId =>
    have hle := num32Field_length "vm_id" (by decide) (some vmId)
    exact hle.trans (by decide)
  | list => exact Nat.zero_le _
  | imageLoad len crc32c bytesHex => exact absurd h not_false

/-- **Every request in question fits a frame**, newline included. -/
theorem toJson_length (r : HyperRequest) (h : r.Sendable) :
    (r.toJson ++ ['\n'.toUInt8]).length ≤ Wire.maxFrameBytes := by
  have hop : (Text.utf8 r.op).length ≤ 10 := by cases r <;> (dsimp only [op]; decide)
  have hopField := textField_length "op" (by decide) (v := some r.op) (n := 10)
    (fun s hs => Option.mem_some_iff.1 hs ▸ hop)
  have hfields := r.fields_length h
  simp only [toJson, Json.object, textField, Option.toList_some, List.map_cons, List.map_nil, List.singleton_append,
    Json.members, List.flatMap_cons, List.flatMap_nil, List.length_append, List.length_cons, List.length_nil,
    Wire.maxFrameBytes] at hopField ⊢
  omega

end HyperRequest

/-- **A request fits a frame and is read by the kernel as it was, byte for byte, exactly when no string in it needs an
escape.** -/
theorem request_agrees_iff (r : HyperRequest) (h : r.Sendable) :
    (r.toJson ++ ['\n'.toUInt8]).length ≤ Wire.maxFrameBytes ∧ Wire.decodeRequest r.toJson = .ok r.toKernel ↔
      r.Plain := by
  rw [r.toJson_eq, Wire.decodeRequest_object r.members_takes, r.request_members h, ← r.toJson_eq]
  by_cases hp : ∀ m ∈ r.members, m.2.Plain
  · exact iff_of_true ⟨r.toJson_length h, if_pos hp⟩ ((r.members_plain h).1 hp)
  · rw [if_neg hp]
    exact iff_of_false (fun h => by cases h.2) (fun hplain => hp ((r.members_plain h).2 hplain))

/-- A `create` with a label in Latin script, a path and every number at its largest. -/
def fullCreate : HyperRequest :=
  .create "café" (some "/img/disk.raw") (some 4294967295) (some 18446744073709551615) (some 4294967295)

theorem request_agrees_full :
    fullCreate.Sendable ∧ (fullCreate.toJson ++ ['\n'.toUInt8]).length ≤ Wire.maxFrameBytes ∧
      Wire.decodeRequest fullCreate.toJson = .ok fullCreate.toKernel := by
  have hsend : fullCreate.Sendable := ⟨by decide +kernel, by decide +kernel⟩
  exact ⟨hsend, (request_agrees_iff fullCreate hsend).2 ⟨by decide +kernel, by decide +kernel⟩⟩

/-- A `create` for an image on a Windows host. -/
def windowsCreate : HyperRequest := .create "web" (some "C:\\img\\disk.raw") none none none

/-- **A path with a backslash is refused.** -/
theorem windows_path_refused :
    windowsCreate.Sendable ∧
      Wire.decodeRequest windowsCreate.toJson = .error (.invalid "wire: escapes not allowed") ∧
      ¬ ((windowsCreate.toJson ++ ['\n'.toUInt8]).length ≤ Wire.maxFrameBytes ∧
        Wire.decodeRequest windowsCreate.toJson = .ok windowsCreate.toKernel) := by
  have hrefused : Wire.decodeRequest windowsCreate.toJson = .error (.invalid "wire: escapes not allowed") := by
    decide
  refine ⟨⟨by decide, by decide⟩, hrefused, fun h => ?_⟩
  rw [hrefused] at h
  cases h.2

end Celium
