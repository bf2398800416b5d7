import Celium.Controller
import Celium.Lib.Fixed
/-!
# VmPath — the two readers of a VM's path

`/vms/<n>` is read by the kernel and by the operator's controller.  Both strip the same texts and look the number up;
the kernel reads it with a digit loop of its own, and the controller with `u32`'s `from_str`, which also takes a plus
sign.
-/
namespace Celium

open Fixed Text

/-! ## The kernel's decimal numbers -/

namespace Manager

/-- The loop of `parse_u32`, over the bytes of a text: each step multiplies and adds with a check. -/
def parseDigits : Nat → List UInt8 → Option Nat
  | acc, [] => some acc
  | acc, b :: bs =>
    if ¬('0'.toUInt8 ≤ b ∧ b ≤ '9'.toUInt8) then none
    else if acc * 10 > u32Max then none
    else if acc * 10 + (b - '0'.toUInt8).toNat > u32Max then none
    else parseDigits (acc * 10 + (b - '0'.toUInt8).toNat) bs

def parseU32 (s : String) : Option UInt32 :=
  if s.isEmpty then none else (parseDigits 0 (Text.utf8 s)).map UInt32.ofNat

/-- `U32_DECIMAL_MAX`: the room of the digit buffer. -/
def u32DecimalMax : Nat := 10

/-- The loop of `format_u32`: the digits of what is left of the number, lowest first, behind those already there.
Nothing where the buffer has no room left. -/
def formatLoop : Nat → Nat → List UInt8 → Option (List UInt8)
  | room, n, tmp =>
    if n = 0 then some tmp
    else match room with
      | 0 => none
      | room + 1 => formatLoop room (n / 10) (tmp ++ ['0'.toUInt8 + UInt8.ofNat (n % 10)])

/-- How many bytes `format_u32` writes, and the buffer it leaves; nothing where an index is out of bounds. -/
def formatU32 (n : UInt32) (out : List UInt8) : Option (Nat × List UInt8) :=
  if n = 0 then
    match out with
    | [] => none
    | _ :: rest => some (1, '0'.toUInt8 :: rest)
  else
    match formatLoop u32DecimalMax n.toNat [] with
    | none => none
    | some tmp =>
      if tmp.length ≤ out.length then some (tmp.length, tmp.reverse ++ out.drop tmp.length) else none

def vmNamespaceRoot : String := "/vms"

/-- The bytes of the path in the buffer; nothing where an index is out of bounds. -/
def pathFor (id : UInt32) (buf : List UInt8) : Option (HyperResult (List UInt8)) :=
  if buf.length < vmNamespaceRoot.utf8ByteSize + 1 + u32DecimalMax then
    some (.error (.exhausted "path_for: buffer too small"))
  else
    match formatU32 id (buf.drop (vmNamespaceRoot.utf8ByteSize + 1)) with
    | none => none
    | some (written, out) =>
      some (.ok ((Text.utf8 vmNamespaceRoot ++ '/'.toUInt8 :: out).take (vmNamespaceRoot.utf8ByteSize + 1 + written)))

end Manager

/-! ## Resolving a path -/

/-- What both readers do, up to the error type, the parser of the number and the table it is looked up in. -/
def resolveVmPath {ε α : Type} (invalid : String → ε) (parse : List Char → Option UInt32) (lookup : UInt32 → Except ε α)
    (path : String) : Except ε UInt32 :=
  match path.toList.dropPrefix? "/vms".toList with
  | none => .error (invalid "path: missing /vms root")
  | some stripped =>
    match stripped.dropPrefix? ['/'] with
    | none => .error (invalid "path: expected /vms/<n>")
    | some suffix =>
      if suffix.isEmpty || suffix.contains '/' then .error (invalid "path: expected exactly one segment")
      else match parse suffix with
        | none => .error (invalid "path: VM id is not a u32")
        | some id => (lookup id).map (fun _ => id)

def Manager.resolvePath (m : Manager) (path : String) : HyperResult UInt32 :=
  resolveVmPath .invalid (fun suffix => Manager.parseU32 (String.ofList suffix)) m.lookup path

def Controller.resolvePath (c : Controller) (path : String) : CelResult UInt32 :=
  resolveVmPath .invalid (fun suffix => (parseUnsigned u32Max suffix).map UInt32.ofNat) c.lookup path

def Controller.pathFor (id : UInt32) : String := "/vms/" ++ toString id.toNat

/-! ## The digit loop reads what `from_str` reads after a sign -/

namespace Manager

/-- The loop at an ASCII character. -/
theorem parseDigits_cons (acc : Nat) {c : Char} (h : c.toNat < 128) (bs : List UInt8) :
    parseDigits acc (c.toUInt8 :: bs) = match digitVal c with
      | none => none
      | some d => if acc * 10 + d > u32Max then none else parseDigits (acc * 10 + d) bs := by
  have hbyte := toNat_toUInt8 h
  have hdigit : ('0'.toUInt8 ≤ c.toUInt8 ∧ c.toUInt8 ≤ '9'.toUInt8) ↔ ('0' ≤ c ∧ c ≤ '9') := by
    rw [UInt8.le_iff_toNat_le, UInt8.le_iff_toNat_le, hbyte]
    exact Iff.rfl
  rw [parseDigits, digitVal]
  by_cases hc : '0' ≤ c ∧ c ≤ '9'
  · have hlo : 48 ≤ c.toNat := hc.1
    have hval : (c.toUInt8 - '0'.toUInt8).toNat = c.toNat - '0'.toNat := by
      rw [UInt8.toNat_sub_of_le _ _ (UInt8.le_iff_toNat_le.2 (hbyte ▸ hlo)), hbyte]
      rfl
    rw [if_neg (not_not.2 (hdigit.2 hc)), if_pos hc, hval]
    by_cases hmul : acc * 10 > u32Max
    · rw [if_pos hmul]
      simp only [if_pos (Nat.lt_of_lt_of_le hmul (Nat.le_add_right _ _))]
    · rw [if_neg hmul]
  · rw [if_pos fun hbytes => hc (hdigit.1 hbytes), if_neg hc]

theorem parseDigits_eq (acc : Nat) (cs : List Char) :
    parseDigits acc (cs.flatMap String.utf8EncodeChar) = digitsFrom u32Max acc cs := by
  induction cs generalizing acc with
  | nil => rfl
  | cons c cs ih =>
    rw [List.flatMap_cons, digitsFrom]
    rcases Nat.lt_or_ge c.toNat 128 with hascii | hwide
    · rw [utf8EncodeChar_ascii hascii, List.singleton_append, parseDigits_cons acc hascii]
      cases digitVal c with
      | none => rfl
      | some d =>
        simp only
        split
        · rfl
        · exact ih _
    · obtain ⟨b, bs, hbytes, hb⟩ := utf8EncodeChar_wide hwide
      have hnot : ¬('0'.toUInt8 ≤ b ∧ b ≤ '9'.toUInt8) := by
        rw [UInt8.le_iff_toNat_le, UInt8.le_iff_toNat_le]
        rintro ⟨-, hhi⟩
        have hnine : '9'.toUInt8.toNat = 57 := rfl
        omega
      have hnone : digitVal c = none := by
        rw [digitVal, if_neg]
        rintro ⟨-, hhi⟩
        have : c.toNat ≤ 57 := hhi
        omega
      rw [hbytes, List.cons_append, parseDigits, if_pos hnot, hnone]

theorem parseU32_ofList (cs : List Char) :
    parseU32 (String.ofList cs) = if cs = [] then none else (digitsFrom u32Max 0 cs).map UInt32.ofNat := by
  rw [parseU32, utf8_ofList, parseDigits_eq]
  cases cs with
  | nil => rfl
  | cons c cs => rw [if_neg (List.cons_ne_nil c cs), if_neg (by simp)]

/-! ## The digit buffer holds the decimal form -/

theorem digit_add : ∀ d < 10, '0'.toUInt8 + UInt8.ofNat d = (Nat.digitChar d).toUInt8 := by decide

/-- **The loop fills the buffer with the digits of the number**, lowest first, as far as there is room for them. -/
theorem formatLoop_eq {room n : Nat} (hpos : 0 < n) (hroom : n < 10 ^ room) (tmp : List UInt8) :
    formatLoop room n tmp = some (tmp ++ ((Nat.toDigits 10 n).map Char.toUInt8).reverse) := by
  induction room generalizing n tmp with
  | zero => omega
  | succ room ih =>
    have hdigit : '0'.toUInt8 + UInt8.ofNat (n % 10) = (Nat.digitChar (n % 10)).toUInt8 :=
      digit_add _ (Nat.mod_lt _ (by decide))
    rw [formatLoop, if_neg (Nat.ne_of_gt hpos), hdigit]
    rcases Nat.lt_or_ge n 10 with hsmall | hbig
    · have hlast : formatLoop room 0 (tmp ++ [(Nat.digitChar n).toUInt8]) = some (tmp ++ [(Nat.digitChar n).toUInt8]) := by
        cases room <;> rfl
      rw [Nat.div_eq_of_lt hsmall, Nat.mod_eq_of_lt hsmall, hlast, Nat.toDigits_of_lt_base hsmall]
      rfl
    · have hrest : n / 10 < 10 ^ room := by
        rw [Nat.pow_succ] at hroom
        omega
      rw [ih (by omega) hrest, Nat.toDigits_of_base_le (by decide) hbig, List.map_append, List.reverse_append,
        List.append_assoc]
      rfl

theorem toDigits_length_le (n : UInt32) : (Nat.toDigits 10 n.toNat).length ≤ u32DecimalMax :=
  (Nat.length_toDigits_le_iff (by decide) (by decide)).2 (Nat.lt_trans n.toNat_lt (by decide))

/-- The bytes of a number in decimal. -/
def decimal (n : UInt32) : List UInt8 := Text.utf8 (toString n.toNat)

theorem decimal_eq (n : UInt32) : decimal n = (Nat.toDigits 10 n.toNat).map Char.toUInt8 := by
  have hascii : ∀ c ∈ Nat.toDigits 10 n.toNat, c.toNat < 128 := by
    intro c hc
    have hdigit := Nat.isDigit_of_mem_toDigits (by decide) (by decide) hc
    simp only [Char.isDigit, Bool.and_eq_true, decide_eq_true_eq] at hdigit
    have hnine : c.toNat ≤ 57 := UInt32.le_iff_toNat_le.1 hdigit.2
    omega
  rw [← utf8_ascii hascii, ← toList_toString, String.ofList_toList, decimal]

theorem decimal_length_le (n : UInt32) : (decimal n).length ≤ u32DecimalMax := by
  rw [decimal_eq, List.length_map]
  exact toDigits_length_le n

/-- **`format_u32` writes the number in decimal** over the start of a buffer that has room for one. -/
theorem formatU32_eq (n : UInt32) {out : List UInt8} (hout : u32DecimalMax ≤ out.length) :
    formatU32 n out = some ((decimal n).length, decimal n ++ out.drop (decimal n).length) := by
  have hlen := decimal_length_le n
  unfold formatU32
  split
  · rename_i hzero
    subst hzero
    have hdec : decimal 0 = ['0'.toUInt8] := by rw [decimal_eq]; rfl
    rw [hdec]
    cases out with
    | nil => cases hout
    | cons b out => rfl
  · rename_i hne
    have hpos : 0 < n.toNat := Nat.pos_of_ne_zero fun h0 => hne (UInt32.toNat_inj.1 h0)
    rw [formatLoop_eq hpos (Nat.lt_trans n.toNat_lt (by decide)), List.nil_append, ← decimal_eq]
    simp only [List.length_reverse, List.reverse_reverse]
    rw [if_pos (Nat.le_trans hlen hout)]

theorem pathFor_eq (id : UInt32) {buf : List UInt8} (hbuf : vmNamespaceRoot.utf8ByteSize + 1 + u32DecimalMax ≤ buf.length) :
    pathFor id buf = some (.ok (Text.utf8 ("/vms/" ++ toString id.toNat))) := by
  have hout : u32DecimalMax ≤ (buf.drop (vmNamespaceRoot.utf8ByteSize + 1)).length := by
    rw [List.length_drop]
    omega
  have hhead : Text.utf8 vmNamespaceRoot ++ ['/'.toUInt8] = Text.utf8 "/vms/" := by decide
  unfold pathFor
  rw [if_neg (Nat.not_lt.2 hbuf), formatU32_eq id hout]
  simp only [Option.some.injEq, Except.ok.injEq]
  rw [utf8_append, ← hhead, List.append_assoc, List.singleton_append, ← decimal, ← List.cons_append, ← List.append_assoc]
  refine List.take_left' ?_
  rw [List.length_append, List.length_cons, utf8_length]
  omega

/-! ## Reading back what was written -/

theorem parseU32_toString (n : UInt32) : parseU32 (toString n.toNat) = some n := by
  rw [← String.ofList_toList (s := toString n.toNat), parseU32_ofList, toList_toString, if_neg Nat.toDigits_ne_nil,
    digitsFrom_toDigits (le_u32Max n), Option.map_some, UInt32.ofNat_toNat]

/-- Digits are read as their value, and refused where that is past the largest `u32`. -/
theorem parseU32_digits {ds : List Char} (hne : ds ≠ []) (hds : ∀ c ∈ ds, '0' ≤ c ∧ c ≤ '9') :
    parseU32 (String.ofList ds) =
      if Nat.ofDigitChars 10 ds 0 ≤ u32Max then some (UInt32.ofNat (Nat.ofDigitChars 10 ds 0)) else none := by
  rw [parseU32_ofList, if_neg hne, digitsFrom_eq (Nat.zero_le _) hds]
  split <;> rfl

theorem parseU32_some {ds : List Char} {n : UInt32} (h : parseU32 (String.ofList ds) = some n) :
    ds ≠ [] ∧ (∀ c ∈ ds, '0' ≤ c ∧ c ≤ '9') ∧ Nat.ofDigitChars 10 ds 0 = n.toNat := by
  rw [parseU32_ofList] at h
  split at h
  · cases h
  rename_i hne
  obtain ⟨k, hk, rfl⟩ := Option.map_eq_some_iff.1 h
  have hds := digits_of_digitsFrom hk
  rw [digitsFrom_eq (Nat.zero_le _) hds] at hk
  split at hk
  · rename_i hle
    refine ⟨hne, hds, ?_⟩
    rw [← Option.some.inj hk, UInt32.toNat_ofNat_of_lt' (Nat.lt_succ_of_le hle)]
  · cases hk

/-- What is read and has no zeros in front is written back as it was. -/
theorem decimal_of_parseU32 {ds : List Char} {n : UInt32} (h : parseU32 (String.ofList ds) = some n)
    (hlead : ds = ['0'] ∨ ds.head? ≠ some '0') : decimal n = Text.utf8 (String.ofList ds) := by
  obtain ⟨hne, hds, hval⟩ := parseU32_some h
  have hback := toDigits_ofDigitChars hne hds hlead
  rw [hval, ← toList_toString] at hback
  rw [decimal, ← hback, String.ofList_toList]

end Manager

/-! ## What the readers answer -/

theorem resolveVmPath_ok {ε α : Type} {invalid : String → ε} {parse : List Char → Option UInt32}
    {lookup : UInt32 → Except ε α} {path : String} {id : UInt32} :
    resolveVmPath invalid parse lookup path = .ok id ↔ ∃ suffix, path.toList = "/vms/".toList ++ suffix ∧
      (suffix.isEmpty || suffix.contains '/') = false ∧ parse suffix = some id ∧ ∃ a, lookup id = .ok a := by
  constructor
  · intro h
    unfold resolveVmPath at h
    split at h; · cases h
    rename_i stripped hroot
    split at h; · cases h
    rename_i suffix hslash
    split at h; · cases h
    rename_i hsegment
    split at h; · cases h
    rename_i n hn
    cases hlookup : lookup n with
    | error e =>
      rw [hlookup] at h
      cases h
    | ok a =>
      rw [hlookup] at h
      obtain rfl := Except.ok.inj h
      refine ⟨suffix, ?_, by simpa using hsegment, hn, a, hlookup⟩
      rw [dropPrefix_eq_some.1 hroot, dropPrefix_eq_some.1 hslash]
      rfl
  · rintro ⟨suffix, hpath, hsegment, hn, a, hlookup⟩
    have hroot : path.toList.dropPrefix? "/vms".toList = some ('/' :: suffix) :=
      dropPrefix_eq_some.2 (by rw [hpath]; rfl)
    have hslash : ('/' :: suffix).dropPrefix? ['/'] = some suffix := dropPrefix_eq_some.2 rfl
    unfold resolveVmPath
    rw [hroot]
    simp only [hslash, hsegment, hn, hlookup]
    rfl

/-- Digits are one segment. -/
theorem segment_of_digits {ds : List Char} (hne : ds ≠ []) (hds : ∀ c ∈ ds, '0' ≤ c ∧ c ≤ '9') :
    (ds.isEmpty || ds.contains '/') = false := by
  have hslash : '/' ∉ ds := fun hmem => absurd (hds _ hmem) (by decide)
  cases ds with
  | nil => exact absurd rfl hne
  | cons c ds => simpa using hslash

/-- `from_str` reads what the kernel's loop reads, and that after a plus sign. -/
theorem parseUnsigned_eq (ds : List Char) :
    ((parseUnsigned u32Max ('+' :: ds)).map UInt32.ofNat = Manager.parseU32 (String.ofList ds)) ∧
    (ds.head? ≠ some '+' → (parseUnsigned u32Max ds).map UInt32.ofNat = Manager.parseU32 (String.ofList ds)) := by
  rw [Manager.parseU32_ofList]
  cases ds with
  | nil => exact ⟨rfl, fun _ => rfl⟩
  | cons c ds =>
    rw [if_neg (List.cons_ne_nil c ds)]
    refine ⟨rfl, fun hhead => ?_⟩
    unfold parseUnsigned
    split
    · rename_i h
      cases h
    · rename_i h
      exact absurd (congrArg List.head? h) hhead
    · rename_i h
      exact absurd (congrArg List.head? h) hhead
    · rfl

/-! ## The two readers side by side -/

/-- The same number on both sides, or a failure on both. -/
def SameAnswer {ε ε' : Type} (x : Except ε UInt32) (y : Except ε' UInt32) : Prop :=
  (∃ id, x = .ok id ∧ y = .ok id) ∨ (∃ e, x = .error e) ∧ ∃ e, y = .error e

theorem sameAnswer_iff {ε ε' : Type} {x : Except ε UInt32} {y : Except ε' UInt32} :
    SameAnswer x y ↔ ∀ id, x = .ok id ↔ y = .ok id := by
  unfold SameAnswer
  cases x with
  | error e => cases y <;> simp
  | ok a =>
    cases y with
    | error e => simp
    | ok b =>
      constructor
      · rintro (⟨id, hx, hy⟩ | ⟨⟨e, he⟩, -⟩)
        · intro id'
          rw [hx, hy, Except.ok.injEq, Except.ok.injEq]
        · cases he
      · intro h
        exact .inl ⟨a, rfl, (h a).1 rfl⟩

/-- The same slots hold a VM. -/
def SameSlots (m : Manager) (c : Controller) : Prop := ∀ i, (m.registry i).isSome = (c.state.slots i).isSome

instance (m : Manager) (c : Controller) : Decidable (SameSlots m c) :=
  inferInstanceAs (Decidable (∀ i, (m.registry i).isSome = (c.state.slots i).isSome))

/-- `/vms/+` and the number of a slot that holds a VM, in digits. -/
def PlusPath (c : Controller) (path : String) : Prop :=
  ∃ (ds : List Char) (i : Fin maxVms), path.toList = "/vms/+".toList ++ ds ∧ ds ≠ [] ∧ (∀ ch ∈ ds, '0' ≤ ch ∧ ch ≤ '9') ∧
    Nat.ofDigitChars 10 ds 0 = i ∧ (c.state.slots i).isSome

section SameSlots

variable {m : Manager} {c : Controller}

theorem lookup_iff (hsame : SameSlots m c) (id : UInt32) : (∃ a, m.lookup id = .ok a) ↔ ∃ a, c.lookup id = .ok a := by
  have hkernel : (∃ a, m.lookup id = .ok a) ↔ ∃ i : Fin maxVms, id.toNat = i ∧ (m.registry i).isSome := by
    simp only [Prod.exists, m.lookup_ok, exists_and_left, Option.isSome_iff_exists]
  have hhost : (∃ a, c.lookup id = .ok a) ↔ ∃ i : Fin maxVms, id.toNat = i ∧ (c.state.slots i).isSome := by
    simp only [Prod.exists, Controller.lookup_ok, exists_and_left, Option.isSome_iff_exists]
  rw [hkernel, hhost]
  simp only [hsame _]

/-- **The readers agree on all paths but those with a plus sign** before the number of a slot that holds a VM. -/
theorem sameAnswer_iff_not_plusPath (hsame : SameSlots m c) (path : String) :
    SameAnswer (m.resolvePath path) (c.resolvePath path) ↔ ¬PlusPath c path := by
  rw [sameAnswer_iff]
  simp only [Manager.resolvePath, Controller.resolvePath, resolveVmPath_ok, lookup_iff hsame]
  constructor
  · rintro hagree ⟨ds, i, hpath, hne, hds, hval, hslot⟩
    have hfits : Nat.ofDigitChars 10 ds 0 ≤ u32Max := by
      rw [hval]
      exact Nat.le_trans (Nat.le_of_lt i.isLt) (by decide)
    have hread : (parseUnsigned u32Max ('+' :: ds)).map UInt32.ofNat = some (UInt32.ofNat i) := by
      rw [(parseUnsigned_eq ds).1, Manager.parseU32_digits hne hds, if_pos hfits, hval]
    obtain ⟨r, hr⟩ := Option.isSome_iff_exists.1 hslot
    have hid : (UInt32.ofNat i).toNat = i :=
      UInt32.toNat_ofNat_of_lt' (Nat.lt_trans i.isLt (by decide))
    obtain ⟨suffix, hsuffix, -, hkernel, -⟩ := (hagree (UInt32.ofNat i)).2
      ⟨'+' :: ds, hpath, by simpa using fun hmem => absurd (hds _ hmem) (by decide), hread, (i, r),
        Controller.lookup_ok.2 ⟨hid, hr⟩⟩
    -- The loop of the kernel stops at the sign.
    have hsame : suffix = '+' :: ds := List.append_cancel_left (hsuffix.symm.trans hpath)
    rw [hsame] at hkernel
    exact absurd ((Manager.parseU32_some hkernel).2.1 '+' List.mem_cons_self) (by decide)
  · intro hplus id
    refine exists_congr fun suffix => and_congr_right fun hpath => and_congr_right fun _ => ?_
    by_cases hhead : suffix.head? = some '+'
    · obtain ⟨ds, rfl⟩ : ∃ ds, suffix = '+' :: ds := by
        cases suffix with
        | nil => cases hhead
        | cons d ds => exact ⟨ds, by rw [Option.some.inj hhead]⟩
      refine iff_of_false ?_ ?_
      · rintro ⟨hkernel, -⟩
        exact absurd ((Manager.parseU32_some hkernel).2.1 '+' List.mem_cons_self) (by decide)
      · rintro ⟨hhost, ⟨i, r⟩, hlookup⟩
        rw [(parseUnsigned_eq ds).1] at hhost
        obtain ⟨hne, hds, hval⟩ := Manager.parseU32_some hhost
        obtain ⟨hid, hr⟩ := Controller.lookup_ok.1 hlookup
        exact hplus ⟨ds, i, hpath, hne, hds, hval.trans hid, Option.isSome_iff_exists.2 ⟨r, hr⟩⟩
    · rw [(parseUnsigned_eq suffix).2 hhead]

/-- The bytes that `format_u32` writes into a buffer. -/
def Manager.formatted (n : UInt32) (out : List UInt8) : Option (List UInt8) :=
  (formatU32 n out).map (fun written => written.2.take written.1)

theorem Manager.formatted_eq (n : UInt32) {out : List UInt8} (hout : u32DecimalMax ≤ out.length) :
    formatted n out = some (decimal n) := by
  rw [formatted, formatU32_eq n hout, Option.map_some, List.take_left]

theorem resolve_controller_pathFor (c : Controller) {id : UInt32} (hid : ∃ a, c.lookup id = .ok a) :
    c.resolvePath (Controller.pathFor id) = .ok id := by
  have hdigits : ∀ ch ∈ (toString id.toNat).toList, '0' ≤ ch ∧ ch ≤ '9' := by
    rw [toList_toString]
    exact digits_of_digitsFrom (digitsFrom_toDigits (le_u32Max id))
  refine resolveVmPath_ok.2 ⟨(toString id.toNat).toList, String.toList_append, ?_, ?_, hid⟩
  · refine segment_of_digits ?_ hdigits
    rw [toList_toString]
    exact Nat.toDigits_ne_nil
  · rw [parseUnsigned_toString (le_u32Max id), Option.map_some, UInt32.ofNat_toNat]

theorem resolve_manager_path (m : Manager) {id : UInt32} (hid : ∃ a, m.lookup id = .ok a) :
    m.resolvePath ("/vms/" ++ toString id.toNat) = .ok id := by
  have hparse := Manager.parseU32_toString id
  rw [← String.ofList_toList (s := toString id.toNat)] at hparse
  obtain ⟨hne, hds, -⟩ := Manager.parseU32_some hparse
  exact resolveVmPath_ok.2 ⟨_, String.toList_append, segment_of_digits hne hds, hparse, hid⟩

/-- **The two readers of a VM's path.**  Over the same slots they agree on exactly those paths that have no plus sign before
the number of a slot that holds a VM; the path of such a slot, as either side writes it, leads back to it on that side;
the kernel's numbers are read back as they were written, and written back as they were read where no zeros are in
front; and digits past the largest `u32` are refused. -/
theorem vm_paths (hsame : SameSlots m c) :
    (∀ path, SameAnswer (m.resolvePath path) (c.resolvePath path) ↔ ¬PlusPath c path) ∧
    (∀ id, (∃ a, c.lookup id = .ok a) → c.resolvePath (Controller.pathFor id) = .ok id ∧
      ∀ buf : List UInt8, 15 ≤ buf.length → ∃ path, Manager.pathFor id buf = some (.ok (Text.utf8 path)) ∧
        m.resolvePath path = .ok id) ∧
    (∀ (n : UInt32) (out : List UInt8), 10 ≤ out.length →
      ∃ s, Manager.formatted n out = some (Text.utf8 s) ∧ Manager.parseU32 s = some n) ∧
    (∀ (s : String) (n : UInt32), Manager.parseU32 s = some n → s = "0" ∨ s.toList.head? ≠ some '0' →
      ∀ out : List UInt8, 10 ≤ out.length → Manager.formatted n out = some (Text.utf8 s)) ∧
    ∀ ds : List Char, (∀ ch ∈ ds, '0' ≤ ch ∧ ch ≤ '9') → u32Max < Nat.ofDigitChars 10 ds 0 →
      Manager.parseU32 (String.ofList ds) = none := by
  refine ⟨sameAnswer_iff_not_plusPath hsame, fun id hid => ⟨resolve_controller_pathFor c hid, fun buf hbuf => ?_⟩,
    fun n out hout => ⟨toString n.toNat, Manager.formatted_eq n hout, Manager.parseU32_toString n⟩,
    fun s n hs hlead out hout => ?_, fun ds hds hbig => ?_⟩
  · exact ⟨_, Manager.pathFor_eq id hbuf, resolve_manager_path m ((lookup_iff hsame id).2 hid)⟩
  · rw [← String.ofList_toList (s := s)] at hs ⊢
    rw [Manager.formatted_eq n hout, Manager.decimal_of_parseU32 hs]
    exact hlead.imp_left fun h => by rw [h]; rfl
  · have hne : ds ≠ [] := by
      rintro rfl
      exact absurd hbig (by decide)
    rw [Manager.parseU32_digits hne hds, if_neg (Nat.not_le.2 hbig)]

end SameSlots

/-- One VM on each side, in the first slot. -/
def oneVmManager : Manager := Manager.init.allocate ⟨0, Nat.zero_lt_succ 3⟩ ⟨[0xF4], 0x1000, 0x9000⟩

def oneVmController : Controller := ((Controller.inMemory "stage" false).createVmWith ⟨"one", none, none, none⟩).2

theorem oneVm_paths : SameSlots oneVmManager oneVmController ∧
    oneVmController.resolvePath (Controller.pathFor 0) = .ok 0 :=
  ⟨by decide, ((vm_paths (m := oneVmManager) (by decide)).2.1 0 ⟨_, rfl⟩).1⟩

/-- **With a sign the controller finds the VM, and the kernel does not.** -/
theorem plus_path_splits_readers : SameSlots oneVmManager oneVmController ∧
    ¬SameAnswer (oneVmManager.resolvePath "/vms/+0") (oneVmController.resolvePath "/vms/+0") := by
  refine ⟨by decide, fun hagree => ?_⟩
  have hhost : oneVmController.resolvePath "/vms/+0" = .ok 0 := by rfl
  have hkernel : oneVmManager.resolvePath "/vms/+0" = .error (.invalid "path: VM id is not a u32") := by decide
  rw [sameAnswer_iff] at hagree
  rw [(hagree 0).2 hhost] at hkernel
  cases hkernel

end Celium
