import Celium.WireGrammar
/-!
# WireFrame — members, and a frame of them

The loop of `decode_request` over the members of a frame.  A frame that is put together from members the reader takes is
read as the last texts of its known keys say, and one that makes a request is put together so.
-/
namespace Celium
namespace Wire

open JsonText (Blank Member quoted lastValue withComma members_withComma members_length)

/-! ## Members -/

/-- The texts a field may have for its value. -/
def Reads (key v : List UInt8) : Prop :=
  match Key.ofBytes key with
  | some k => k.Reads v
  | none   => Skipped v

/-- A member the reader takes.  With no value at all the delimiter is right behind the blanks. -/
structure Accepted (m : Member) : Prop where
  spaced : m.Spaced
  key : Unescaped m.key
  value : Reads m.key m.value
  tight : m.value = [] → m.after = []

/-- The text of a known key in a list of members. -/
def texts (ms : List Member) (key : Key) : Option (List UInt8) := lastValue ms (Text.utf8 key.name)

theorem of_ofBytes {bs : List UInt8} {key : Key} (h : Key.ofBytes bs = some key) : bs = Text.utf8 key.name := by
  rw [Key.ofBytes] at h
  have hkey := List.find?_some h
  exact (beq_iff_eq.1 hkey).symm

theorem name_inj {k k' : Key} (h : Text.utf8 k.name = Text.utf8 k'.name) : k = k' := by
  have hk := ofBytes_name k
  rw [h, ofBytes_name] at hk
  exact (Option.some.inj hk).symm

theorem texts_known (ms : List Member) {m : Member} {key : Key} (h : Key.ofBytes m.key = some key) :
    texts (ms ++ [m]) = Function.update (texts ms) key (some m.value) := by
  funext k
  rw [texts, JsonText.lastValue_concat, of_ofBytes h]
  by_cases hk : k = key
  · subst hk
    rw [if_pos rfl, Function.update_self]
  · rw [if_neg (fun h => hk (name_inj h).symm), Function.update_of_ne hk]
    rfl

theorem texts_unknown (ms : List Member) {m : Member} (h : Key.ofBytes m.key = none) : texts (ms ++ [m]) = texts ms := by
  funext k
  rw [texts, JsonText.lastValue_concat, if_neg]
  · rfl
  · intro hk
    rw [hk, ofBytes_name] at h
    cases h

theorem of_texts {ms : List Member} {key : Key} {v : List UInt8} (h : texts ms key = some v) :
    ∃ m ∈ ms, Key.ofBytes m.key = some key ∧ m.value = v := by
  obtain ⟨m, hm, hv⟩ := Option.map_eq_some_iff.1 h
  have hkey := List.find?_some hm
  refine ⟨m, List.mem_reverse.1 (List.mem_of_find?_eq_some hm), ?_, hv⟩
  rw [beq_iff_eq.1 hkey, ofBytes_name]

theorem Reads.skipped {key v : List UInt8} (h : Reads key v) : Skipped v := by
  rw [Reads] at h
  split at h
  · exact h.skipped.1
  · exact h

/-- **The value of a member** that is taken. -/
theorem read_accepted (ms : List Member) {m : Member} (hm : Accepted m) {rest : List UInt8} (hrest : Stops rest)
    (hempty : m.value = [] → skipWs rest = rest) :
    (Fields.ofTexts (texts ms)).read m.key (m.lead ++ (m.value ++ (m.after ++ rest))) =
      .ok (.ofTexts (texts (ms ++ [m])), m.after ++ rest) := by
  have hstop : Stops (m.after ++ rest) := hrest.blank hm.spaced.after
  have hvalue := hm.value
  rw [Reads] at hvalue
  rw [Fields.read]
  cases hk : Key.ofBytes m.key with
  | some key =>
    rw [hk] at hvalue
    have hskip := Key.Reads.skipped hvalue
    simp only [skipWs_blank hm.spaced.lead, hskip.1.skipWs hskip.2]
    rw [readKnown_reads (texts ms) hvalue hstop, texts_known ms hk]
  | none =>
    rw [hk] at hvalue
    have hskip : skipValue (m.lead ++ (m.value ++ (m.after ++ rest))) = .ok (m.after ++ rest) := by
      refine skipValue_skipped hm.spaced.lead hvalue hstop (fun hnil => ?_)
      rw [hm.tight hnil, List.nil_append, hempty hnil]
    simp only [hskip, texts_unknown ms hk]
    rfl

theorem of_read {f f' : Fields} {key bs rest : List UInt8} (h : f.read key bs = .ok (f', rest)) :
    ∃ lead v, Blank lead ∧ Reads key v ∧ bs = lead ++ (v ++ rest) ∧ (v = [] → skipWs rest = rest) := by
  rw [Fields.read] at h
  cases hk : Key.ofBytes key with
  | some k =>
    rw [hk] at h
    obtain ⟨v, hv, hbs⟩ := of_readKnown h
    obtain ⟨lead, hlead, hlead'⟩ := exists_blank bs
    refine ⟨lead, v, hlead, by rwa [Reads, hk], by rw [← hbs, ← hlead'], fun hnil => absurd hnil hv.skipped.2⟩
  | none =>
    rw [hk] at h
    obtain ⟨cs, hcs, hp⟩ := of_map_ok h
    cases hp
    obtain ⟨lead, v, hlead, hv, hbs, hnil⟩ := of_skipValue hcs
    exact ⟨lead, v, hlead, by rwa [Reads, hk], hbs, hnil⟩

/-! ## The loop -/

/-- The loop after a value. -/
def next (fuel : Nat) (f : Fields) (bs : List UInt8) : HyperResult (Fields × List UInt8) :=
  match skipWs bs with
  | [] => .error (.invalid "wire: unexpected byte")
  | b :: bs =>
    if b = ','.toUInt8 then Fields.readAll fuel f bs
    else if b = '}'.toUInt8 then .ok (f, bs)
    else .error (.invalid "wire: unexpected byte")

/-- The loop at a key. -/
theorem readAll_key (fuel : Nat) (f : Fields) {before key colon : List UInt8} (hbefore : Blank before)
    (hkey : Unescaped key) (hcolon : Blank colon) (bs : List UInt8) :
    Fields.readAll (fuel + 1) f (before ++ (quoted key ++ (colon ++ ':'.toUInt8 :: bs))) =
      match f.read key bs with
      | .error e => .error e
      | .ok p => next fuel p.1 p.2 := by
  rw [Fields.readAll, skipWs_blank hbefore, quoted_append, skipWs_of_not (by decide)]
  have hstring : string ('"'.toUInt8 :: (key ++ '"'.toUInt8 :: (colon ++ ':'.toUInt8 :: bs))) =
      .ok (key, colon ++ ':'.toUInt8 :: bs) := stringRest_append hkey _
  have hcolon : expect ':'.toUInt8 (skipWs (colon ++ ':'.toUInt8 :: bs)) = .ok bs := by
    rw [skipWs_blank hcolon, skipWs_of_not (by decide)]
    rfl
  simp only [if_neg (show '"'.toUInt8 ≠ '}'.toUInt8 by decide), hstring, hcolon]
  cases f.read key bs with
  | error e => rfl
  | ok p => rfl

theorem readAll_brace (fuel : Nat) (f : Fields) {ws : List UInt8} (h : Blank ws) (rest : List UInt8) :
    Fields.readAll (fuel + 1) f (ws ++ '}'.toUInt8 :: rest) = .ok (f, rest) := by
  rw [Fields.readAll, skipWs_blank h, skipWs_of_not (by decide)]
  rfl

theorem next_comma (fuel : Nat) (f : Fields) {ws : List UInt8} (h : Blank ws) (rest : List UInt8) :
    next fuel f (ws ++ ','.toUInt8 :: rest) = Fields.readAll fuel f rest := by
  rw [next, skipWs_blank h, skipWs_of_not (by decide)]
  rfl

theorem next_brace (fuel : Nat) (f : Fields) {ws : List UInt8} (h : Blank ws) (rest : List UInt8) :
    next fuel f (ws ++ '}'.toUInt8 :: rest) = .ok (f, rest) := by
  rw [next, skipWs_blank h, skipWs_of_not (by decide)]
  rfl

/-- **A member** that is taken. -/
theorem readAll_accepted (fuel : Nat) (ms : List Member) {m : Member} (hm : Accepted m) {rest : List UInt8}
    (hrest : Stops rest) (hempty : m.value = [] → skipWs rest = rest) :
    Fields.readAll (fuel + 1) (.ofTexts (texts ms)) (m.bytes ++ rest) =
      next fuel (.ofTexts (texts (ms ++ [m]))) (m.after ++ rest) := by
  rw [Member.bytes_append, readAll_key fuel _ hm.spaced.before hm.key hm.spaced.colon, read_accepted ms hm hrest hempty]

theorem stops_comma (rest : List UInt8) : Stops (','.toUInt8 :: rest) := ⟨_, rfl, by decide⟩

/-- **Members with a comma after each.** -/
theorem readAll_prefix (fuel : Nat) (done ms : List Member) (h : ∀ m ∈ ms, Accepted m) (rest : List UInt8) :
    Fields.readAll (fuel + ms.length) (.ofTexts (texts done)) (ms.flatMap withComma ++ rest) =
      Fields.readAll fuel (.ofTexts (texts (done ++ ms))) rest := by
  induction ms generalizing done with
  | nil => rw [List.append_nil]; rfl
  | cons m ms ih =>
    obtain ⟨hm, hms⟩ := List.forall_mem_cons.1 h
    have hws : ∀ cs, skipWs (','.toUInt8 :: cs) = ','.toUInt8 :: cs := fun cs => skipWs_of_not (by decide)
    rw [List.flatMap_cons, withComma, List.append_assoc, List.append_assoc, List.singleton_append, List.length_cons,
      ← Nat.add_assoc, readAll_accepted _ done hm (stops_comma _) (fun _ => hws _), next_comma _ _ hm.spaced.after,
      ih (done ++ [m]) hms, List.append_assoc, List.singleton_append]

/-! ## Requests -/

/-- The fields that make a request. -/
def Fields.Makes (f : Fields) : Request → Prop
  | .create label imagePath cpuCount memoryMib bootBlobCrc32c =>
    f.op = some (Text.utf8 Op.create.name) ∧ f.label = some label ∧ f.imagePath = imagePath ∧ f.cpuCount = cpuCount ∧
      f.memoryMib = memoryMib ∧ f.bootBlobCrc32c = bootBlobCrc32c ∧ label.length ≤ labelMax ∧
      ∀ p ∈ imagePath, p.length ≤ imagePathMax
  | .start vmId => f.op = some (Text.utf8 Op.start.name) ∧ f.vmId = some vmId
  | .stop vmId => f.op = some (Text.utf8 Op.stop.name) ∧ f.vmId = some vmId
  | .delete vmId => f.op = some (Text.utf8 Op.delete.name) ∧ f.vmId = some vmId
  | .list => f.op = some (Text.utf8 Op.list.name)
  | .imageLoad len crc32c bytesHex =>
    f.op = some (Text.utf8 Op.imageLoad.name) ∧ f.len = some len ∧ f.crc32c = some crc32c ∧ f.bytesHex = some bytesHex ∧
      bytesHex.length = 2 * len.toNat

theorem of_orMissing {α : Type} {v : Option α} {msg : String} {a : α} (h : Fields.orMissing v msg = .ok a) : v = some a := by
  cases v with
  | none => cases h
  | some b => exact congrArg some (Except.ok.inj h)

theorem of_opBytes {bs : List UInt8} {o : Op} (h : Op.ofBytes bs = some o) : bs = Text.utf8 o.name := by
  rw [Op.ofBytes] at h
  have ho := List.find?_some h
  exact (beq_iff_eq.1 ho).symm

/-- **A request is made of the fields** it has. -/
theorem of_request {f : Fields} {r : Request} (h : f.request = .ok r) : f.Makes r := by
  rw [Fields.request] at h
  cases hop : f.op with
  | none =>
    rw [hop] at h
    cases h
  | some op =>
    rw [hop] at h
    simp only at h
    cases ho : Op.ofBytes op with
    | none =>
      rw [ho] at h
      cases h
    | some o =>
      rw [ho] at h
      rw [of_opBytes ho] at hop
      cases o with
      | create =>
        simp only [Fields.create] at h
        split at h
        · cases h
        rename_i label hlabel
        split at h
        · cases h
        rename_i hlen
        split at h
        · cases h
        rename_i hpath
        cases h
        refine ⟨hop, hlabel, rfl, rfl, rfl, rfl, Nat.not_lt.1 hlen, fun p hp => ?_⟩
        rw [Option.mem_def.1 hp, Option.any_some, decide_eq_true_eq] at hpath
        exact Nat.not_lt.1 hpath
      | start | stop | delete =>
        obtain ⟨id, hid, hr⟩ := of_map_ok h
        cases hr
        exact ⟨hop, of_orMissing hid⟩
      | list =>
        cases h
        exact hop
      | imageLoad =>
        obtain ⟨len, hlen, h⟩ := of_bind_ok h
        obtain ⟨crc32c, hcrc, h⟩ := of_bind_ok h
        obtain ⟨bytesHex, hhex, h⟩ := of_bind_ok h
        split at h
        · cases h
        rename_i hsize
        cases h
        exact ⟨hop, of_orMissing hlen, of_orMissing hcrc, of_orMissing hhex, not_not.1 hsize⟩

/-! ## Frames -/

/-- A frame, taken apart: its members, whether a comma follows the last, and the blanks before and after the brace. -/
structure FrameText where
  members : List Member
  comma : Bool
  inner : List UInt8
  tail : List UInt8

namespace FrameText

/-- What is left after the members. -/
def closing (t : FrameText) : List UInt8 :=
  (if t.comma then [','.toUInt8] else []) ++ (t.inner ++ '}'.toUInt8 :: t.tail)

def bytes (t : FrameText) : List UInt8 :=
  '{'.toUInt8 :: (Json.members (t.members.map Member.bytes) ++ t.closing)

/-- The frame is one the scanner gets through.  No blank may follow where there should be a value. -/
structure Accepted (t : FrameText) : Prop where
  members : ∀ m ∈ t.members, Wire.Accepted m
  inner : Blank t.inner
  tail : Blank t.tail
  comma : t.comma = true → t.members ≠ []
  tight : t.comma = false → t.inner = [] ∨ ∀ m ∈ t.members, m.value ≠ []

def fields (t : FrameText) : Fields := .ofTexts (texts t.members)

end FrameText

namespace FrameText

variable {t : FrameText}

theorem Accepted.reads (h : t.Accepted) {key : Key} {v : List UInt8} (hv : texts t.members key = some v) : key.Reads v := by
  obtain ⟨m, hm, hk, rfl⟩ := of_texts hv
  have hvalue := (h.members m hm).value
  rw [Wire.Reads, hk] at hvalue
  exact hvalue

theorem Accepted.stops_closing (h : t.Accepted) : Stops t.closing := by
  rw [closing]
  cases t.comma with
  | true => exact stops_comma _
  | false =>
    have hbrace : Stops ('}'.toUInt8 :: t.tail) := ⟨_, rfl, by decide⟩
    rw [if_neg (by decide), List.nil_append]
    exact hbrace.blank h.inner

theorem Accepted.skipWs_closing (h : t.Accepted) {m : Member} (hm : m ∈ t.members) (hnil : m.value = []) :
    skipWs t.closing = t.closing := by
  rw [closing]
  cases hc : t.comma with
  | true => exact skipWs_of_not (by decide)
  | false =>
    rw [if_neg (by decide), List.nil_append]
    rcases h.tight hc with hinner | hvalues
    · rw [hinner]
      exact skipWs_of_not (by decide)
    · exact absurd hnil (hvalues m hm)

/-- **The loop over the members** of a frame. -/
theorem Accepted.readAll (h : t.Accepted) {fuel : Nat} (hfuel : t.members.length < fuel) :
    Fields.readAll fuel {} (Json.members (t.members.map Member.bytes) ++ t.closing) = .ok (t.fields, t.tail) := by
  obtain ⟨fuel, rfl⟩ := Nat.exists_eq_add_of_lt hfuel
  rcases List.eq_nil_or_concat' t.members with hnil | ⟨ms, m, hms⟩
  · have hcomma : t.comma = false := by
      by_contra hc
      exact h.comma (Bool.not_eq_false _ ▸ hc) hnil
    rw [fields, hnil, closing, hcomma]
    exact readAll_brace _ _ h.inner t.tail
  · have hacc := h.members
    have hws := h.skipWs_closing (m := m) (by rw [hms]; simp)
    rw [hms, List.forall_mem_append] at hacc
    have hm := hacc.2 m (List.mem_singleton_self m)
    rw [fields, hms, members_withComma ms (List.cons_ne_nil m []), List.append_assoc, List.length_append,
      List.length_singleton, show ms.length + 1 + fuel + 1 = fuel + 2 + ms.length by omega]
    have hprefix := readAll_prefix (fuel + 2) [] ms hacc.1 (Json.members ([m].map Member.bytes) ++ t.closing)
    refine hprefix.trans ?_
    have hlast : Json.members ([m].map Member.bytes) = m.bytes := List.append_nil _
    rw [List.nil_append, hlast, readAll_accepted _ ms hm h.stops_closing hws, closing]
    cases hc : t.comma with
    | true =>
      rw [if_pos rfl, List.singleton_append, next_comma _ _ hm.spaced.after, readAll_brace _ _ h.inner]
    | false =>
      have hblank : Blank (m.after ++ t.inner) := List.forall_mem_append.2 ⟨hm.spaced.after, h.inner⟩
      rw [if_neg (by decide), List.nil_append, ← List.append_assoc, next_brace _ _ hblank]

/-- **A frame put together from members the reader takes** is read as the last texts of its keys say. -/
theorem Accepted.decode (h : t.Accepted) : decodeRequest t.bytes = t.fields.request := by
  have hlen := members_length t.members
  have hfuel : t.members.length < t.bytes.length := by
    rw [bytes, List.length_cons, List.length_append]
    omega
  have hread := h.readAll hfuel
  have htail : skipWs t.tail = [] := by
    rw [← List.append_nil t.tail, skipWs_blank h.tail]
    rfl
  rw [decodeRequest, bytes, expect, if_pos rfl, ← bytes]
  simp only [hread, htail, ne_eq, not_true, if_false]

end FrameText

/-! ## What is accepted is a frame -/

theorem of_next {fuel : Nat} {f : Fields} {bs : List UInt8} {p : Fields × List UInt8} (h : next fuel f bs = .ok p) :
    ∃ after, Blank after ∧ ((∃ cs, bs = after ++ ','.toUInt8 :: cs ∧ Fields.readAll fuel f cs = .ok p) ∨
      bs = after ++ '}'.toUInt8 :: p.2) := by
  obtain ⟨after, hafter, hbs⟩ := exists_blank bs
  refine ⟨after, hafter, ?_⟩
  rw [next] at h
  split at h
  · cases h
  rename_i b cs hws
  rw [hws] at hbs
  split at h
  · rename_i hcomma
    exact .inl ⟨cs, hcomma ▸ hbs, h⟩
  split at h
  · rename_i hbrace
    cases h
    exact .inr (hbrace ▸ hbs)
  · cases h

/-- A round of the loop: the closing brace, or a member and what follows it. -/
theorem of_round {fuel : Nat} {f : Fields} {bs : List UInt8} {p : Fields × List UInt8}
    (h : Fields.readAll (fuel + 1) f bs = .ok p) :
    (∃ ws, Blank ws ∧ bs = ws ++ '}'.toUInt8 :: p.2) ∨
      ∃ m f₁ cs, Accepted m ∧ m.after = [] ∧ (m.value = [] → skipWs cs = cs) ∧ bs = m.bytes ++ cs ∧
        next fuel f₁ cs = .ok p := by
  obtain ⟨before, hbefore, hbs⟩ := exists_blank bs
  rw [Fields.readAll] at h
  split at h
  · cases h
  rename_i b cs hws
  rw [hws] at hbs
  split at h
  · rename_i hbrace
    cases h
    exact .inl ⟨before, hbefore, hbrace ▸ hbs⟩
  split at h
  · cases h
  rename_i key ds hkey
  obtain ⟨hplain, hds⟩ := of_string hkey
  obtain ⟨colon, hcolon, hes⟩ := exists_blank ds
  split at h
  · cases h
  rename_i es hexpect
  have hcol : skipWs ds = ':'.toUInt8 :: es := by
    cases hws : skipWs ds with
    | nil =>
      rw [hws] at hexpect
      cases hexpect
    | cons c gs =>
      rw [hws, expect] at hexpect
      split at hexpect
      · rename_i hc
        cases hexpect
        rw [hc]
      · cases hexpect
  split at h
  · cases h
  rename_i f₁ gs hread
  obtain ⟨lead, v, hlead, hv, hgs, hnil⟩ := of_read hread
  refine .inr ⟨⟨before, key, colon, lead, v, []⟩, f₁, gs,
    ⟨⟨hbefore, hcolon, hlead, JsonText.blank_nil⟩, hplain, hv, fun _ => rfl⟩, rfl, hnil, ?_, h⟩
  rw [hbs, hds, hes, hcol, hgs, Member.bytes_append, List.nil_append]

/-- A member takes the blanks behind it, up to a delimiter. -/
theorem Accepted.exists_after {m : Member} (h : Accepted m) (hm : m.after = []) {after : List UInt8} (hafter : Blank after)
    {b : UInt8} {cs : List UInt8} (hb : isWs b = false) (hnil : m.value = [] → skipWs (after ++ b :: cs) = after ++ b :: cs) :
    ∃ m', Accepted m' ∧ ∀ rest, m'.bytes ++ rest = m.bytes ++ (after ++ rest) := by
  refine ⟨{ m with after }, ⟨⟨h.spaced.before, h.spaced.colon, h.spaced.lead, hafter⟩, h.key, h.value, fun hv => ?_⟩,
    fun rest => ?_⟩
  · have hws := hnil hv
    rw [skipWs_blank hafter, skipWs_of_not hb] at hws
    exact List.length_eq_zero_iff.1 (by simpa using congrArg List.length hws)
  · simp only [Member.bytes, hm, List.append_assoc, List.cons_append, List.nil_append]

namespace FrameText

theorem of_readAll {fuel : Nat} {f : Fields} {bs : List UInt8} {p : Fields × List UInt8}
    (h : Fields.readAll fuel f bs = .ok p) (htail : Blank p.2) :
    ∃ t : FrameText, t.Accepted ∧ (t.comma = false → t.members ≠ [] → t.inner = []) ∧
      bs = Json.members (t.members.map Member.bytes) ++ t.closing := by
  induction fuel generalizing f bs with
  | zero => cases h
  | succ fuel ih =>
    rcases of_round h with ⟨ws, hws, hbs⟩ | ⟨m, f₁, cs, hm, hafter, hnil, hbs, hnext⟩
    · refine ⟨⟨[], false, ws, p.2⟩, ⟨?_, hws, htail, (fun h => by cases h), fun _ => .inr ?_⟩,
        fun _ hne => absurd rfl hne, hbs⟩
      · exact fun m hm => absurd hm List.not_mem_nil
      · exact fun m hm => absurd hm List.not_mem_nil
    obtain ⟨after, hblank, hcs⟩ := of_next hnext
    rcases hcs with ⟨ds, hcs, hrest⟩ | hcs
    · obtain ⟨t, ht, hinner, hds⟩ := ih hrest
      obtain ⟨m', hm', hbytes⟩ := hm.exists_after hafter hblank (b := ','.toUInt8) (by decide) (fun h => hcs ▸ hnil h)
      have hmembers : ∀ n ∈ m' :: t.members, Wire.Accepted n := List.forall_mem_cons.2 ⟨hm', ht.members⟩
      rcases Classical.em (t.members = []) with hempty | hne
      · -- The comma is the last thing before the brace.
        have hcomma : t.comma = false := by
          by_contra hc
          exact ht.comma (Bool.not_eq_false _ ▸ hc) hempty
        refine ⟨⟨[m'], true, t.inner, t.tail⟩, ⟨hempty ▸ hmembers, ht.inner, ht.tail, fun _ => List.cons_ne_nil _ _,
          (fun h => by cases h)⟩, (fun h => by cases h), ?_⟩
        rw [hbs, hcs, hds, closing, hcomma, hempty, ← hbytes, List.map_cons, JsonText.members_append]
        rfl
      · refine ⟨{ t with members := m' :: t.members },
          ⟨hmembers, ht.inner, ht.tail, fun _ => List.cons_ne_nil _ _, fun hc => .inl (hinner hc hne)⟩,
          fun hc _ => hinner hc hne, ?_⟩
        rw [hbs, hcs, hds, List.map_cons, JsonText.members_append, if_neg (by simpa using hne), ← hbytes]
        rfl
    · obtain ⟨m', hm', hbytes⟩ := hm.exists_after hafter hblank (b := '}'.toUInt8) (by decide) (fun h => hcs ▸ hnil h)
      refine ⟨⟨[m'], false, [], p.2⟩, ⟨fun n hn => List.mem_singleton.1 hn ▸ hm', JsonText.blank_nil, htail,
        (fun h => by cases h),
        fun _ => .inl rfl⟩, fun _ _ => rfl, ?_⟩
      rw [hbs, hcs, ← hbytes, List.map_cons, JsonText.members_append]
      rfl

theorem of_decodeRequest {frame : List UInt8} {r : Request} (h : decodeRequest frame = .ok r) :
    ∃ bs p, frame = '{'.toUInt8 :: bs ∧ Fields.readAll frame.length {} bs = .ok p ∧ Blank p.2 := by
  rw [decodeRequest] at h
  cases frame with
  | nil => cases h
  | cons b bs =>
    by_cases hb : b = '{'.toUInt8
    · subst hb
      rw [expect, if_pos rfl] at h
      simp only at h
      split at h
      · cases h
      rename_i f rest hread
      split at h
      · cases h
      rename_i hws
      obtain ⟨ws, hblank, hrest⟩ := exists_blank rest
      rw [not_not.1 hws, List.append_nil] at hrest
      exact ⟨bs, (f, rest), rfl, hread, hrest ▸ hblank⟩
    · rw [expect, if_neg hb] at h
      cases h

/-- **A frame that makes a request** is put together from members the reader takes. -/
theorem exists_accepted {frame : List UInt8} {r : Request} (h : decodeRequest frame = .ok r) :
    ∃ t : FrameText, t.Accepted ∧ t.bytes = frame := by
  obtain ⟨bs, p, rfl, hread, htail⟩ := of_decodeRequest h
  obtain ⟨t, ht, -, hbs⟩ := of_readAll hread htail
  exact ⟨t, ht, by rw [bytes, ← hbs]⟩

/-- **What is accepted**: the frames put together from members the reader takes, whose fields make a request. -/
theorem decodeRequest_ok_iff {frame : List UInt8} {r : Request} :
    decodeRequest frame = .ok r ↔ ∃ t : FrameText, t.Accepted ∧ t.bytes = frame ∧ t.fields.request = .ok r := by
  constructor
  · intro h
    obtain ⟨t, ht, rfl⟩ := exists_accepted h
    exact ⟨t, ht, rfl, ht.decode ▸ h⟩
  · rintro ⟨t, ht, rfl, h⟩
    rw [ht.decode, h]

end FrameText

end Wire
end Celium
