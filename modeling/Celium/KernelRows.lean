import Celium.Lib.Runs
import Celium.WireFrame
import Celium.WireReply
/-!
# KernelRows — what the kernel lists, as the host reads it

Any lines, on hardware that does as it likes.  A book is kept of the `Create` that made each VM that is there, from the
lines and the replies to them, and the side tables of the kernel agree with the book in every state reached.  A request
string holds no quote and no backslash, since the scanner stops at the one and refuses the other; what is left for a
`Create` to see to is that its texts are UTF-8 without control characters.
-/
namespace Celium

open Runs

namespace Wire

/-! ## The strings of a request -/

/-- The texts of a `Create` as far as they are read. -/
def Fields.Unescaped (f : Fields) : Prop := (∀ l ∈ f.label, Wire.Unescaped l) ∧ ∀ p ∈ f.imagePath, Wire.Unescaped p

theorem unescaped_content {v : List UInt8} (h : IsText v) : Unescaped (content v) := by
  obtain ⟨s, hs, rfl⟩ := h
  rw [content_quoted]
  exact hs

theorem FrameText.Accepted.unescaped {t : FrameText} (h : t.Accepted) : t.fields.Unescaped := by
  constructor
  · intro l hl
    obtain ⟨v, hv, rfl⟩ := Option.map_eq_some_iff.1 hl
    exact unescaped_content (h.reads hv)
  · intro p hp
    obtain ⟨v, hv, hcontent⟩ := Option.bind_eq_some_iff.1 hp
    rw [unlessNull] at hcontent
    split at hcontent
    · cases hcontent
    · rename_i hnull
      cases hcontent
      exact unescaped_content ((h.reads hv).resolve_left hnull)

/-- **The texts of a `Create` that is read hold no quote and no backslash.** -/
theorem decodeRequest_unescaped {frame label : List UInt8} {imagePath : Option (List UInt8)} {cpuCount : Option UInt32}
    {memoryMib : Option UInt64} {crc : Option UInt32}
    (h : decodeRequest frame = .ok (.create label imagePath cpuCount memoryMib crc)) :
    Unescaped label ∧ ∀ p ∈ imagePath, Unescaped p := by
  obtain ⟨t, ht, -, hrequest⟩ := FrameText.decodeRequest_ok_iff.1 h
  obtain ⟨-, hlabel, rfl, -⟩ := of_request hrequest
  exact ⟨ht.unescaped.1 label hlabel, ht.unescaped.2⟩

end Wire

/-! ## The bytes of a `listed` -/

namespace Wire

theorem decimal_ge (n : Nat) : ∀ b ∈ Json.decimal n, 32 ≤ b := by
  intro b hb
  have hdigit := isDigit_decimal n b hb
  simp only [isDigit, Bool.and_eq_true, decide_eq_true_eq] at hdigit
  exact UInt8.le_trans (by decide) hdigit.1

theorem putOption_ge {name : String} (hname : ∀ b ∈ Text.utf8 name, 32 ≤ b) (n : Option Nat) :
    ∀ b ∈ (putOption name n).flatten, 32 ≤ b := by
  cases n with
  | none => exact fun b hb => by cases hb
  | some n =>
    intro b hb
    simp only [putOption, Option.toList_some, List.flatMap_cons, List.flatMap_nil, List.append_nil, List.flatten_cons,
      List.flatten_nil, List.mem_append] at hb
    rcases hb with hb | hb
    · exact hname b hb
    · exact decimal_ge n b hb

set_option maxRecDepth 10000 in
/-- No control byte is in a row whose texts can be read. -/
theorem Row.puts_ge {row : Row} (h : row.Readable) : ∀ b ∈ row.puts.flatten, 32 ≤ b := by
  have hlabel : ∀ b ∈ row.label.asSlice, 32 ≤ b := fun b hb => (h.1.2 b hb).2.2
  have hpath : ∀ b ∈ row.imagePath.asSlice, 32 ≤ b := fun b hb => (h.2.2 b hb).2.2
  have htag : ∀ b ∈ Text.utf8 row.state.tag, 32 ≤ b := by cases row.state <;> decide
  have hlits : ∀ s ∈ ["\x7b\"vm_id\":", ",\"label\":\"", "\",\"state\":\"", "\"", ",\"image_path\":\"", "\x7d"],
      ∀ b ∈ Text.utf8 s, 32 ≤ b := by decide
  intro b hb
  simp only [Row.puts, List.flatten_append, List.mem_append] at hb
  rcases hb with ((((((hb | hb) | hb) | hb) | hb) | hb) | hb)
  · simp only [List.flatten_cons, List.flatten_nil, List.append_nil, List.mem_append] at hb
    rcases hb with hb | hb | hb | hb | hb | hb | hb
    · exact hlits _ (by simp) b hb
    · exact decimal_ge _ b hb
    · exact hlits _ (by simp) b hb
    · exact hlabel b hb
    · exact hlits _ (by simp) b hb
    · exact htag b hb
    · exact hlits _ (by simp) b hb
  · exact putOption_ge (by decide) _ b hb
  · split at hb
    · cases hb
    · simp only [List.flatten_cons, List.flatten_nil, List.append_nil, List.mem_append] at hb
      rcases hb with hb | hb | hb
      · exact hlits _ (by simp) b hb
      · exact hpath b hb
      · exact hlits _ (by simp) b hb
  · exact putOption_ge (by decide) _ b hb
  · exact putOption_ge (by decide) _ b hb
  · exact putOption_ge (by decide) _ b hb
  · simp only [List.flatten_cons, List.flatten_nil, List.append_nil] at hb
    exact hlits _ (by simp) b hb

set_option maxRecDepth 10000 in
theorem rowsPuts_ge {rows : List Row} (h : ∀ row ∈ rows, row.Readable) : ∀ b ∈ (rowsPuts rows).flatten, 32 ≤ b := by
  have hcomma : ∀ b ∈ Text.utf8 ",", 32 ≤ b := by decide
  cases rows with
  | nil => exact fun b hb => by cases hb
  | cons row rows =>
    intro b hb
    rw [rowsPuts, List.flatten_append, List.mem_append] at hb
    rcases hb with hb | hb
    · exact Row.puts_ge (h row List.mem_cons_self) b hb
    · obtain ⟨p, hp, hb⟩ := List.mem_flatten.1 hb
      obtain ⟨r, hr, hp⟩ := List.mem_flatMap.1 hp
      rcases List.mem_cons.1 hp with rfl | hp
      · exact hcomma b hb
      · exact Row.puts_ge (h r (List.mem_cons_of_mem _ hr)) b (List.mem_flatten.2 ⟨p, hp, hb⟩)

set_option maxRecDepth 10000 in
theorem listed_puts_ge {table : Fin rowsMax → Option Row} (h : ∀ row ∈ Reply.rows table, row.Readable) :
    ∀ b ∈ (Reply.listed table).puts.flatten, 32 ≤ b := by
  have hlits : ∀ s ∈ ["\x7b\"reply\":\"listed\",\"rows\":[", "]\x7d"], ∀ b ∈ Text.utf8 s, 32 ≤ b := by decide
  intro b hb
  simp only [Reply.puts, List.cons_append, List.flatten_cons, List.flatten_append, List.flatten_nil, List.append_nil,
    List.mem_append] at hb
  rcases hb with hb | hb | hb
  · exact hlits _ (by simp) b hb
  · exact rowsPuts_ge h b hb
  · exact hlits _ (by simp) b hb

end Wire

/-! ## The book -/

/-- What a VM was created with. -/
structure Creation where
  label : List UInt8
  imagePath : Option (List UInt8)
  cpuCount : Option UInt32
  memoryMib : Option UInt64
  bootBlobCrc32c : Option UInt32
deriving DecidableEq

def Creation.ofRequest : Wire.Request → Option Creation
  | .create label imagePath cpuCount memoryMib crc => some ⟨label, imagePath, cpuCount, memoryMib, crc⟩
  | _ => none

def Creation.Readable (c : Creation) : Prop := Wire.Readable c.label ∧ ∀ p ∈ c.imagePath, Wire.Readable p

/-- The host's row is what the `Create` said; an empty path is none. -/
structure HyperVmRow.MadeBy (r : HyperVmRow) (c : Creation) : Prop where
  label : Text.utf8 r.label = c.label
  imagePath : r.imagePath.map Text.utf8 = c.imagePath.filter (· ≠ [])
  cpuCount : r.cpuCount = c.cpuCount
  memoryMib : r.memoryMib = c.memoryMib
  bootBlobCrc32c : r.bootBlobCrc32c = c.bootBlobCrc32c

namespace Kernel

/-- The `Create` that a line is, if it is one. -/
def creation (line : Line) : Option Creation :=
  match readLine line with
  | .error _ => none
  | .ok frame =>
    match Wire.decodeRequest frame with
    | .error _ => none
    | .ok req => Creation.ofRequest req

/-- Which `Create` made each VM that is there. -/
abbrev Book : Type := UInt32 → Option Creation

/-- The book after a line, the `Create` it is if it is one, and the reply to it. -/
def Book.enter (book : Book) (c : Option Creation) : Option Wire.Reply → Book
  | some (.created vmId) => Function.update book vmId c
  | some (.deleted vmId) => Function.update book vmId none
  | _ => book

/-- A turn of the loop, with the book kept. -/
def bookedTurn (s : Kernel × Book) (input : Hardware × Line) : Option Wire.Reply × (Kernel × Book) :=
  ((s.1.turn input).1, ((s.1.turn input).2, s.2.enter (creation input.2) (s.1.turn input).1))

/-- The host reads the bytes of a line as the VMs of the book, one row for each. -/
def ReadBack (book : Book) (bytes : List UInt8) : Prop :=
  ∃ body rs, bytes = body ++ ['\n'.toUInt8] ∧ '\n'.toUInt8 ∉ body ∧ HyperReply.fromBytes body = some (.listed rs) ∧
    (rs.map HyperVmRow.vmId).Nodup ∧ (∀ vmId c, book vmId = some c → ∃ r ∈ rs, r.vmId = vmId ∧ r.MadeBy c) ∧
    ∀ r ∈ rs, book r.vmId ≠ none

/-- Valid UTF-8 without a control character. -/
def Legible (bs : List UInt8) : Prop := Text.ofUtf8 bs ≠ none ∧ ∀ b ∈ bs, 32 ≤ b

/-- If the line is a `Create` for which there is a slot and hardware, its texts are legible. -/
def LegibleLine (s : Kernel × Book) (input : Hardware × Line) : Prop :=
  ∀ c ∈ creation input.2, s.1.manager.freeSlot ≠ none → input.1.create = none →
    Legible c.label ∧ ∀ p ∈ c.imagePath, Legible p

/-! ## The side tables and the book -/

/-- Slot `i` holds what the `Create` said. -/
structure Holds (k : Kernel) (i : Fin maxVms) (c : Creation) : Prop where
  label : (k.labels i).asSlice = c.label
  imagePath : (k.extras i).imagePath.asSlice = c.imagePath.getD []
  cpuCount : (k.extras i).cpuCount = c.cpuCount
  memoryMib : (k.extras i).memoryMib = c.memoryMib
  bootBlobCrc32c : (k.extras i).bootBlobCrc32c = c.bootBlobCrc32c

/-- A slot with a VM that was not deleted. -/
def Present (k : Kernel) (i : Fin maxVms) : Prop :=
  k.manager.deleted i = false ∧ (k.manager.registry i).isSome = true

variable {k k' : Kernel} {book : Book}

theorem Present.congr {i : Fin maxVms} (h : k.Present i) (hdel : k'.manager.deleted i = k.manager.deleted i)
    (hreg : (k'.manager.registry i).isSome = (k.manager.registry i).isSome) : k'.Present i :=
  ⟨hdel ▸ h.1, hreg ▸ h.2⟩

theorem Holds.congr {i : Fin maxVms} {c : Creation} (h : k.Holds i c) (hlabel : k'.labels i = k.labels i)
    (hextras : k'.extras i = k.extras i) : k'.Holds i c := by
  constructor
  · rw [hlabel, h.label]
  · rw [hextras, h.imagePath]
  · rw [hextras, h.cpuCount]
  · rw [hextras, h.memoryMib]
  · rw [hextras, h.bootBlobCrc32c]

structure Kept (k : Kernel) (book : Book) : Prop where
  occupied : ∀ i, (k.manager.registry i).isSome = true → k.manager.occupied i = true
  deleted : ∀ i, k.manager.deleted i = true → (k.manager.registry i).isSome = true
  present : ∀ i, k.Present i → ∃ c, book (UInt32.ofNat i) = some c ∧ k.Holds i c
  made : ∀ vmId c, book vmId = some c → c.Readable ∧ ∃ i : Fin maxVms, vmId = UInt32.ofNat i ∧ k.Present i

theorem kept_init : Kept .init (fun _ => none) where
  occupied := fun _ h => by cases h
  deleted := fun _ h => by cases h
  present := fun _ h => by cases h.2
  made := fun _ _ h => by cases h

/-- What the book speaks of is left as it is. -/
theorem Kept.congr (h : Kept k book) (hocc : ∀ i, k.manager.occupied i = true → k'.manager.occupied i = true)
    (hdel : k'.manager.deleted = k.manager.deleted)
    (hreg : ∀ i, (k'.manager.registry i).isSome = (k.manager.registry i).isSome) (hlabels : k'.labels = k.labels)
    (hextras : k'.extras = k.extras) : Kept k' book where
  occupied := fun i hi => hocc i (h.occupied i (hreg i ▸ hi))
  deleted := fun i hi => hreg i ▸ h.deleted i (hdel ▸ hi)
  present := fun i hi => by
    obtain ⟨c, hc, hholds⟩ := h.present i ⟨hdel ▸ hi.1, hreg i ▸ hi.2⟩
    exact ⟨c, hc, hholds.congr (congrFun hlabels i) (congrFun hextras i)⟩
  made := fun vmId c hc => by
    obtain ⟨hread, i, hi, hpres⟩ := h.made vmId c hc
    exact ⟨hread, i, hi, hdel ▸ hpres.1, hreg i ▸ hpres.2⟩

end Kernel

namespace Manager

variable (m : Manager)

/-- A VM is changed in its slot. -/
theorem setVm_isSome {i : Fin maxVms} {vm : Vm} (hvm : m.registry i = some vm) (vm' : Vm) (j : Fin maxVms) :
    ((m.setVm i vm').registry j).isSome = (m.registry j).isSome := by
  by_cases hj : j = i
  · subst hj
    simp [setVm, hvm]
  · simp [setVm, Function.update_of_ne hj]

/-- Starts and stops change VMs in their slots and nothing else. -/
theorem startVm_slots (hw : Hardware) (id : UInt32) :
    (m.startVm hw id).2.runtimeReady = m.runtimeReady ∧ (m.startVm hw id).2.occupied = m.occupied ∧
      (m.startVm hw id).2.deleted = m.deleted ∧
      ∀ j, ((m.startVm hw id).2.registry j).isSome = (m.registry j).isSome := by
  unfold startVm
  split
  · exact ⟨rfl, rfl, rfl, fun _ => rfl⟩
  · rename_i i vm hlookup
    split
    · exact ⟨rfl, rfl, rfl, fun _ => rfl⟩
    · split
      · exact ⟨rfl, rfl, rfl, fun _ => rfl⟩
      · exact ⟨rfl, rfl, rfl, m.setVm_isSome (m.lookup_ok.1 hlookup).2 _⟩

theorem stopVm_slots (id : UInt32) :
    (m.stopVm id).2.runtimeReady = m.runtimeReady ∧ (m.stopVm id).2.occupied = m.occupied ∧
      (m.stopVm id).2.deleted = m.deleted ∧
      ∀ j, ((m.stopVm id).2.registry j).isSome = (m.registry j).isSome := by
  unfold stopVm
  split
  · exact ⟨rfl, rfl, rfl, fun _ => rfl⟩
  · rename_i i vm hlookup
    split
    · exact ⟨rfl, rfl, rfl, fun _ => rfl⟩
    · exact ⟨rfl, rfl, rfl, m.setVm_isSome (m.lookup_ok.1 hlookup).2 _⟩

end Manager

namespace Kernel

variable {k k' : Kernel} {book : Book}

theorem stateReply_snd (vmId : UInt32) (r : HyperResult Unit × Manager) :
    (k.stateReply vmId r).2 = { k with manager := r.2 } := by
  obtain ⟨_ | _, m⟩ := r <;> rfl

/-- A `Start` or a `Stop` is answered with a state or an error, and neither goes into the book. -/
theorem stateReply_fst {vmId : UInt32} {r : HyperResult Unit × Manager} {reply : Wire.Reply}
    (h : (k.stateReply vmId r).1 = .ok reply) : ∃ st lastExit, reply = .state vmId st lastExit := by
  obtain ⟨_ | _, m⟩ := r
  · cases h
  · obtain ⟨p, -, hp⟩ := Wire.of_map_ok h
    exact ⟨_, _, hp.symm⟩

theorem Kept.state (h : Kept k book) (vmId : UInt32) {r : HyperResult Unit × Manager}
    (hocc : r.2.occupied = k.manager.occupied) (hdel : r.2.deleted = k.manager.deleted)
    (hreg : ∀ i, (r.2.registry i).isSome = (k.manager.registry i).isSome) : Kept (k.stateReply vmId r).2 book := by
  rw [stateReply_snd]
  exact h.congr (fun i hi => hocc ▸ hi) hdel hreg rfl rfl

/-- A new VM goes into a slot that never had one. -/
theorem Kept.withVm (h : Kept k book) {i : Fin maxVms} (hi : k.manager.freeSlot = some i) {c : Creation}
    (hread : c.Readable) {l : Wire.Buf Wire.labelMax} {p : Wire.Buf Wire.imagePathMax} (hl : l.asSlice = c.label)
    (hp : p.asSlice = c.imagePath.getD []) :
    Kept (k.withVm i l ⟨p, c.cpuCount, c.memoryMib, c.bootBlobCrc32c⟩)
      (Function.update book (UInt32.ofNat i) (some c)) := by
  have hfree : k.manager.occupied i = false := by simpa using List.find?_some hi
  have hnone : k.manager.registry i = none := by
    cases hreg : k.manager.registry i with
    | none => rfl
    | some vm =>
      have := h.occupied i (by rw [hreg]; rfl)
      rw [hfree] at this
      cases this
  have hdel : k.manager.deleted i = false := by
    cases hd : k.manager.deleted i with
    | false => rfl
    | true =>
      have := h.deleted i hd
      rw [hnone] at this
      cases this
  have hother : ∀ j, j ≠ i → (k.withVm i l ⟨p, c.cpuCount, c.memoryMib, c.bootBlobCrc32c⟩).manager.registry j =
      k.manager.registry j := fun j hj => Function.update_of_ne hj _ _
  constructor
  · intro j hj
    by_cases hji : j = i
    · subst hji
      exact Function.update_self ..
    · rw [hother j hji] at hj
      exact (Function.update_of_ne hji _ _).trans (h.occupied j hj)
  · intro j hj
    have hji : j ≠ i := by
      rintro rfl
      rw [show (k.withVm j l _).manager.deleted j = k.manager.deleted j from rfl, hdel] at hj
      cases hj
    rw [hother j hji]
    exact h.deleted j hj
  · intro j hj
    by_cases hji : j = i
    · subst hji
      refine ⟨c, Function.update_self _ _ _, ?_⟩
      constructor <;> simp [Kernel.withVm, hl, hp]
    · obtain ⟨c', hc', hholds⟩ := h.present j (hj.congr rfl (congrArg Option.isSome (hother j hji).symm))
      refine ⟨c', (Function.update_of_ne (fun h => hji (ofNat_inj h)) _ _).trans hc', hholds.congr ?_ ?_⟩
      · exact Function.update_of_ne hji _ _
      · exact Function.update_of_ne hji _ _
  · intro vmId c' hc'
    by_cases hvm : vmId = UInt32.ofNat i
    · rw [hvm, Function.update_self] at hc'
      cases hc'
      refine ⟨hread, i, hvm, hdel, ?_⟩
      simp [Kernel.withVm, Manager.allocate, hnone]
    · rw [Function.update_of_ne hvm] at hc'
      obtain ⟨hread', j, hj, hpres⟩ := h.made vmId c' hc'
      have hji : j ≠ i := fun hji => hvm (hji ▸ hj)
      exact ⟨hread', j, hj, hpres.congr rfl (congrArg Option.isSome (hother j hji))⟩

/-- A delete hides a VM and empties its tables. -/
theorem Kept.delete (h : Kept k book) {i : Fin maxVms} (hi : k.Present i) :
    Kept (Kernel.forget { k with manager := { k.manager with deleted := Function.update k.manager.deleted i true } } i)
      (Function.update book (UInt32.ofNat i) none) := by
  constructor
  · exact h.occupied
  · intro j hj
    by_cases hji : j = i
    · exact hji ▸ hi.2
    · exact h.deleted j ((Function.update_of_ne hji _ _).symm.trans hj)
  · intro j hj
    have hji : j ≠ i := by
      rintro rfl
      have := hj.1
      simp [forget] at this
    obtain ⟨c, hc, hholds⟩ := h.present j (hj.congr (Function.update_of_ne hji _ _).symm rfl)
    refine ⟨c, (Function.update_of_ne (fun h => hji (ofNat_inj h)) _ _).trans hc, hholds.congr ?_ ?_⟩
    · exact Function.update_of_ne hji _ _
    · exact Function.update_of_ne hji _ _
  · intro vmId c hc
    by_cases hvm : vmId = UInt32.ofNat i
    · rw [hvm, Function.update_self] at hc
      cases hc
    · rw [Function.update_of_ne hvm] at hc
      obtain ⟨hread, j, hj, hpres⟩ := h.made vmId c hc
      have hji : j ≠ i := fun hji => hvm (hji ▸ hj)
      exact ⟨hread, j, hj, hpres.congr (Function.update_of_ne hji _ _) rfl⟩

/-- What the book is after a request and its outcome. -/
def Book.after (book : Book) (req : Wire.Request) : HyperResult Wire.Reply → Book
  | .error _ => book
  | .ok reply => book.enter (Creation.ofRequest req) (some reply)

/-- **A request keeps the book.** -/
theorem Kept.dispatch (h : Kept k book) (hw : Hardware) {req : Wire.Request}
    (hread : ∀ c ∈ Creation.ofRequest req, k.manager.freeSlot ≠ none → hw.create = none → c.Readable) :
    Kept (k.dispatch hw req).2 (book.after req (k.dispatch hw req).1) := by
  cases req with
  | create label imagePath cpuCount memoryMib crc =>
    simp only [Kernel.dispatch]
    rcases k.create_cases hw label imagePath cpuCount memoryMib crc with
      ⟨e, occupied, hc, -, hocc⟩ | ⟨i, l, p, hi, hl, hp, hc, hhw⟩
    · rw [hc]
      exact h.congr hocc rfl (fun _ => rfl) rfl rfl
    · rw [hc]
      exact h.withVm hi (c := ⟨label, imagePath, cpuCount, memoryMib, crc⟩) (hread _ rfl (by simp [hi]) hhw) hl hp
  | start vmId =>
    obtain ⟨-, hocc, hdel, hreg⟩ := k.manager.startVm_slots hw vmId
    have hkept := h.state vmId hocc hdel hreg
    simp only [Kernel.dispatch]
    cases hr : (k.stateReply vmId (k.manager.startVm hw vmId)).1 with
    | error e => exact hkept
    | ok reply =>
      obtain ⟨st, lastExit, rfl⟩ := stateReply_fst hr
      exact hkept
  | stop vmId =>
    obtain ⟨-, hocc, hdel, hreg⟩ := k.manager.stopVm_slots vmId
    have hkept := h.state vmId hocc hdel hreg
    simp only [Kernel.dispatch]
    cases hr : (k.stateReply vmId (k.manager.stopVm vmId)).1 with
    | error e => exact hkept
    | ok reply =>
      obtain ⟨st, lastExit, rfl⟩ := stateReply_fst hr
      exact hkept
  | delete vmId =>
    simp only [Kernel.dispatch]
    rcases k.manager.deleteVm_cases vmId with ⟨e, hd⟩ | ⟨i, vm, hi, hvm, hdel, hd⟩
    · rw [hd]
      exact h
    · rw [hd]
      obtain rfl : vmId = UInt32.ofNat i := by rw [← hi, UInt32.ofNat_toNat]
      exact h.delete ⟨hdel, by rw [hvm]; rfl⟩
  | list => exact h
  | imageLoad len crc32c bytesHex =>
    simp only [Kernel.dispatch]
    split
    · exact h.congr (fun _ hi => hi) rfl (fun _ => rfl) rfl rfl
    · exact h.congr (fun _ hi => hi) rfl (fun _ => rfl) rfl rfl

theorem Legible.readable {bs : List UInt8} (h : Legible bs) (hesc : Wire.Unescaped bs) : Wire.Readable bs := by
  obtain ⟨s, hs⟩ := Option.ne_none_iff_exists'.1 h.1
  exact ⟨⟨s, Text.utf8_of_ofUtf8 hs⟩, fun b hb => ⟨(hesc b hb).1, (hesc b hb).2, h.2 b hb⟩⟩

/-- **A turn keeps the book**, where a `Create` has legible texts. -/
theorem Kept.turn (h : Kept k book) {hw : Hardware} {line : Line} (hline : LegibleLine (k, book) (hw, line)) :
    Kept (k.turn (hw, line)).2 (book.enter (creation line) (k.turn (hw, line)).1) := by
  unfold LegibleLine creation at hline
  unfold Kernel.turn creation
  cases hframe : readLine line with
  | error e => exact h
  | ok frame =>
    rw [hframe] at hline
    simp only [answer] at hline ⊢
    split
    · exact h
    · cases hreq : Wire.decodeRequest frame with
      | error e => exact h
      | ok req =>
        rw [hreq] at hline
        have hread : ∀ c ∈ Creation.ofRequest req, k.manager.freeSlot ≠ none → hw.create = none → c.Readable := by
          intro c hc hfree hhw
          obtain ⟨hlabel, hpath⟩ := hline c hc hfree hhw
          cases req with
          | create label imagePath cpuCount memoryMib crc =>
            cases hc
            obtain ⟨hl, hp⟩ := Wire.decodeRequest_unescaped hreq
            exact ⟨hlabel.readable hl, fun p hmem => (hpath p hmem).readable (hp p hmem)⟩
          | _ => cases hc
        have hkept := h.dispatch hw hread
        simp only
        rcases hd : k.dispatch hw req with ⟨e | reply, k'⟩
        · rw [hd] at hkept
          exact hkept
        · rw [hd] at hkept
          exact hkept

/-- Only a `List` is answered with rows, and with those of the tables. -/
theorem turn_listed {input : Hardware × Line} {table : Fin Wire.rowsMax → Option Wire.Row}
    (h : (k.turn input).1 = some (.listed table)) : table = k.buildRows := by
  unfold Kernel.turn at h
  split at h
  · cases h
  · simp only [answer] at h
    split at h
    · cases h
    · split at h
      · cases h
      · rename_i req hreq
        split at h
        · cases h
        · rename_i reply k' hdispatch
          obtain rfl := Option.some.inj h
          cases req with
          | create label imagePath cpuCount memoryMib crc =>
            rcases k.create_cases input.1 label imagePath cpuCount memoryMib crc with
              ⟨e, occupied, hc, -⟩ | ⟨i, l, p, -, -, -, hc, -⟩
            · cases hc.symm.trans hdispatch
            · cases hc.symm.trans hdispatch
          | start vmId | stop vmId =>
            obtain ⟨st, lastExit, hr⟩ := stateReply_fst (congrArg Prod.fst hdispatch)
            cases hr
          | delete vmId =>
            simp only [Kernel.dispatch] at hdispatch
            split at hdispatch <;> cases hdispatch
          | list =>
            cases hdispatch
            rfl
          | imageLoad len crc32c bytesHex =>
            simp only [Kernel.dispatch] at hdispatch
            split at hdispatch <;> cases hdispatch

/-! ## The rows -/

theorem mem_rows {row : Wire.Row} :
    row ∈ Wire.Reply.rows k.buildRows ↔ ∃ i, k.Present i ∧ k.buildRows i = some row := by
  refine List.mem_filterMap.trans ?_
  constructor
  · rintro ⟨i, -, hi⟩
    refine ⟨i, ?_, hi⟩
    simp only [buildRows, Manager.listVms, Option.map_eq_some_iff] at hi
    obtain ⟨e, he, -⟩ := hi
    split at he
    · cases he
    · rename_i hdel
      obtain ⟨vm, hvm, -⟩ := Option.map_eq_some_iff.1 he
      exact ⟨by simpa using hdel, by rw [hvm]; rfl⟩
  · rintro ⟨i, -, hi⟩
    exact ⟨i, List.mem_finRange i, hi⟩

theorem buildRows_present {i : Fin maxVms} (h : k.Present i) :
    ∃ row, k.buildRows i = some row ∧ row.vmId = UInt32.ofNat i ∧ row.label = k.labels i ∧
      row.imagePath = (k.extras i).imagePath ∧ row.cpuCount = (k.extras i).cpuCount ∧
      row.memoryMib = (k.extras i).memoryMib ∧ row.bootBlobCrc32c = (k.extras i).bootBlobCrc32c := by
  obtain ⟨vm, hvm⟩ := Option.isSome_iff_exists.1 h.2
  have hlist : k.manager.listVms i = some ⟨UInt32.ofNat i, vm.state, vm.lastExit⟩ := by
    simp [Manager.listVms, h.1, hvm]
  exact ⟨_, congrArg (Option.map _) hlist, rfl, rfl, rfl, rfl, rfl, rfl⟩

/-- A row of the tables is the row of a `Create` in the book. -/
theorem Kept.row (h : Kept k book) {row : Wire.Row} (hrow : row ∈ Wire.Reply.rows k.buildRows) :
    ∃ c, book row.vmId = some c ∧ row.Readable ∧ ∀ r : HyperVmRow, r.Same row → r.MadeBy c := by
  obtain ⟨i, hpres, hi⟩ := mem_rows.1 hrow
  obtain ⟨row', hrow', hid, hlabel, hpath, hcpu, hmem, hcrc⟩ := buildRows_present hpres
  obtain rfl : row = row' := Option.some.inj (hi.symm.trans hrow')
  obtain ⟨c, hc, hholds⟩ := h.present i hpres
  obtain ⟨⟨hrl, hrp⟩, -⟩ := h.made _ c hc
  refine ⟨c, hid ▸ hc, ⟨?_, ?_⟩, fun r hr => ⟨?_, ?_, ?_, ?_, ?_⟩⟩
  · rw [hlabel, hholds.label]
    exact hrl
  · rw [hpath, hholds.imagePath]
    cases hp : c.imagePath with
    | none => exact ⟨⟨"", rfl⟩, fun b hb => by cases hb⟩
    | some p => exact hrp p hp
  · rw [hr.label, hlabel, hholds.label]
  · rw [hr.imagePath, Wire.Buf.shown, hpath, hholds.imagePath]
    cases c.imagePath with
    | none => rfl
    | some p =>
      by_cases hp : p = []
      · simp [hp, Option.filter]
      · simp [hp, Option.filter]
  · rw [hr.cpuCount, hcpu, hholds.cpuCount]
  · rw [hr.memoryMib, hmem, hholds.memoryMib]
  · rw [hr.bootBlobCrc32c, hcrc, hholds.bootBlobCrc32c]

theorem nodup_rows (k : Kernel) : ((Wire.Reply.rows k.buildRows).map Wire.Row.vmId).Nodup := by
  have hnodup : ((List.finRange maxVms).filterMap (fun i => (k.manager.listVms i).map (fun _ => UInt32.ofNat i))).Nodup := by
    refine (List.nodup_finRange maxVms).filterMap ?_
    intro i j id hi hj
    obtain ⟨_, -, rfl⟩ := Option.map_eq_some_iff.1 hi
    obtain ⟨_, -, hj⟩ := Option.map_eq_some_iff.1 hj
    exact (ofNat_inj hj).symm
  refine Eq.mp (congrArg List.Nodup ?_) hnodup
  refine Eq.trans ?_ List.map_filterMap.symm
  refine congrArg (fun f => List.filterMap f (List.finRange maxVms)) (funext fun i => ?_)
  simp only [buildRows, Manager.listVms, Option.map_map]
  split
  · rfl
  · simp only [Option.map_map]
    rfl

theorem same_vmIds {rs : List HyperVmRow} {rows : List Wire.Row} (h : List.Forall₂ HyperVmRow.Same rs rows) :
    rs.map HyperVmRow.vmId = rows.map Wire.Row.vmId := by
  induction h with
  | nil => rfl
  | cons hrow _ ih => rw [List.map_cons, List.map_cons, hrow.vmId, ih]

theorem exists_same_of_mem {rs : List HyperVmRow} {rows : List Wire.Row} (h : List.Forall₂ HyperVmRow.Same rs rows)
    {row : Wire.Row} (hrow : row ∈ rows) : ∃ r ∈ rs, r.Same row := by
  induction h with
  | nil => cases hrow
  | cons hsame _ ih =>
    rcases List.mem_cons.1 hrow with rfl | hrow
    · exact ⟨_, List.mem_cons_self, hsame⟩
    · obtain ⟨r, hr, hsame'⟩ := ih hrow
      exact ⟨r, List.mem_cons_of_mem _ hr, hsame'⟩

/-- **The tables are read back as the book.** -/
theorem Kept.readBack (h : Kept k book) {bytes : List UInt8} (hsent : transmit (.listed k.buildRows) = some bytes) :
    ReadBack book bytes := by
  have hread : ∀ row ∈ Wire.Reply.rows k.buildRows, row.Readable := by
    intro row hrow
    obtain ⟨c, -, hread, -⟩ := h.row hrow
    exact hread
  obtain ⟨rs, hsame⟩ := Wire.exists_same hread
  have hids := same_vmIds hsame
  rw [transmit_eq] at hsent
  split at hsent
  case isFalse => cases hsent
  refine ⟨_, rs, (Option.some.inj hsent).symm, ?_, HyperReply.fromBytes_listed hsame hread, hids ▸ k.nodup_rows, ?_, ?_⟩
  · intro hlf
    exact absurd (Wire.listed_puts_ge hread _ hlf) (by decide)
  · intro vmId c hc
    obtain ⟨-, i, rfl, hpres⟩ := h.made vmId c hc
    obtain ⟨row, hbuilt, hid, -⟩ := buildRows_present hpres
    have hrow := mem_rows.2 ⟨i, hpres, hbuilt⟩
    obtain ⟨c', hc', -, hmade⟩ := h.row hrow
    obtain ⟨r, hr, hrr⟩ := exists_same_of_mem hsame hrow
    obtain rfl : c = c' := Option.some.inj (hc.symm.trans (hid ▸ hc'))
    exact ⟨r, hr, hrr.vmId.trans hid, hmade r hrr⟩
  · intro r hr
    obtain ⟨row, hrow, hid⟩ := List.mem_map.1 (hids ▸ List.mem_map_of_mem hr)
    obtain ⟨c, hc, -⟩ := h.row hrow
    rw [← hid, hc]
    exact Option.some_ne_none c

/-- **Whatever lines come in, every list that is sent is read back as the VMs that are there**, where the texts of every
`Create` that makes a VM are legible. -/
theorem listed_read_back (inputs : List (Hardware × Line))
    (hlegible : Along bookedTurn LegibleLine (Kernel.init, fun _ => none) inputs) :
    ∀ s ∈ states bookedTurn (Kernel.init, fun _ => none) inputs, ∀ input table bytes,
      (s.1.turn input).1 = some (.listed table) → transmit (.listed table) = some bytes → ReadBack s.2 bytes := by
  intro s hs input table bytes hlisted hsent
  have hkept : Kept s.1 s.2 :=
    of_along (I := fun s : Kernel × Book => Kept s.1 s.2) (fun _ _ h hc => h.turn hc) kept_init hlegible s hs
  obtain rfl := turn_listed hlisted
  exact hkept.readBack hsent

def Line.ofString (s : String) (h : '\n'.toUInt8 ∉ Text.utf8 s) : Line := ⟨Text.utf8 s, h⟩

def createLine : Line :=
  .ofString "\x7b\"op\":\"create\",\"label\":\"web\",\"image_path\":\"/img/café\",\"cpu_count\":2\x7d" (by decide +kernel)

def listLine : Line := .ofString "\x7b\"op\":\"list\"\x7d" (by decide +kernel)

theorem listed_read_back_web :
    Along bookedTurn LegibleLine (Kernel.init, fun _ => none) [(.fine, createLine)] ∧
      ∀ s ∈ states bookedTurn (Kernel.init, fun _ => none) [(.fine, createLine)], ∀ input table bytes,
        (s.1.turn input).1 = some (.listed table) → transmit (.listed table) = some bytes → ReadBack s.2 bytes := by
  have hlegible : Along bookedTurn LegibleLine (Kernel.init, fun _ => none) [(.fine, createLine)] := by
    refine ⟨?_, trivial⟩
    intro c hc _ _
    have hcreation : creation createLine =
        some ⟨Text.utf8 "web", some (Text.utf8 "/img/café"), some 2, none, none⟩ := by decide +kernel
    obtain rfl := Option.some.inj (hcreation.symm.trans hc)
    refine ⟨⟨?_, by decide +kernel⟩, ?_⟩
    · rw [Text.ofUtf8_utf8]
      exact Option.some_ne_none _
    · rintro p ⟨⟩
      refine ⟨?_, by decide +kernel⟩
      rw [Text.ofUtf8_utf8]
      exact Option.some_ne_none _
  exact ⟨hlegible, listed_read_back _ hlegible⟩

/-- A label with a tab in it. -/
def tabLine : Line := .ofString "\x7b\"op\":\"create\",\"label\":\"a\tb\"\x7d" (by decide +kernel)

/-- The list that is sent for it. -/
def tabListed : String :=
  "\x7b\"reply\":\"listed\",\"rows\":[\x7b\"vm_id\":0,\"label\":\"a\tb\",\"state\":\"created\"\x7d]\x7d"

/-- **A tab in a label goes into the list as it is**, and the host cannot read that. -/
theorem tab_not_read :
    ¬ ∀ inputs, ∀ s ∈ states bookedTurn (Kernel.init, fun _ => none) inputs, ∀ input table bytes,
      (s.1.turn input).1 = some (.listed table) → transmit (.listed table) = some bytes → ReadBack s.2 bytes := by
  intro hall
  let s := run bookedTurn (Kernel.init, fun _ => none) [(.fine, tabLine)]
  have hlisted : (s.1.turn (.fine, listLine)).1 = some (.listed s.1.buildRows) := by
    decide +kernel
  have hputs : (Wire.Reply.listed s.1.buildRows).puts.flatten = Text.utf8 tabListed := by decide +kernel
  have hsent : transmit (.listed s.1.buildRows) = some (Text.utf8 tabListed ++ ['\n'.toUInt8]) := by
    rw [transmit_eq, hputs, if_pos (by decide +kernel)]
  have hparse : Json.parse tabListed.toList = none := by decide +kernel
  obtain ⟨body, rs, hbody, -, hread, -⟩ :=
    hall [(.fine, tabLine)] s (run_mem_states _ _) (.fine, listLine) _ _ hlisted hsent
  obtain rfl : Text.utf8 tabListed = body := List.append_cancel_right hbody
  rw [HyperReply.fromBytes, Text.ofUtf8_utf8, Option.bind_some, HyperReply.fromStr, hparse] at hread
  cases hread

end Kernel

end Celium
