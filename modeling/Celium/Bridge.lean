import Celium.Manager
import Celium.Lib.Json
/-!
# Bridge — the kernel's side of the line

`celhyper::bridge` and the writer of `celhyper::wire`.  A request line is read, decoded, carried out on the kernel's
state and answered with one line, or with none if the line is blank or too long or the reply does not fit.  Labels and
image data are kept beside the VM table, by slot, and go into a reply as they came.  A reply is written by a sequence of
puts into a buffer of fixed size.
-/
namespace Celium

namespace Wire

def rowsMax : Nat := maxVms

def errorMsgMax : Nat := 96

/-- Bytes in a buffer of `max`: `LabelBuf`, `ImagePathBuf` and `ErrorBuf`. -/
def Buf (max : Nat) : Type := {bs : List UInt8 // bs.length ≤ max}
deriving DecidableEq

namespace Buf

variable {max : Nat}

def empty : Buf max := ⟨[], Nat.zero_le _⟩

def asSlice (b : Buf max) : List UInt8 := b.val

def fromSlice (src : List UInt8) : Option (Buf max) := if h : src.length ≤ max then some ⟨src, h⟩ else none

def fromSliceTruncating (src : List UInt8) : Buf max := ⟨src.take max, List.length_take_le _ _⟩

end Buf

structure Row where
  vmId : UInt32
  label : Buf labelMax
  state : VmState
  lastExit : Option UInt32
  imagePath : Buf imagePathMax
  cpuCount : Option UInt32
  memoryMib : Option UInt64
  bootBlobCrc32c : Option UInt32
deriving DecidableEq

inductive Reply where
  | created (vmId : UInt32)
  | state (vmId : UInt32) (state : VmState) (lastExit : Option UInt32)
  | deleted (vmId : UInt32)
  | listed (rows : Fin rowsMax → Option Row)
  | error (message : Buf errorMsgMax)
  | imageLoaded (len crc32c : UInt32)
deriving DecidableEq

/-! ## The writer -/

/-- The buffer and how much of it is written. -/
structure Writer where
  out : List UInt8
  pos : Nat

namespace Writer

def putStr (w : Writer) (s : List UInt8) : HyperResult Writer :=
  if w.pos + s.length > w.out.length then .error (.exhausted "wire: reply buffer too small")
  else .ok ⟨w.out.take w.pos ++ s ++ w.out.drop (w.pos + s.length), w.pos + s.length⟩

end Writer

/-- An optional number: its name is put with it. -/
def putOption (name : String) (n : Option Nat) : List (List UInt8) :=
  n.toList.flatMap (fun n => [Text.utf8 name, Json.decimal n])

/-- The puts of a row, each but the first after a comma. -/
def Row.puts (row : Row) : List (List UInt8) :=
  [Text.utf8 "\x7b\"vm_id\":", Json.decimal row.vmId.toNat, Text.utf8 ",\"label\":\"", row.label.asSlice,
    Text.utf8 "\",\"state\":\"", Text.utf8 row.state.tag, Text.utf8 "\""] ++
  putOption ",\"last_exit\":" (row.lastExit.map UInt32.toNat) ++
  (if row.imagePath.asSlice = [] then []
   else [Text.utf8 ",\"image_path\":\"", row.imagePath.asSlice, Text.utf8 "\""]) ++
  putOption ",\"cpu_count\":" (row.cpuCount.map UInt32.toNat) ++
  putOption ",\"memory_mib\":" (row.memoryMib.map UInt64.toNat) ++
  putOption ",\"boot_blob_crc32c\":" (row.bootBlobCrc32c.map UInt32.toNat) ++ [Text.utf8 "\x7d"]

def rowsPuts : List Row → List (List UInt8)
  | []          => []
  | row :: rows => row.puts ++ rows.flatMap (fun r => Text.utf8 "," :: r.puts)

/-- How a byte of an error message is written; a control byte is not. -/
def errorByte (b : UInt8) : List UInt8 :=
  if b = '"'.toUInt8 then Text.utf8 "\\\""
  else if b = '\\'.toUInt8 then Text.utf8 "\\\\"
  else if b < 32 then []
  else [b]

def Reply.rows (rows : Fin rowsMax → Option Row) : List Row := (List.finRange rowsMax).filterMap rows

/-- The puts of `encode_reply`, in order. -/
def Reply.puts : Reply → List (List UInt8)
  | .created vmId => [Text.utf8 "\x7b\"reply\":\"created\",\"vm_id\":", Json.decimal vmId.toNat, Text.utf8 "\x7d"]
  | .state vmId st lastExit =>
    [Text.utf8 "\x7b\"reply\":\"state\",\"vm_id\":", Json.decimal vmId.toNat, Text.utf8 ",\"state\":\"",
      Text.utf8 st.tag, Text.utf8 "\""] ++ putOption ",\"last_exit\":" (lastExit.map UInt32.toNat) ++
    [Text.utf8 "\x7d"]
  | .deleted vmId => [Text.utf8 "\x7b\"reply\":\"deleted\",\"vm_id\":", Json.decimal vmId.toNat, Text.utf8 "\x7d"]
  | .listed rows => Text.utf8 "\x7b\"reply\":\"listed\",\"rows\":[" :: rowsPuts (Reply.rows rows) ++ [Text.utf8 "]\x7d"]
  | .error message =>
    Text.utf8 "\x7b\"reply\":\"error\",\"message\":\"" :: message.asSlice.map errorByte ++ [Text.utf8 "\"\x7d"]
  | .imageLoaded len crc32c =>
    [Text.utf8 "\x7b\"reply\":\"image_loaded\",\"len\":", Json.decimal len.toNat, Text.utf8 ",\"crc32c\":",
      Json.decimal crc32c.toNat, Text.utf8 "\x7d"]

def encodeReply (reply : Reply) (out : List UInt8) : HyperResult Writer :=
  (reply.puts ++ [['\n'.toUInt8]]).foldlM Writer.putStr ⟨out, 0⟩

end Wire

/-! ## The side tables -/

structure Extras where
  imagePath : Wire.Buf Wire.imagePathMax
  cpuCount : Option UInt32
  memoryMib : Option UInt64
  bootBlobCrc32c : Option UInt32
deriving DecidableEq

def Extras.empty : Extras := ⟨.empty, none, none, none⟩

structure Kernel where
  manager : Manager
  staged : StagedImage
  labels : Fin maxVms → Wire.Buf Wire.labelMax
  extras : Fin maxVms → Extras

namespace Kernel

open Wire (Request)

def init : Kernel := ⟨.init, .empty, fun _ => .empty, fun _ => .empty⟩

variable (k : Kernel)

def rememberLabel (i : Fin maxVms) (label : List UInt8) : HyperResult Unit × Kernel :=
  match Wire.Buf.fromSlice label with
  | none => (.error (.invalid "bridge: label > 32 chars"), k)
  | some buf => (.ok (), { k with labels := Function.update k.labels i buf })

def rememberExtras (i : Fin maxVms) (imagePath : Option (List UInt8)) (cpuCount : Option UInt32)
    (memoryMib : Option UInt64) (bootBlobCrc32c : Option UInt32) : HyperResult Unit × Kernel :=
  match imagePath.elim (some .empty) Wire.Buf.fromSlice with
  | none => (.error (.invalid "bridge: image_path > 128 chars"), k)
  | some buf => (.ok (), { k with extras := Function.update k.extras i ⟨buf, cpuCount, memoryMib, bootBlobCrc32c⟩ })

/-- `forget_label` and `forget_extras`. -/
def forget (i : Fin maxVms) : Kernel :=
  { k with labels := Function.update k.labels i .empty, extras := Function.update k.extras i .empty }

def buildRows (i : Fin maxVms) : Option Wire.Row :=
  (k.manager.listVms i).map (fun e =>
    { vmId := e.id, label := k.labels i, state := e.state, lastExit := e.lastExit, imagePath := (k.extras i).imagePath,
      cpuCount := (k.extras i).cpuCount, memoryMib := (k.extras i).memoryMib,
      bootBlobCrc32c := (k.extras i).bootBlobCrc32c })

/-! ## Dispatch -/

/-- What a `Create` boots. -/
def bootRequest (crc : Option UInt32) : CreateVmRequest :=
  CreateVmRequest.fromBootImage (BootImage.fromStagedOrEmbedded k.staged crc)

/-- The `Create` arm. -/
def create (hw : Hardware) (label : List UInt8) (imagePath : Option (List UInt8)) (cpuCount : Option UInt32)
    (memoryMib : Option UInt64) (bootBlobCrc32c : Option UInt32) : HyperResult Wire.Reply × Kernel :=
  if label.length > Wire.labelMax then (.error (.invalid "bridge: label > 32 chars"), k)
  else if imagePath.any (fun p => p.length > Wire.imagePathMax) then
    (.error (.invalid "bridge: image_path > 128 chars"), k)
  else
    match k.manager.createVm hw (k.bootRequest bootBlobCrc32c) with
    | (.error e, manager) => (.error e, { k with manager })
    | (.ok i, manager) =>
      match Kernel.rememberLabel { k with manager } i label with
      | (.error e, k) => (.error e, k)
      | (.ok (), k) =>
        match k.rememberExtras i imagePath cpuCount memoryMib bootBlobCrc32c with
        | (.error e, k) => (.error e, k)
        | (.ok (), k) => (.ok (.created (UInt32.ofNat i)), k)

/-- The reply of the `Start` and `Stop` arms: what the VM is after the operation. -/
def stateReply (vmId : UInt32) : HyperResult Unit × Manager → HyperResult Wire.Reply × Kernel
  | (.error e, manager) => (.error e, { k with manager })
  | (.ok (), manager) => ((manager.lookup vmId).map (fun p => .state vmId p.2.state p.2.lastExit), { k with manager })

def dispatch (hw : Hardware) : Request → HyperResult Wire.Reply × Kernel
  | .create label imagePath cpuCount memoryMib bootBlobCrc32c =>
    k.create hw label imagePath cpuCount memoryMib bootBlobCrc32c
  | .start vmId => k.stateReply vmId (k.manager.startVm hw vmId)
  | .stop vmId => k.stateReply vmId (k.manager.stopVm vmId)
  | .delete vmId =>
    match k.manager.deleteVm vmId with
    | (.error e, manager) => (.error e, { k with manager })
    | (.ok i, manager) => (.ok (.deleted vmId), Kernel.forget { k with manager } i)
  | .list => (.ok (.listed k.buildRows), k)
  | .imageLoad len crc32c bytesHex =>
    match k.staged.stageFromHex bytesHex len crc32c with
    | (.error e, staged) => (.error e, { k with staged })
    | (.ok (), staged) => (.ok (.imageLoaded len crc32c), { k with staged })

/-- The kernel with a new VM in slot `i`, and its label and data remembered. -/
def withVm (i : Fin maxVms) (label : Wire.Buf Wire.labelMax) (extras : Extras) : Kernel :=
  { k with
    manager := k.manager.allocate i (k.bootRequest extras.bootBlobCrc32c)
    labels := Function.update k.labels i label
    extras := Function.update k.extras i extras }

/-- **What a `Create` can do**: take a slot at most, for a label or a path that is too long or because the manager refuses,
or put a VM with this label and this data into a free slot. -/
theorem create_cases (hw : Hardware) (label : List UInt8) (imagePath : Option (List UInt8)) (cpuCount : Option UInt32)
    (memoryMib : Option UInt64) (crc : Option UInt32) :
    (∃ e occupied, k.create hw label imagePath cpuCount memoryMib crc =
        (.error e, { k with manager := { k.manager with occupied } }) ∧
      (Wire.labelMax < label.length ∨ (∃ p ∈ imagePath, Wire.imagePathMax < p.length) ∨
        (k.manager.createVm hw (k.bootRequest crc)).1 = .error e) ∧
      ∀ i, k.manager.occupied i = true → occupied i = true) ∨
    ∃ i l p, k.manager.freeSlot = some i ∧ l.asSlice = label ∧ p.asSlice = imagePath.getD [] ∧
      k.create hw label imagePath cpuCount memoryMib crc =
        (.ok (.created (UInt32.ofNat i)), k.withVm i l ⟨p, cpuCount, memoryMib, crc⟩) ∧ hw.create = none := by
  unfold create
  split
  · exact .inl ⟨_, k.manager.occupied, rfl, .inl ‹_›, fun _ h => h⟩
  · split
    · rename_i hpath
      obtain ⟨p, hp, hlen⟩ := Option.any_eq_true _ _ |>.1 hpath
      exact .inl ⟨_, k.manager.occupied, rfl, .inr (.inl ⟨p, hp, of_decide_eq_true hlen⟩), fun _ h => h⟩
    · rename_i hlabel hpath
      have hl : Wire.Buf.fromSlice label = some (⟨label, Nat.not_lt.1 hlabel⟩ : Wire.Buf Wire.labelMax) :=
        dif_pos (Nat.not_lt.1 hlabel)
      obtain ⟨p, hp, hslice⟩ : ∃ p : Wire.Buf Wire.imagePathMax,
          imagePath.elim (some .empty) Wire.Buf.fromSlice = some p ∧ p.asSlice = imagePath.getD [] := by
        cases imagePath with
        | none => exact ⟨.empty, rfl, rfl⟩
        | some path =>
          have hlen : path.length ≤ Wire.imagePathMax := by simpa using hpath
          exact ⟨⟨path, hlen⟩, dif_pos hlen, rfl⟩
      rcases k.manager.createVm_cases hw (k.bootRequest crc) with ⟨e, occupied, h, hocc⟩ | ⟨i, hi, h, hhw⟩
      · refine .inl ⟨e, occupied, ?_, .inr (.inr (congrArg Prod.fst h)), hocc⟩
        simp only [h]
      · refine .inr ⟨i, ⟨label, Nat.not_lt.1 hlabel⟩, p, hi, rfl, hslice, ?_, hhw⟩
        simp only [h, rememberLabel, rememberExtras, hl, hp]
        rfl

/-! ## The loop -/

end Kernel

/-- The text of an error, whatever its kind. -/
def HyperError.message : HyperError → String
  | .invalidHandoff m | .unsupportedCpu m | .hardware m | .exhausted m | .denied m | .invalid m | .unimplemented m
  | .internal m => m

namespace Kernel


def txCap : Nat := 2048

def errorReply (e : HyperError) : Wire.Reply := .error (Wire.Buf.fromSliceTruncating (Text.utf8 e.message))

/-- A line as it comes over the port, without its newline. -/
def Line : Type := {bs : List UInt8 // '\n'.toUInt8 ∉ bs}

/-- `read_line`: carriage returns are dropped, and a line that does not fit is an error. -/
def readLine (line : Line) : HyperResult (List UInt8) :=
  let frame := line.val.filter (· ≠ '\r'.toUInt8)
  if frame.length > Wire.maxFrameBytes then .error (.exhausted "serial_io: line exceeded buffer") else .ok frame

variable (k : Kernel)

/-- What the bridge makes of a frame: its reply, or nothing for a blank one. -/
def answer (hw : Hardware) (frame : List UInt8) : Option Wire.Reply × Kernel :=
  if frame.all (fun b => b == ' '.toUInt8 || b == '\t'.toUInt8) then (none, k)
  else match Wire.decodeRequest frame with
    | .error e => (some (errorReply e), k)
    | .ok req =>
      match k.dispatch hw req with
      | (.error e, k) => (some (errorReply e), k)
      | (.ok reply, k) => (some reply, k)

/-- The bytes sent for a reply, if they fit.  What the buffer holds from before does not show in them. -/
def transmit (reply : Wire.Reply) : Option (List UInt8) :=
  match Wire.encodeReply reply (List.replicate txCap 0) with
  | .error _ => none
  | .ok w => some (w.out.take w.pos)

/-- One turn of the loop: the line that comes in, and the reply to it. -/
def turn (k : Kernel) (input : Hardware × Line) : Option Wire.Reply × Kernel :=
  match readLine input.2 with
  | .error _ => (none, k)
  | .ok frame => k.answer input.1 frame

end Kernel

end Celium
