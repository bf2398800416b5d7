import Celium.DiskImage
import Celium.Manager
/-!
# Controller — the operator's table of VMs

`celcli::vm` and `celcli::boot`.  What a call meets outside the table is an input of the call: the image as `celimage`
opens it at that moment, the error of a file-system step that fails, and the answer of the sink.  Of the files under the
stage root only the staged blobs are kept; a temporary file next to one is never read.
-/
namespace Celium

open Checked Runs

/-! ## Staging a boot blob -/

def bootBlobLen : Nat := 4096

/-- The staged blobs, by path. -/
abbrev BlobFiles := String → Option (List UInt8)

/-- What one start meets: the image, the text of the error that the operating system gives at each step, if it gives one,
and the answer of the sink. -/
structure Surroundings where
  image : Checked.Outcome CelError { d : DiskImage // d.Bounded }
  pid : Nat
  mkdir : Option String
  create : Option String
  write : Option String
  fsync : Option String
  rename : Option String
  reread : Option String
  sink : List UInt8 → CelResult UInt32

structure BootDigest where
  blobLen : Nat
  crc32c : UInt32
  blobPath : String
deriving DecidableEq, Repr

def stageDir (root : String) (vmId : UInt32) : String := root ++ "/vm-" ++ toString vmId.toNat

def stagePath (root : String) (vmId : UInt32) : String := stageDir root vmId ++ "/boot.blob"

/-- A step of the file system, with the text in front of its error. -/
def fsStep (what : String) : Option String → Checked.Outcome CelError Unit
  | none => .ok ()
  | some e => .error (.err (.io (what ++ ": " ++ e)))

namespace Surroundings

variable (w : Surroundings)

/-- The start of the image, a page at most. -/
def firstPage : Checked.Outcome CelError (List UInt8) := do
  let image ← w.image
  if image.1.virtualSize = 0 then .error (.err (.invalid "boot blob: image has zero virtual size"))
  else image.1.readExactAt 0 (min image.1.virtualSize bootBlobLen)

/-- The write to a temporary file and the rename over the blob. -/
def writeSteps (root : String) (vmId : UInt32) : Checked.Outcome CelError Unit :=
  let tmp := stagePath root vmId ++ ".tmp." ++ toString w.pid
  do
    fsStep ("mkdir " ++ stageDir root vmId) w.mkdir
    fsStep ("create " ++ tmp) w.create
    fsStep ("write " ++ tmp) w.write
    fsStep ("fsync " ++ tmp) w.fsync
    fsStep ("rename " ++ tmp ++ " -> " ++ stagePath root vmId) w.rename

/-- The page that a start puts in place of the blob. -/
def staged (root : String) (vmId : UInt32) : Checked.Outcome CelError (List UInt8) := do
  let buf ← w.firstPage
  w.writeSteps root vmId
  .ok buf

/-- Every step goes well, the image is a raw one, and the sink answers with the CRC of what it gets. -/
def calm (f : DiskFile) : Surroundings where
  image := .ok ⟨RawImage.disk f, RawImage.bounded f⟩
  pid := 1
  mkdir := none
  create := none
  write := none
  fsync := none
  rename := none
  reread := none
  sink bytes := .ok (Util.crc32c bytes)

end Surroundings

def stageBootBlob (w : Surroundings) (disk : BlobFiles) (root : String) (vmId : UInt32) :
    Checked.Outcome CelError BootDigest × BlobFiles :=
  match w.staged root vmId with
  | .error e => (.error e, disk)
  | .ok buf =>
    (.ok ⟨buf.length, Util.crc32c buf, stagePath root vmId⟩, Function.update disk (stagePath root vmId) (some buf))

/-! ## The table -/

structure VmRecord where
  id : UInt32
  state : VmState
  lastExit : Option UInt32
  label : String
  imagePath : Option String
  cpuCount : Option UInt32
  memoryMib : Option UInt64
  bootBlobLen : Option Nat
  bootBlobCrc32c : Option UInt32
deriving DecidableEq, Repr

structure VmSpec where
  label : String
  imagePath : Option String
  cpuCount : Option UInt32
  memoryMib : Option UInt64
deriving DecidableEq, Repr

def stateVersion : UInt32 := 1

structure ControllerState where
  version : UInt32
  slots : Fin maxVms → Option VmRecord
deriving DecidableEq

/-- `ControllerState::default()`. -/
def ControllerState.fresh : ControllerState := ⟨stateVersion, fun _ => none⟩

/-- Of a sink the controller knows only whether there is one. -/
structure Controller where
  state : ControllerState
  path : Option String
  stageRoot : Option String
  stageSink : Bool
deriving DecidableEq

/-- The record of a VM that was just created. -/
def VmSpec.record (spec : VmSpec) (id : UInt32) : VmRecord where
  id
  state := .created
  lastExit := none
  label := spec.label
  imagePath := spec.imagePath
  cpuCount := spec.cpuCount
  memoryMib := spec.memoryMib
  bootBlobLen := none
  bootBlobCrc32c := none

def VmSpec.check (spec : VmSpec) : CelResult Unit :=
  if spec.label.utf8ByteSize > 32 then .error (.invalid "label > 32 chars")
  else if spec.cpuCount.any (fun c => c == 0 || c > 64) then .error (.invalid "cpu_count must be in 1..=64")
  else if spec.memoryMib.any (fun m => m == 0 || m > 1024 * 1024) then
    .error (.invalid "memory_mib must be in 1..=1048576")
  else .ok ()

/-- The record after a start, with the digest of what it staged. -/
def VmRecord.started (r : VmRecord) : Option BootDigest → VmRecord
  | none => { r with state := .halted, lastExit := some 12 }
  | some d => { r with bootBlobLen := some d.blobLen, bootBlobCrc32c := some d.crc32c, state := .halted, lastExit := some 12 }

namespace Controller

/-- A controller that is not backed by a file, bound to a stage root. -/
def inMemory (root : String) (sink : Bool) : Controller := ⟨.fresh, none, some root, sink⟩

variable (c : Controller)

def lookup (id : UInt32) : CelResult (Fin maxVms × VmRecord) :=
  slotAt c.state.slots id (.invalid "vm not allocated") (.invalid "VmId out of range")

def setSlot (i : Fin maxVms) (r : Option VmRecord) : Controller :=
  { c with state := { c.state with slots := Function.update c.state.slots i r } }

/-- The first slot without a VM. -/
def freeSlot : Option (Fin maxVms) := (List.finRange maxVms).find? (fun i => (c.state.slots i).isNone)

def createVmWith (spec : VmSpec) : CelResult UInt32 × Controller :=
  match spec.check with
  | .error e => (.error e, c)
  | .ok () =>
    match c.freeSlot with
    | none => (.error (.exhausted "vm registry full"), c)
    | some i => (.ok (UInt32.ofNat i), c.setSlot i (some (spec.record (UInt32.ofNat i))))

/-- A digest that an earlier start recorded has to come out again. -/
def checkDrift (prior : Option UInt32) (d : BootDigest) : Checked.Outcome CelError Unit :=
  match prior with
  | none => .ok ()
  | some prev =>
    if d.crc32c ≠ prev then .error (.err (.invalid "boot blob: image content changed since last start")) else .ok ()

/-- `std::fs::read` of a blob. -/
def readStaged (w : Surroundings) (disk : BlobFiles) (path : String) : Checked.Outcome CelError (List UInt8) :=
  match w.reread, disk path with
  | some e, _ => .error (.err (.io ("read staged blob " ++ path ++ ": " ++ e)))
  | none, none => .error (.err (.io ("read staged blob " ++ path ++ ": No such file or directory (os error 2)")))
  | none, some bytes => .ok bytes

/-- The blob goes to the sink, where there is one. -/
def ship (w : Surroundings) (disk : BlobFiles) (d : BootDigest) : Checked.Outcome CelError Unit :=
  if c.stageSink then do
    let bytes ← readStaged w disk d.blobPath
    let echoed ← (w.sink bytes).mapError .err
    if echoed ≠ d.crc32c then .error (.err (.invalid "boot blob: kernel echoed crc differs from host digest"))
    else .ok ()
  else .ok ()

/-- The end of a start whose blob is in place: the checks, and the record of the VM. -/
def finishStart (w : Surroundings) (disk : BlobFiles) (i : Fin maxVms) (r : VmRecord) (d : BootDigest) :
    Checked.Outcome CelError VmState × Controller × BlobFiles :=
  match checkDrift r.bootBlobCrc32c d >>= fun _ => c.ship w disk d with
  | .error e => (.error e, c, disk)
  | .ok () => (.ok .halted, c.setSlot i (some (r.started (some d))), disk)

def startVm (w : Surroundings) (disk : BlobFiles) (id : UInt32) :
    Checked.Outcome CelError VmState × Controller × BlobFiles :=
  match c.lookup id with
  | .error e => (.error (.err e), c, disk)
  | .ok (i, r) =>
    if r.state.isTerminal then (.error (.err (.invalid "vm already terminal")), c, disk)
    else if r.state = .running then (.error (.err (.invalid "vm already running")), c, disk)
    else match r.imagePath, c.stageRoot with
      | some _, some root =>
        match stageBootBlob w disk root r.id with
        | (.error e, disk) => (.error e, c, disk)
        | (.ok d, disk) => c.finishStart w disk i r d
      | _, _ => (.ok .halted, c.setSlot i (some (r.started none)), disk)

def resetVm (id : UInt32) : CelResult VmState × Controller :=
  match c.lookup id with
  | .error e => (.error e, c)
  | .ok (i, r) =>
    if !r.state.isTerminal then (.error (.invalid "vm not terminal; cannot reset"), c)
    else (.ok .created, c.setSlot i (some { r with state := .created, lastExit := none }))

def stopVm (id : UInt32) : CelResult VmState × Controller :=
  match c.lookup id with
  | .error e => (.error e, c)
  | .ok (i, r) =>
    if r.state.isTerminal then (.ok r.state, c) else (.ok .stopped, c.setSlot i (some { r with state := .stopped }))

def deleteVm (id : UInt32) : CelResult Unit × Controller :=
  match c.lookup id with
  | .error e => (.error e, c)
  | .ok (i, r) =>
    if r.state.isTerminal then (.ok (), c.setSlot i none) else (.error (.invalid "vm not terminal; stop first"), c)

/-! ## What a call can do -/

variable {c} {w : Surroundings} {disk : BlobFiles} {id : UInt32} {root : String} {page : List UInt8} {r : VmRecord}
  {i : Fin maxVms}

@[simp] theorem setSlot_stageRoot (i : Fin maxVms) (r : Option VmRecord) : (c.setSlot i r).stageRoot = c.stageRoot := rfl

@[simp] theorem setSlot_slots (i j : Fin maxVms) (r : Option VmRecord) :
    (c.setSlot i r).state.slots j = if j = i then r else c.state.slots j :=
  Function.update_apply _ _ _ _

theorem lookup_ok : c.lookup id = .ok (i, r) ↔ id.toNat = i ∧ c.state.slots i = some r := slotAt_ok

/-- What a call that neither creates a VM nor stages a blob can do to the table: nothing, or to move or to remove one VM.
A move keeps the digest. -/
inductive Change (c : Controller) : Controller → Prop where
  | stay : Change c c
  | move {i : Fin maxVms} {r r' : VmRecord} : c.state.slots i = some r → r'.id = r.id → r'.bootBlobLen = r.bootBlobLen →
      r'.bootBlobCrc32c = r.bootBlobCrc32c → Change c (c.setSlot i (some r'))
  | remove (i : Fin maxVms) : Change c (c.setSlot i none)

/-- A start gets as far as to put `page` in place of the blob of the VM `r` in slot `i`. -/
structure Stages (c : Controller) (w : Surroundings) (id : UInt32) (i : Fin maxVms) (r : VmRecord) (root : String)
    (page : List UInt8) : Prop where
  found : c.lookup id = .ok (i, r)
  ready : r.state = .created
  image : r.imagePath.isSome
  bound : c.stageRoot = some root
  staged : w.staged root r.id = .ok page

/-- A start stages one page, for one VM. -/
theorem Stages.unique {i' : Fin maxVms} {r' : VmRecord} {root' : String} {page' : List UInt8}
    (h : c.Stages w id i r root page) (h' : c.Stages w id i' r' root' page') :
    i' = i ∧ r' = r ∧ root' = root ∧ page' = page := by
  obtain ⟨rfl, rfl⟩ := Prod.mk.inj (Except.ok.inj (h'.found.symm.trans h.found))
  obtain rfl := Option.some.inj (h'.bound.symm.trans h.bound)
  exact ⟨rfl, rfl, rfl, Except.ok.inj (h'.staged.symm.trans h.staged)⟩

/-- The sink, where there is one, is given the page and answers with its CRC. -/
def Ships (c : Controller) (w : Surroundings) (page : List UInt8) : Prop :=
  c.stageSink = true → w.reread = none ∧ w.sink page = .ok (Util.crc32c page)

/-- The digest of a page. -/
def digest (root : String) (r : VmRecord) (page : List UInt8) : BootDigest :=
  ⟨page.length, Util.crc32c page, stagePath root r.id⟩

/-- The blobs once the page is in place. -/
def put (disk : BlobFiles) (root : String) (r : VmRecord) (page : List UInt8) : BlobFiles :=
  Function.update disk (stagePath root r.id) (some page)

theorem checkDrift_ok {prior : Option UInt32} {d : BootDigest} :
    checkDrift prior d = .ok () ↔ ∀ prev, prior = some prev → d.crc32c = prev := by
  cases prior with
  | none => simp [checkDrift]
  | some prev => by_cases h : d.crc32c = prev <;> simp [checkDrift, h]

theorem ship_ok : c.ship w (put disk root r page) (digest root r page) = .ok () ↔ c.Ships w page := by
  unfold ship Ships
  cases c.stageSink with
  | false => simp
  | true =>
    have hread : put disk root r page (stagePath root r.id) = some page := Function.update_self _ _ _
    simp only [if_true, true_implies, readStaged, digest, hread]
    cases w.reread with
    | some e => simp [error_bind]
    | none =>
      simp only [ok_bind, true_and]
      cases w.sink page with
      | error e => simp [Except.mapError, error_bind]
      | ok echoed => by_cases h : echoed = Util.crc32c page <;> simp [Except.mapError, ok_bind, h]

theorem stageBootBlob_ok (h : w.staged root r.id = .ok page) :
    stageBootBlob w disk root r.id = (.ok (digest root r page), put disk root r page) := by
  unfold stageBootBlob
  rw [h]
  rfl

/-- A start whose page is in place goes through where no earlier digest differs and the sink agrees. -/
def GoesThrough (c : Controller) (w : Surroundings) (r : VmRecord) (page : List UInt8) : Prop :=
  (∀ prev, r.bootBlobCrc32c = some prev → Util.crc32c page = prev) ∧ c.Ships w page

theorem finishStart_cases (c : Controller) (w : Surroundings) (disk : BlobFiles) (i : Fin maxVms) (r : VmRecord)
    (root : String) (page : List UInt8) :
    (∃ e, ¬ c.GoesThrough w r page ∧
      c.finishStart w (put disk root r page) i r (digest root r page) = (.error e, c, put disk root r page)) ∨
    (c.GoesThrough w r page ∧ c.finishStart w (put disk root r page) i r (digest root r page) =
      (.ok .halted, c.setSlot i (some (r.started (some (digest root r page)))), put disk root r page)) := by
  have hthrough : checkDrift r.bootBlobCrc32c (digest root r page) >>= (fun _ =>
      c.ship w (put disk root r page) (digest root r page)) = .ok () ↔ c.GoesThrough w r page := by
    have hship : c.ship w (put disk root r page) (digest root r page) = .ok () ↔ c.Ships w page := ship_ok
    rw [bind_eq_ok, GoesThrough, ← hship]
    exact (exists_const Unit).trans (and_congr_left' checkDrift_ok)
  unfold finishStart
  split
  · rename_i e he
    refine .inl ⟨e, fun hgo => ?_, rfl⟩
    rw [hthrough.2 hgo] at he
    cases he
  · rename_i hok
    exact .inr ⟨hthrough.1 hok, rfl⟩

/-- **What a start can do**: refuse with nothing written; move the VM with nothing written; or put a page in place of
the blob, after which it is refused, or the VM moves and has the digest of the page. -/
theorem startVm_cases (c : Controller) (w : Surroundings) (disk : BlobFiles) (id : UInt32) :
    (∃ e, c.startVm w disk id = (.error e, c, disk) ∧ ∀ i r root page, ¬ c.Stages w id i r root page) ∨
    (∃ i r, c.lookup id = .ok (i, r) ∧ (r.imagePath = none ∨ c.stageRoot = none) ∧
      c.startVm w disk id = (.ok .halted, c.setSlot i (some (r.started none)), disk)) ∨
    ∃ i r root page, c.Stages w id i r root page ∧
      ((∃ e, ¬ c.GoesThrough w r page ∧ c.startVm w disk id = (.error e, c, put disk root r page)) ∨
        c.GoesThrough w r page ∧ c.startVm w disk id =
          (.ok .halted, c.setSlot i (some (r.started (some (digest root r page)))), put disk root r page)) := by
  unfold startVm
  split
  · rename_i e hnone
    refine .inl ⟨_, rfl, fun i r root page hst => ?_⟩
    rw [hst.found] at hnone
    cases hnone
  rename_i i r hfound
  have hsame : ∀ {i' r' root page}, c.Stages w id i' r' root page → r' = r := by
    intro i' r' root page hst
    exact (Prod.mk.inj (Except.ok.inj (hst.found.symm.trans hfound))).2
  split
  · rename_i hterm
    refine .inl ⟨_, rfl, fun i r root page hst => ?_⟩
    rw [← hsame hst, hst.ready] at hterm
    cases hterm
  rename_i hlive
  split
  · rename_i hrun
    refine .inl ⟨_, rfl, fun i r root page hst => ?_⟩
    rw [← hsame hst, hst.ready] at hrun
    cases hrun
  rename_i hidle
  split
  · rename_i img root himg hroot
    cases hstaged : w.staged root r.id with
    | error e =>
      refine .inl ⟨e, by rw [stageBootBlob, hstaged], fun i' r' root' page hst => ?_⟩
      have hfails := hst.staged
      rw [hsame hst, ← Option.some.inj (hroot.symm.trans hst.bound), hstaged] at hfails
      cases hfails
    | ok page =>
      have hready : r.state = .created := by
        cases hs : r.state with
        | created => rfl
        | running => exact absurd hs hidle
        | halted | stopped | faulted => exact absurd (by rw [hs]; rfl) hlive
      refine .inr (.inr ⟨i, r, root, page, ⟨hfound, hready, by rw [himg]; rfl, hroot, hstaged⟩, ?_⟩)
      rw [stageBootBlob_ok hstaged]
      exact finishStart_cases c w disk i r root page
  · rename_i hnone
    refine .inr (.inl ⟨i, r, hfound, ?_, rfl⟩)
    cases himg : r.imagePath with
    | none => exact .inl rfl
    | some img =>
      cases hroot : c.stageRoot with
      | none => exact .inr rfl
      | some root => exact absurd hroot (hnone img root himg)

theorem freeSlot_some (h : c.freeSlot = some i) : c.state.slots i = none := by
  simpa using List.find?_some h

theorem createVmWith_cases (c : Controller) (spec : VmSpec) :
    (∃ e, c.createVmWith spec = (.error e, c)) ∨
    ∃ i, c.state.slots i = none ∧
      c.createVmWith spec = (.ok (UInt32.ofNat i), c.setSlot i (some (spec.record (UInt32.ofNat i)))) := by
  unfold createVmWith
  split
  · exact .inl ⟨_, rfl⟩
  split
  · exact .inl ⟨_, rfl⟩
  · rename_i i hfree
    exact .inr ⟨i, freeSlot_some hfree, rfl⟩

theorem change_resetVm (c : Controller) (id : UInt32) : c.Change (c.resetVm id).2 := by
  unfold resetVm
  split
  · exact .stay
  rename_i i r hfound
  split
  · exact .stay
  · exact .move (lookup_ok.1 hfound).2 rfl rfl rfl

theorem change_stopVm (c : Controller) (id : UInt32) : c.Change (c.stopVm id).2 := by
  unfold stopVm
  split
  · exact .stay
  rename_i i r hfound
  split
  · exact .stay
  · exact .move (lookup_ok.1 hfound).2 rfl rfl rfl

theorem change_deleteVm (c : Controller) (id : UInt32) : c.Change (c.deleteVm id).2 := by
  unfold deleteVm
  split
  · exact .stay
  rename_i i r hfound
  split
  · exact .remove i
  · exact .stay

end Controller

/-! ## Calls -/

inductive ControllerCall where
  | create (spec : VmSpec)
  | start (w : Surroundings) (id : UInt32)
  | reset (id : UInt32)
  | stop (id : UInt32)
  | delete (id : UInt32)

inductive ControllerReply where
  | id (id : UInt32)
  | state (state : VmState)
  | deleted
deriving DecidableEq, Repr

/-- A controller and the blobs under its stage root. -/
structure StageHost where
  controller : Controller
  disk : BlobFiles

namespace StageHost

/-- An answer, and the controller that a call which writes no blob leaves. -/
def withReply {α : Type} (h : StageHost) (reply : α → ControllerReply) (out : CelResult α × Controller) :
    Checked.Outcome CelError ControllerReply × StageHost :=
  ((out.1.map reply).mapError .err, { h with controller := out.2 })

def step (h : StageHost) : ControllerCall → Checked.Outcome CelError ControllerReply × StageHost
  | .create spec => h.withReply .id (h.controller.createVmWith spec)
  | .start w id =>
    let (answer, controller, disk) := h.controller.startVm w h.disk id
    (answer.map .state, ⟨controller, disk⟩)
  | .reset id => h.withReply .state (h.controller.resetVm id)
  | .stop id => h.withReply .state (h.controller.stopVm id)
  | .delete id => h.withReply (fun _ => .deleted) (h.controller.deleteVm id)

theorem step_create (h : StageHost) (spec : VmSpec) :
    (h.step (.create spec)).2 = ⟨(h.controller.createVmWith spec).2, h.disk⟩ := rfl

theorem step_start (h : StageHost) (w : Surroundings) (id : UInt32) :
    (h.step (.start w id)).2 = ⟨(h.controller.startVm w h.disk id).2.1, (h.controller.startVm w h.disk id).2.2⟩ := rfl

/-- An image file of one byte. -/
def oneByte (b : UInt8) : DiskFile := ⟨"disk.img", [b], 2 ^ 63 - 1, Nat.le_of_ble_eq_true rfl, DiskFile.seekMax_lt⟩

def imageVm : VmSpec := ⟨"drift", some "disk.img", none, none⟩

end StageHost

end Celium
