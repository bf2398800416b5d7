import Celium.Lib.Text
/-!
# Wire — the kernel's reader of requests

`celhyper::wire`: the scanner and `decode_request`.  The scanner is what is left of the frame; each of its methods gives
what it read and what it leaves.  The loops over a frame take at least a byte each time round, so the length of the frame
bounds them.
-/
namespace Celium

/-- `celhyper::error::HyperError`. -/
inductive HyperError where
  | invalidHandoff (msg : String)
  | unsupportedCpu (msg : String)
  | hardware (msg : String)
  | exhausted (msg : String)
  | denied (msg : String)
  | invalid (msg : String)
  | unimplemented (msg : String)
  | internal (msg : String)
deriving DecidableEq, Repr

abbrev HyperResult (α : Type) := Except HyperError α

namespace Wire

def labelMax : Nat := 32

def imagePathMax : Nat := 128

/-- `celhyper::bridge::MAX_FRAME_BYTES`. -/
def maxFrameBytes : Nat := 12 * 1024

inductive Request where
  | create (label : List UInt8) (imagePath : Option (List UInt8)) (cpuCount : Option UInt32)
      (memoryMib : Option UInt64) (bootBlobCrc32c : Option UInt32)
  | start (vmId : UInt32)
  | stop (vmId : UInt32)
  | delete (vmId : UInt32)
  | list
  | imageLoad (len crc32c : UInt32) (bytesHex : List UInt8)
deriving DecidableEq, Repr

/-! ## Scanner -/

def expect (want : UInt8) : List UInt8 → HyperResult (List UInt8)
  | b :: bs => if b = want then .ok bs else .error (.invalid "wire: unexpected byte")
  | []      => .error (.invalid "wire: unexpected byte")

def isWs (b : UInt8) : Bool := b == ' '.toUInt8 || b == '\t'.toUInt8 || b == '\r'.toUInt8 || b == '\n'.toUInt8

def skipWs (bs : List UInt8) : List UInt8 := bs.dropWhile isWs

/-- A string up to its closing quote. -/
def stringRest : List UInt8 → HyperResult (List UInt8 × List UInt8)
  | []      => .error (.invalid "wire: unterminated string")
  | b :: bs =>
    if b = '"'.toUInt8 then .ok ([], bs)
    else if b = '\\'.toUInt8 then .error (.invalid "wire: escapes not allowed")
    else match stringRest bs with
      | .error e => .error e
      | .ok (s, bs) => .ok (b :: s, bs)

def string (bs : List UInt8) : HyperResult (List UInt8 × List UInt8) :=
  match expect '"'.toUInt8 bs with
  | .error e => .error e
  | .ok bs => stringRest bs

def isDigit (b : UInt8) : Bool := '0'.toUInt8 ≤ b && b ≤ '9'.toUInt8

/-- The value of some digits after those that gave `acc`, in a type with `size` values. -/
def accumulate (size : Nat) : Nat → List UInt8 → Option Nat
  | acc, []      => some acc
  | acc, b :: bs =>
    if size ≤ acc * 10 then none
    else if size ≤ acc * 10 + (b - '0'.toUInt8).toNat then none
    else accumulate size (acc * 10 + (b - '0'.toUInt8).toNat) bs

/-- `u32_value` and `u64_value`: digits, of a type with `size` values. -/
def number (size : Nat) (overflow : String) (bs : List UInt8) : HyperResult (Nat × List UInt8) :=
  let digits := bs.takeWhile isDigit
  if digits = [] then .error (.invalid "wire: expected number")
  else match accumulate size 0 digits with
    | none => .error (.invalid overflow)
    | some n => .ok (n, bs.dropWhile isDigit)

def u32Value (bs : List UInt8) : HyperResult (UInt32 × List UInt8) :=
  (number (2 ^ 32) "wire: u32 overflow" bs).map (fun p => (.ofNat p.1, p.2))

def u64Value (bs : List UInt8) : HyperResult (UInt64 × List UInt8) :=
  (number (2 ^ 64) "wire: u64 overflow" bs).map (fun p => (.ofNat p.1, p.2))

/-- `try_consume_null`: what is left after a `null`, if one is there. -/
def tryConsumeNull (bs : List UInt8) : Option (List UInt8) :=
  if bs.take 4 = Text.utf8 "null" then some (bs.drop 4) else none

/-- A value that may be `null`. -/
def orNull {α : Type} (value : List UInt8 → HyperResult (α × List UInt8)) (bs : List UInt8) :
    HyperResult (Option α × List UInt8) :=
  match tryConsumeNull bs with
  | some bs => .ok (none, bs)
  | none => (value bs).map (fun p => (some p.1, p.2))

/-- The loop of `skip_value` over an object or an array. -/
def skipNested (opening closing : UInt8) : Nat → Nat → List UInt8 → HyperResult (List UInt8)
  | _, 0, bs => .ok bs
  | 0, _ + 1, _ => .error (.invalid "wire: eof")
  | fuel + 1, depth + 1, bs =>
    match skipWs bs with
    | [] => .error (.invalid "wire: eof")
    | b :: bs =>
      if b = '"'.toUInt8 then
        match stringRest bs with
        | .error e => .error e
        | .ok (_, bs) => skipNested opening closing fuel (depth + 1) bs
      else if b = opening then skipNested opening closing fuel (depth + 2) bs
      else if b = closing then skipNested opening closing fuel depth bs
      else skipNested opening closing fuel (depth + 1) bs

/-- Where a number or a bare literal ends. -/
def isDelimiter (b : UInt8) : Bool := b == ','.toUInt8 || b == '}'.toUInt8 || b == ']'.toUInt8 || isWs b

def skipValue (bs : List UInt8) : HyperResult (List UInt8) :=
  match skipWs bs with
  | [] => .error (.invalid "wire: eof in value")
  | b :: bs =>
    if b = '"'.toUInt8 then (stringRest bs).map Prod.snd
    else if b = '{'.toUInt8 then skipNested '{'.toUInt8 '}'.toUInt8 bs.length 1 bs
    else if b = '['.toUInt8 then skipNested '['.toUInt8 ']'.toUInt8 bs.length 1 bs
    else .ok ((b :: bs).dropWhile (fun b => !isDelimiter b))

/-! ## The fields of a request -/

/-- The names `decode_request` knows. -/
inductive Key where
  | op | label | vmId | imagePath | cpuCount | memoryMib | bootBlobCrc32c | len | crc32c | bytesHex
deriving DecidableEq, Repr

def Key.name : Key → String
  | .op             => "op"
  | .label          => "label"
  | .vmId           => "vm_id"
  | .imagePath      => "image_path"
  | .cpuCount       => "cpu_count"
  | .memoryMib      => "memory_mib"
  | .bootBlobCrc32c => "boot_blob_crc32c"
  | .len            => "len"
  | .crc32c         => "crc32c"
  | .bytesHex       => "bytes_hex"

def Key.all : List Key :=
  [.op, .label, .vmId, .imagePath, .cpuCount, .memoryMib, .bootBlobCrc32c, .len, .crc32c, .bytesHex]

def Key.ofBytes (bs : List UInt8) : Option Key := Key.all.find? (fun k => Text.utf8 k.name == bs)

/-- The operations it knows. -/
inductive Op where
  | create | start | stop | delete | list | imageLoad
deriving DecidableEq, Repr

def Op.name : Op → String
  | .create    => "create"
  | .start     => "start"
  | .stop      => "stop"
  | .delete    => "delete"
  | .list      => "list"
  | .imageLoad => "image_load"

def Op.all : List Op := [.create, .start, .stop, .delete, .list, .imageLoad]

def Op.ofBytes (bs : List UInt8) : Option Op := Op.all.find? (fun o => Text.utf8 o.name == bs)

/-- The variables `decode_request` collects the fields in. -/
structure Fields where
  op : Option (List UInt8) := none
  label : Option (List UInt8) := none
  vmId : Option UInt32 := none
  imagePath : Option (List UInt8) := none
  cpuCount : Option UInt32 := none
  memoryMib : Option UInt64 := none
  bootBlobCrc32c : Option UInt32 := none
  len : Option UInt32 := none
  crc32c : Option UInt32 := none
  bytesHex : Option (List UInt8) := none

namespace Fields

variable (f : Fields)

/-- The value of a known field, blanks before it skipped. -/
def readKnown (key : Key) (bs : List UInt8) : HyperResult (Fields × List UInt8) :=
  match key with
  | .op => (string bs).map (fun p => ({ f with op := some p.1 }, p.2))
  | .label => (string bs).map (fun p => ({ f with label := some p.1 }, p.2))
  | .vmId => (u32Value bs).map (fun p => ({ f with vmId := some p.1 }, p.2))
  | .imagePath => (orNull string bs).map (fun p => ({ f with imagePath := p.1 }, p.2))
  | .cpuCount => (orNull u32Value bs).map (fun p => ({ f with cpuCount := p.1 }, p.2))
  | .memoryMib => (orNull u64Value bs).map (fun p => ({ f with memoryMib := p.1 }, p.2))
  | .bootBlobCrc32c => (orNull u32Value bs).map (fun p => ({ f with bootBlobCrc32c := p.1 }, p.2))
  | .len => (u32Value bs).map (fun p => ({ f with len := some p.1 }, p.2))
  | .crc32c => (u32Value bs).map (fun p => ({ f with crc32c := some p.1 }, p.2))
  | .bytesHex => (string bs).map (fun p => ({ f with bytesHex := some p.1 }, p.2))

/-- The value of a field; one that is not known is skipped. -/
def read (key bs : List UInt8) : HyperResult (Fields × List UInt8) :=
  match Key.ofBytes key with
  | some key => f.readKnown key (skipWs bs)
  | none => (skipValue bs).map (fun bs => (f, bs))

/-- The loop of `decode_request`. -/
def readAll : Nat → Fields → List UInt8 → HyperResult (Fields × List UInt8)
  | 0, _, _ => .error (.invalid "wire: unexpected byte")
  | fuel + 1, f, bs =>
    match skipWs bs with
    | [] => .error (.invalid "wire: unexpected byte")
    | b :: bs =>
      if b = '}'.toUInt8 then .ok (f, bs)
      else match string (b :: bs) with
        | .error e => .error e
        | .ok (key, bs) =>
          match expect ':'.toUInt8 (skipWs bs) with
          | .error e => .error e
          | .ok bs =>
            match f.read key bs with
            | .error e => .error e
            | .ok (f, bs) =>
              match skipWs bs with
              | [] => .error (.invalid "wire: unexpected byte")
              | b :: bs =>
                -- A closing brace may follow the comma.
                if b = ','.toUInt8 then readAll fuel f bs
                else if b = '}'.toUInt8 then .ok (f, bs)
                else .error (.invalid "wire: unexpected byte")

def orMissing {α : Type} (v : Option α) (msg : String) : HyperResult α :=
  match v with
  | none => .error (.invalid msg)
  | some a => .ok a

/-- The `create` arm. -/
def create : HyperResult Request :=
  match f.label with
  | none => .error (.invalid "wire: create missing label")
  | some label =>
    if labelMax < label.length then .error (.invalid "wire: label > 32 chars")
    else if f.imagePath.any (fun p => imagePathMax < p.length) then .error (.invalid "wire: image_path > 128 chars")
    else .ok (.create label f.imagePath f.cpuCount f.memoryMib f.bootBlobCrc32c)

/-- The `image_load` arm. -/
def imageLoad : HyperResult Request := do
  let len ← orMissing f.len "wire: image_load missing len"
  let crc32c ← orMissing f.crc32c "wire: image_load missing crc32c"
  let bytesHex ← orMissing f.bytesHex "wire: image_load missing bytes_hex"
  if bytesHex.length ≠ 2 * len.toNat then .error (.invalid "wire: image_load bytes_hex length != 2*len")
  else .ok (.imageLoad len crc32c bytesHex)

/-- What the fields amount to. -/
def request : HyperResult Request :=
  match f.op with
  | none => .error (.invalid "wire: request missing op")
  | some op =>
    match Op.ofBytes op with
    | some .create => f.create
    | some .start => (orMissing f.vmId "wire: start missing vm_id").map .start
    | some .stop => (orMissing f.vmId "wire: stop missing vm_id").map .stop
    | some .delete => (orMissing f.vmId "wire: delete missing vm_id").map .delete
    | some .list => .ok .list
    | some .imageLoad => f.imageLoad
    | none => .error (.invalid "wire: unknown op")

end Fields

def decodeRequest (frame : List UInt8) : HyperResult Request :=
  match expect '{'.toUInt8 frame with
  | .error e => .error e
  | .ok bs =>
    match Fields.readAll frame.length {} bs with
    | .error e => .error e
    | .ok (f, bs) =>
      if skipWs bs ≠ [] then .error (.invalid "wire: trailing bytes after request") else f.request

end Wire
end Celium
