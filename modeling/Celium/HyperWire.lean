import Celium.Lib.Json
import Celium.Common
/-!
# HyperWire — what the host and the kernel say to each other

`celmesh::hyper_host::wire`: the requests and replies of the bridge, and the line `serde_json` writes for a request (the
tag `op` first, the fields in the order they are declared, those that are `None` left out).
-/
namespace Celium

inductive HyperRequest where
  | create (label : String) (imagePath : Option String) (cpuCount : Option UInt32) (memoryMib : Option UInt64)
      (bootBlobCrc32c : Option UInt32)
  | start (vmId : UInt32)
  | stop (vmId : UInt32)
  | delete (vmId : UInt32)
  | list
  | imageLoad (len crc32c : UInt32) (bytesHex : String)
deriving DecidableEq, Repr

structure HyperVmRow where
  vmId : UInt32
  label : String
  state : String
  lastExit : Option UInt32
  imagePath : Option String
  cpuCount : Option UInt32
  memoryMib : Option UInt64
  bootBlobCrc32c : Option UInt32
deriving DecidableEq, Repr

inductive HyperReply where
  | created (vmId : UInt32)
  | state (vmId : UInt32) (state : String) (lastExit : Option UInt32)
  | deleted (vmId : UInt32)
  | listed (rows : List HyperVmRow)
  | error (message : String)
  | imageLoaded (len crc32c : UInt32)
deriving DecidableEq, Repr

namespace HyperRequest

/-- The `op` of a request. -/
def op : HyperRequest → String
  | .create .. => "create"
  | .start _ => "start"
  | .stop _ => "stop"
  | .delete _ => "delete"
  | .list => "list"
  | .imageLoad .. => "image_load"

/-- A field that is a string, `skip_serializing_if = "Option::is_none"`. -/
def textField (key : String) (v : Option String) : List (List UInt8) :=
  v.toList.map (fun s => Json.member key (Json.string (Text.utf8 s)))

/-- A field that is a number, `skip_serializing_if = "Option::is_none"`. -/
def numField (key : String) (v : Option Nat) : List (List UInt8) :=
  v.toList.map (fun n => Json.member key (Json.decimal n))

/-- The fields of a request, in the order of the declaration. -/
def fields : HyperRequest → List (List UInt8)
  | .create label imagePath cpuCount memoryMib bootBlobCrc32c =>
    textField "label" (some label) ++ textField "image_path" imagePath ++
      numField "cpu_count" (cpuCount.map UInt32.toNat) ++ numField "memory_mib" (memoryMib.map UInt64.toNat) ++
      numField "boot_blob_crc32c" (bootBlobCrc32c.map UInt32.toNat)
  | .start vmId | .stop vmId | .delete vmId => numField "vm_id" (some vmId.toNat)
  | .list => []
  | .imageLoad len crc32c bytesHex =>
    numField "len" (some len.toNat) ++ numField "crc32c" (some crc32c.toNat) ++ textField "bytes_hex" (some bytesHex)

/-- `serde_json::to_string`. -/
def toJson (r : HyperRequest) : List UInt8 := Json.object (textField "op" (some r.op) ++ r.fields)

end HyperRequest

end Celium
