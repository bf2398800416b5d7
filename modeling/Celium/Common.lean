import Mathlib.Data.List.Basic
/-!
# Common — the error taxonomy, and what the model takes from its surroundings

`celcommon::CelError` with its payloads, and the two things a call reads that are not in its arguments: the order a
hash map happens to iterate in (`HashOrder`) and the cryptographic crates (`Crypto`, in `Auth`).
-/
namespace Celium

/-- `celcommon::CelError`. -/
inductive CelError where
  | capabilityDenied (tag : String)
  | exhausted (tag : String)
  | invalid (msg : String)
  | hardware (msg : String)
  | io (msg : String)
  | timeout (msg : String)
  | storage (msg : String)
  | internal (msg : String)
deriving DecidableEq, Repr

abbrev CelResult (α : Type) := Except CelError α

def CelError.isInternal : CelError → Bool
  | .internal _ => true
  | _           => false

/-- The text `{e}` gives. -/
def CelError.display : CelError → String
  | .capabilityDenied tag => "capability denied: " ++ tag
  | .exhausted tag        => "resource exhausted: " ++ tag
  | .invalid msg          => "invalid input: " ++ msg
  | .hardware msg         => "hardware error: " ++ msg
  | .io msg               => "i/o error: " ++ msg
  | .timeout msg          => "timeout: " ++ msg
  | .storage msg          => "storage: " ++ msg
  | .internal msg         => "internal: " ++ msg

/-- The text `{e:?}` gives, for a payload without characters that it escapes. -/
def CelError.debug : CelError → String
  | .capabilityDenied tag => "CapabilityDenied(\"" ++ tag ++ "\")"
  | .exhausted tag        => "Exhausted(\"" ++ tag ++ "\")"
  | .invalid msg          => "Invalid(\"" ++ msg ++ "\")"
  | .hardware msg         => "Hardware(\"" ++ msg ++ "\")"
  | .io msg               => "Io(\"" ++ msg ++ "\")"
  | .timeout msg          => "Timeout(\"" ++ msg ++ "\")"
  | .storage msg          => "Storage(\"" ++ msg ++ "\")"
  | .internal msg         => "Internal(\"" ++ msg ++ "\")"

/-- The order in which one call sees a hash map's values: any rearrangement of them. -/
structure HashOrder (α : Type) where
  arrange : List α → List α
  perm : ∀ l, (arrange l).Perm l

/-- The order in which the values were inserted, one of the possible ones. -/
def HashOrder.asStored (α : Type) : HashOrder α := ⟨id, fun _ => .refl _⟩

end Celium
