import Celium.Caps
import Celium.Lib.Fixed
/-!
# Auth — passwords, tokens and session records

`celtenancy::auth`.  SHA-256 and Argon2id are other crates' code: `Crypto` stands for them, and every result below
holds for any `Crypto`.  What a call draws from the operating system is an argument: the token's 32 random bytes, the
salt, and the wall clock in milliseconds.
-/
namespace Celium

open Fixed

@[ext] structure TenantId where
  raw : Nat
deriving DecidableEq, Repr

@[ext] structure UserId where
  raw : Nat
deriving DecidableEq, Repr

/-- `PasswordHashStr(String)`: a PHC string. -/
structure PasswordHashStr where
  phc : String
deriving DecidableEq, Repr

/-- `SessionToken(String)`: 64 hex characters. -/
structure SessionToken where
  hex : String
deriving DecidableEq, Repr

/-- `TokenHash([u8; 32])`. -/
structure TokenHash where
  digest : Vector UInt8 32
deriving DecidableEq, Repr

/-- The `sha2` and `argon2` crates: a digest; a PHC string from a salt and a password, unless the hasher fails; and
whether a password matches a PHC string (`false` also when that string does not parse). -/
structure Crypto where
  sha256 : List UInt8 → Vector UInt8 32
  argon2Hash : List UInt8 → List UInt8 → Option String
  argon2Verify : List UInt8 → String → Bool

/-- A stand-in for runs that neither hash nor verify anything. -/
def Crypto.idle : Crypto := ⟨fun _ => Vector.replicate 32 0, fun _ _ => none, fun _ _ => false⟩

/-- The bytes of a string, as `as_bytes` gives them. -/
def utf8 (s : String) : List UInt8 := s.toUTF8.data.toList

def hashPassword (cr : Crypto) (plain : String) (salt : List UInt8) : CelResult PasswordHashStr :=
  if plain.isEmpty then .error (.invalid "password must not be empty")
  else match cr.argon2Hash salt (utf8 plain) with
    | none => .error (.internal "argon2 hash_password failed")
    | some phc => .ok ⟨phc⟩

def verifyPassword (cr : Crypto) (plain : String) (stored : PasswordHashStr) : CelResult Unit :=
  if cr.argon2Verify (utf8 plain) stored.phc then .ok () else .error (.capabilityDenied "auth.credentials")

def hashToken (cr : Crypto) (token : SessionToken) : TokenHash := ⟨cr.sha256 (utf8 token.hex)⟩

def hexDigit (n : UInt8) : Char := "0123456789abcdef".toList.getD n.toNat '0'

/-- `mint_token`, on the 32 bytes the operating system gave. -/
def mintToken (cr : Crypto) (rand : Vector UInt8 32) : SessionToken × TokenHash :=
  let token : SessionToken :=
    ⟨String.ofList (rand.toList.flatMap (fun byte : UInt8 => [hexDigit (byte >>> 4), hexDigit (byte &&& 15)]))⟩
  (token, hashToken cr token)

def defaultSessionTtlSecs : UInt64 := 12 * 60 * 60

structure Session where
  tokenHash : TokenHash
  tenant : TenantId
  user : UserId
  userName : String
  caps : TenantCaps
  createdMs : UInt64
  expiresMs : UInt64
deriving DecidableEq, Repr

def Session.isExpiredAt (s : Session) (nowMs : UInt64) : Bool := nowMs ≥ s.expiresMs

end Celium
