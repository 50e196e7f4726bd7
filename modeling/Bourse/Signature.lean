import Bourse.Encoding.Base64
import Bourse.Encoding.Hex
import Bourse.Hash.Algorithm
import Bourse.Json.Printer

/-! # Signatures as text

Digests and keyed digests of texts in the notations that venues want, the reading of secrets that
are given in base 64, and signed tokens. -/

namespace Bourse

/-- How the bytes of a digest are handed on. -/
inductive DigestFormat where
  | hex
  | base64
  /-- As bytes; there is no text. -/
  | binary
  deriving DecidableEq, Repr

namespace DigestFormat

/-- The name of a format. -/
def name : DigestFormat → String
  | .hex => "Hex"
  | .base64 => "Base64"
  | .binary => "Binary"

/-- The format with a name, in any case. -/
def ofName (name : String) : Result DigestFormat :=
  match Text.lower name with
  | "hex" => .ok .hex
  | "base64" => .ok .base64
  | "binary" | "raw" => .ok .binary
  | _ => .error (.internal ("Unsupported digest encoding: " ++ name))

/-- The bytes as text. -/
def write (f : DigestFormat) (bs : List UInt8) : Result String :=
  match f with
  | .hex => .ok (Hex.encode bs)
  | .base64 => .ok (Base64.encode bs)
  | .binary =>
    .error (.internal "Binary digest has no text form; use the *_bytes functions")

end DigestFormat

namespace Signature

/-- The digest of a text. -/
def hash (a : HashAlgorithm) (f : DigestFormat) (data : String) : Result String :=
  f.write (a.digest (Text.bytes data))

/-- The keyed digest of a text. -/
def sign (a : HashAlgorithm) (f : DigestFormat) (secret message : String) : Result String :=
  f.write (a.mac (Text.bytes secret) (Text.bytes message))

/-- The bytes of a secret that is given in base 64. -/
def secretBytes (s : String) : Result (List UInt8) :=
  match Base64.decode? s with
  | some bs => .ok bs
  | none => .error (.make .authenticationError "Secret is not valid base64")

/-! ### Tokens -/

/-- The name of the algorithm in a token; not every hash function has one. -/
def tokenName? : HashAlgorithm → Option String
  | .sha256 => some "HS256"
  | .sha384 => some "HS384"
  | .sha512 => some "HS512"
  | _ => none

/-- The header of a token. -/
def tokenHeader (algorithm : String) : Json :=
  .obj [("alg", .str algorithm), ("typ", .str "JWT")]

/-- A JSON value as a part of a token. -/
def tokenPart (v : Json) : String := Base64.encodeForLinks (Text.bytes v.compact)

/-- A token: header, payload and the keyed digest of the two, with points between them. -/
def token (a : HashAlgorithm) (secret : List UInt8) (payload : Json) : Result String :=
  match tokenName? a with
  | none => .error (.internal ("JWT does not support " ++ a.name))
  | some algorithm =>
    let signed := tokenPart (tokenHeader algorithm) ++ "." ++ tokenPart payload
    .ok (signed ++ "." ++ Base64.encodeForLinks (a.mac secret (Text.bytes signed)))

end Signature

end Bourse
