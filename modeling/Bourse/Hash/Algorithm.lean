import Bourse.Error.Basic
import Bourse.Hash.Md5
import Bourse.Hash.Sha1
import Bourse.Hash.Sha2
import Bourse.Text.CaseMap

/-! # Digests and message authentication

The hash functions that venues use, by name, and the keyed digest built from each of them. -/

namespace Bourse

/-- A hash function. -/
inductive HashAlgorithm where
  | sha1
  | sha256
  | sha384
  | sha512
  | md5
  deriving DecidableEq, Repr

namespace HashAlgorithm

/-- The name of an algorithm. -/
def name : HashAlgorithm → String
  | .sha1 => "sha1"
  | .sha256 => "sha256"
  | .sha384 => "sha384"
  | .sha512 => "sha512"
  | .md5 => "md5"

/-- The algorithm with a name, in any case. -/
def ofName (name : String) : Result HashAlgorithm :=
  Error.require ([sha1, sha256, sha384, sha512, md5].find? fun a => a.name == Text.lower name)
    ("Unsupported hash algorithm: " ++ name)

/-- The digest of a message. -/
def digest : HashAlgorithm → List UInt8 → List UInt8
  | .sha1 => Hash.Sha1.digest
  | .sha256 => Hash.Sha2.digest Hash.Sha2.sha256
  | .sha384 => Hash.Sha2.digest Hash.Sha2.sha384
  | .sha512 => Hash.Sha2.digest Hash.Sha2.sha512
  | .md5 => Hash.Md5.digest

/-- The size of a block in bytes. -/
def blockSize : HashAlgorithm → Nat
  | .sha384 | .sha512 => 128
  | _ => 64

/-- The key as a block: a longer key is hashed first, and zeros fill up. -/
def keyBlock (a : HashAlgorithm) (key : List UInt8) : List UInt8 :=
  let short := if a.blockSize < key.length then a.digest key else key
  short ++ List.replicate (a.blockSize - short.length) 0

/-- The keyed digest of a message: the digest of the digest, with the key mixed in at both levels
under two paddings. -/
def mac (a : HashAlgorithm) (key message : List UInt8) : List UInt8 :=
  let block := a.keyBlock key
  a.digest (block.map (· ^^^ 0x5C) ++ a.digest (block.map (· ^^^ 0x36) ++ message))

end HashAlgorithm

end Bourse
