import TopUp.Digest.Sha256

/-! # Keyed digests

    The keyed digest of a message is the digest of the key, blended with one
    constant, followed by the digest of the key, blended with another, and the
    message. A key longer than a block is digested first.
-/

namespace TopUp.Digest

/-- The bytes of a block. -/
def blockLength : Nat := 64

/-- A key brought to the length of a block. -/
def blockKey (key : List UInt8) : List UInt8 :=
  let key := if blockLength < key.length then Sha256.digest key else key
  key ++ List.replicate (blockLength - key.length) 0

/-- The keyed SHA-256 digest of a message. -/
def hmacSha256 (key message : List UInt8) : List UInt8 :=
  let key := blockKey key
  let inner := Sha256.digest (key.map (· ^^^ 0x36) ++ message)
  Sha256.digest (key.map (· ^^^ 0x5c) ++ inner)

end TopUp.Digest
