/-
Stun/Hash/Hmac.lean

Keyed authentication codes: the digest of the message under an inner key,
digested again under an outer key.
-/
import Stun.Hash.Sha1

namespace Stun.Hash

/-- The key on one block: digested first if it is longer, then filled with zeros. -/
def keyBlock (key : List UInt8) : List UInt8 :=
  let short := if blockSize < key.length then sha1 key else key
  short ++ List.replicate (blockSize - short.length) 0

theorem length_keyBlock (key : List UInt8) : (keyBlock key).length = blockSize := by
  simp only [keyBlock, List.length_append, List.length_replicate]
  split <;> simp_all [blockSize]

/-- The authentication code of `message` under `key` with SHA-1. -/
def hmacSha1 (key message : List UInt8) : List UInt8 :=
  let block := keyBlock key
  sha1 (block.map (· ^^^ 0x5C) ++ sha1 (block.map (· ^^^ 0x36) ++ message))

@[simp] theorem length_hmacSha1 (key message : List UInt8) :
    (hmacSha1 key message).length = 20 := length_sha1 _

end Stun.Hash
