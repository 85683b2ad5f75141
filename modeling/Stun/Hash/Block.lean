/-
Stun/Hash/Block.lean

What the two digests share: a message is padded to a whole number of 64-octet
blocks, cut into them, and folded into a state of 32-bit words.

The padding is one octet `0x80`, zeros, and the bit length on eight octets,
whose order the digest chooses.  `length_pad` states that it fills the last
block exactly, whatever the message.
-/
import Stun.Octets

namespace Stun.Hash

/-! ### Padding -/

/-- How many octets one block holds. -/
def blockSize : Nat := 64

/-- The message with its padding; `bits` writes the length of the message in bits. -/
def pad (bits : Nat → List UInt8) (message : List UInt8) : List UInt8 :=
  let n := message.length
  message ++ 0x80 :: (List.replicate ((119 - n % 64) % 64) 0 ++ bits (8 * n))

/-- Padding fills whole blocks, provided the length takes eight octets. -/
theorem length_pad (bits : Nat → List UInt8) (h : ∀ n, (bits n).length = 8)
    (message : List UInt8) : (pad bits message).length % blockSize = 0 := by
  simp only [pad, blockSize, List.length_append, List.length_cons, List.length_replicate, h]
  omega

/-! ### Blocks and words -/

/-- The pieces of `n + 1` elements of a list; a last, shorter piece is kept. -/
def chunks {α : Type} (n : Nat) (xs : List α) : List (List α) :=
  match xs with
  | [] => []
  | x :: r => (x :: r.take n) :: chunks n (r.drop n)
termination_by xs.length
decreasing_by
  simp only [List.length_cons, List.length_drop]
  omega

/-- The 64-octet blocks of a padded message. -/
def blocks (padded : List UInt8) : List (List UInt8) := chunks 63 padded

/-- The 32-bit words of a block, each read by `word`. -/
def words (word : List UInt8 → UInt32) (block : List UInt8) : List UInt32 :=
  (chunks 3 block).map word

/-- The bits of `x` moved `k` places up, those pushed out coming back below. -/
def rotateLeft (k x : UInt32) : UInt32 := (x <<< k) ||| (x >>> (32 - k))

end Stun.Hash
