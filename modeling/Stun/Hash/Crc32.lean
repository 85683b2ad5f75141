/-
Stun/Hash/Crc32.lean

The 32-bit cyclic redundancy check with the reflected polynomial
`0xEDB88320`, starting from all ones and complemented at the end.

The register is advanced one octet at a time (`step`), so that the check of a
concatenation continues from the register of its first part (`feed_append`).
-/
import Stun.Octets

namespace Stun.Hash.Crc32

/-- One bit of division: shift down, and subtract the polynomial if a one fell out. -/
def shift (r : UInt32) : UInt32 :=
  if r &&& 1 = 1 then (r >>> 1) ^^^ 0xEDB88320 else r >>> 1

/-- The register after one more octet. -/
def step (r : UInt32) (b : UInt8) : UInt32 :=
  shift (shift (shift (shift (shift (shift (shift (shift (r ^^^ b.toUInt32))))))))

/-- The register after more octets. -/
def feed (r : UInt32) (bs : List UInt8) : UInt32 := bs.foldl step r

@[simp] theorem feed_nil (r : UInt32) : feed r [] = r := rfl

@[simp] theorem feed_cons (r : UInt32) (b : UInt8) (bs : List UInt8) :
    feed r (b :: bs) = feed (step r b) bs := rfl

/-- Feeding in pieces is feeding the concatenation. -/
theorem feed_append (r : UInt32) (as bs : List UInt8) :
    feed r (as ++ bs) = feed (feed r as) bs := by
  simp [feed]

/-- The check value of an octet string. -/
def checksum (bs : List UInt8) : UInt32 := ~~~feed 0xFFFFFFFF bs

end Stun.Hash.Crc32
