/-
Stun/Seal/Fingerprint.lean

The fingerprint of a message: a redundancy check over everything before the
attribute, under a header length that already counts the attribute.  It tells
messages from other traffic and finds every short burst of damage.

The verifier takes that length from where the attribute begins, so whatever
follows it does not matter.
-/
import Stun.Hash.Crc32
import Stun.Wire.Frame

namespace Stun.Fingerprint

/-! ### The value -/

/-- How many octets a fingerprint has. -/
def size : Nat := 4

/-- What the check value is combined with, so that it differs from a check
value that the rest of a packet may carry. -/
def mask : UInt32 := 0x5354554E

/-- The fingerprint of some octets. -/
def value (bs : List UInt8) : UInt32 := Hash.Crc32.checksum bs ^^^ mask

/-! ### Appending and verifying -/

/-- Appends the fingerprint of the message so far. -/
def addTo : Edit := fun m =>
  let (value, m) := m.pretending (attributeHeaderSize + size) value
  Edit.add .fingerprint (Octets.bigEndian 4 value.toNat) m

/-- The fingerprint of the octets before `offset`, with `length` in place of
the header's length, if there are as many octets. -/
def expected (raw : List UInt8) (offset length : Nat) : Option UInt32 :=
  match Octets.slice? raw 0 2, Octets.slice? raw 4 offset with
  | some front, some body => some (value (front ++ Octets.bigEndian 2 length ++ body))
  | _, _ => none

/-- Verifies the first fingerprint in the message. -/
def check (m : Message) : Except Error Unit :=
  match m.offset? .fingerprint with
  | none => .error (.notFound .fingerprint)
  | some (offset, _) =>
    match m.get .fingerprint with
    | .error e => .error e
    | .ok v =>
      if v.length ≠ size then
        .error (.sizeMismatch .fingerprint v.length size)
      else
        match Message.field v 0 4,
          expected m.raw offset (offset + attributeHeaderSize + size - headerSize) with
        | some actual, some expected =>
          if expected = UInt32.ofNat actual then .ok ()
          else .error (.fingerprintMismatch expected (UInt32.ofNat actual))
        | _, _ => .error .inconsistent

end Stun.Fingerprint
