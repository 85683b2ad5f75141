/-
Stun/Seal/Integrity.lean

The authentication code of a message: a keyed digest of everything before the
attribute, under a header length that already counts the attribute.

The verifier knows that length only from what it received: it takes the
length of the message less what follows the attribute.  So attributes that
are appended later, such as a fingerprint, do not disturb the code.
-/
import Stun.Hash.Hmac
import Stun.Hash.Md5
import Stun.Wire.Message

namespace Stun

/-- The key of an authentication code. -/
structure IntegrityKey where
  octets : List UInt8
deriving DecidableEq

namespace IntegrityKey

/-! ### Keys -/

/-- The key of short-term credentials is the password. -/
def shortTerm (password : String) : IntegrityKey := ⟨Octets.ofText password⟩

/-- The key of long-term credentials is a digest of all three parts. -/
def longTerm (username realm password : String) : IntegrityKey :=
  ⟨Hash.md5 (Octets.ofText (username ++ ":" ++ realm ++ ":" ++ password))⟩

/-- A key is shown without its octets. -/
def text (_ : IntegrityKey) : String := "MessageIntegrity(<key>)"

/-! ### Signing and verifying -/

/-- How many octets a code has. -/
def codeSize : Nat := 20

/-- The code of some octets. -/
def code (key : IntegrityKey) (bs : List UInt8) : List UInt8 := Hash.hmacSha1 key.octets bs

@[simp] theorem length_code (key : IntegrityKey) (bs : List UInt8) :
    (key.code bs).length = codeSize := Hash.length_hmacSha1 _ _

/-- Appends the code of the message so far.  A fingerprint must come after it. -/
def addTo (key : IntegrityKey) : Edit := fun m =>
  if m.contains .fingerprint then
    (.error .fingerprintFirst, m)
  else
    let (code, m) := m.pretending (attributeHeaderSize + codeSize) key.code
    Edit.add .messageIntegrity code m

/-- What a code covers: the octets before the attribute at `offset`, with
`length` in place of the header's length. -/
def covered (raw : List UInt8) (offset length : Nat) : Option (List UInt8) :=
  match Octets.slice? raw 0 2, Octets.slice? raw 4 offset with
  | some front, some body => some (front ++ Octets.bigEndian 2 length ++ body)
  | _, _ => none

/-- Verifies the first code in the message. -/
def check (key : IntegrityKey) (m : Message) : Except Error Unit :=
  match m.offset? .messageIntegrity with
  | none => .error (.notFound .messageIntegrity)
  | some (offset, after) =>
    if m.length < wireSize after then
      .error .inconsistent
    else
      match m.get .messageIntegrity, covered m.raw offset (m.length - wireSize after) with
      | .error e, _ => .error e
      | .ok _, none => .error .inconsistent
      | .ok value, some bs =>
        if key.code bs = value then .ok () else .error .integrityMismatch

end IntegrityKey

end Stun
