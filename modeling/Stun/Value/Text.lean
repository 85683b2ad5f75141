/-
Stun/Value/Text.lean

Attributes whose value is a text in UTF-8: user names, realms, nonces,
software descriptions, and any other type a caller chooses.  Only the four
named types bound the size of their text.
-/
import Stun.Wire.Message

namespace Stun

/-- A text under an attribute type. -/
structure Text where
  type : AttributeType
  text : String
deriving DecidableEq, Repr

namespace Text

/-! ### Limits -/

/-- The greatest size of a user name. -/
def usernameLimit : Nat := 513

/-- The greatest size of a realm. -/
def realmLimit : Nat := 763

/-- The greatest size of a nonce. -/
def nonceLimit : Nat := 763

/-- The greatest size of a software description. -/
def softwareLimit : Nat := 763

/-- The greatest size of a text of the type, if it has one of its own. -/
def limit? (t : AttributeType) : Option Nat :=
  if t = .username then some usernameLimit
  else if t = .realm then some realmLimit
  else if t = .nonce then some nonceLimit
  else if t = .software then some softwareLimit
  else none

/-! ### Writing and reading -/

/-- Appends the text, unless it is longer than its type allows. -/
def addTo (x : Text) : Edit := fun m =>
  match limit? x.type with
  | some limit =>
    if limit < x.text.utf8ByteSize then
      (.error (.sizeOverflow x.type x.text.utf8ByteSize limit), m)
    else
      Edit.add x.type (Octets.ofText x.text) m
  | none => Edit.add x.type (Octets.ofText x.text) m

/-- The text of a value of type `t`. -/
def read (t : AttributeType) (v : List UInt8) : Except Error Text :=
  match Octets.text? v with
  | some s => .ok ⟨t, s⟩
  | none => .error (.badText t)

/-- The text in the first attribute of type `t`. -/
def getFrom (m : Message) (t : AttributeType) : Except Error Text := (m.get t).bind (read t)

end Text

end Stun
