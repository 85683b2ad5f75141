/-
Stun/Value/TypeList.lean

The list of attribute types that a receiver had to know and did not, each on
two octets.
-/
import Stun.Wire.Message

namespace Stun

/-- A list of attribute types. -/
structure TypeList where
  types : List AttributeType
deriving DecidableEq, Repr

namespace TypeList

/-- The names of the types, with a word for the empty list. -/
def text (l : TypeList) : String :=
  if l.types.isEmpty then "<nil>" else ", ".intercalate (l.types.map AttributeType.text)

/-- The value of the attribute. -/
def octets (l : TypeList) : List UInt8 :=
  l.types.flatMap fun t => Octets.bigEndian 2 t.code.toNat

/-- The types in a string with an even number of octets. -/
def readTypes : List UInt8 → Option (List AttributeType)
  | [] => some []
  | [_] => none
  | a :: b :: r => (readTypes r).map (⟨UInt16.ofNat (Octets.toNat [a, b])⟩ :: ·)

/-- The list of a value. -/
def read (v : List UInt8) : Except Error TypeList :=
  match readTypes v with
  | some types => .ok ⟨types⟩
  | none => .error .oddTypeList

/-- Appends the list. -/
def addTo (l : TypeList) : Edit := Edit.add .unknownAttributes l.octets

/-- The list in a message. -/
def getFrom (m : Message) : Except Error TypeList := (m.get .unknownAttributes).bind read

end TypeList

end Stun
