/-
Stun/Value/Number.lean

Attributes of connectivity checks: a priority on four octets, a tie-breaker
on eight for either role, and a flag whose presence is all it says.
-/
import Stun.Wire.Message

namespace Stun.Number

/-! ### Values of one size -/

/-- The number of a value that must have `size` octets. -/
def read (t : AttributeType) (size : Nat) (v : List UInt8) : Except Error Nat :=
  if v.length = size then .ok (Octets.toNat v) else .error (.sizeMismatch t v.length size)

/-- The number in the first attribute of type `t`. -/
def getFrom (m : Message) (t : AttributeType) (size : Nat) : Except Error Nat :=
  (m.get t).bind (read t size)

/-! ### Priorities, tie-breakers, nomination -/

/-- Appends a priority. -/
def addPriority (n : UInt32) : Edit := Edit.add .priority (Octets.bigEndian 4 n.toNat)

/-- The priority in a message. -/
def priority (m : Message) : Except Error UInt32 := (getFrom m .priority 4).map UInt32.ofNat

/-- Appends the tie-breaker of the controlled or the controlling role. -/
def addTieBreaker (t : AttributeType) (n : UInt64) : Edit :=
  Edit.add t (Octets.bigEndian 8 n.toNat)

/-- The tie-breaker under the type of its role. -/
def tieBreaker (m : Message) (t : AttributeType) : Except Error UInt64 :=
  (getFrom m t 8).map UInt64.ofNat

/-- Appends the flag that nominates a pair of candidates. -/
def addUseCandidate : Edit := Edit.add .useCandidate []

/-- The flag is set. -/
def useCandidate (m : Message) : Bool := m.contains .useCandidate

end Stun.Number
