/-
Stun/Operation.lean

Everything that changes a message, as one type, so that a message can be
described by how it came about: `Message.after ops m` is what the operations
make of `m`, whether each of them succeeds or is refused.
-/
import Stun.Attribute

namespace Stun

/-- A change of a message. -/
inductive Operation where
  | reset
  | build (attributes : List Attribute)
  | setType (type : MessageType)
  | setId (id : TransactionId)
  | writeHeader
  | writeLength
  | add (type : AttributeType) (value : List UInt8)
  | put (a : Attribute)
deriving DecidableEq

/-- What an operation does to a message. -/
def Operation.apply : Operation → Edit
  | reset, m => (.ok (), m.reset)
  | build attributes, m => Message.build attributes m
  | setType type, m => (.ok (), m.setType type)
  | setId id, m => (.ok (), m.setId id)
  | writeHeader, m => (.ok (), m.writeHeader)
  | writeLength, m => (.ok (), m.writeLength)
  | add type value, m => Edit.add type value m
  | put a, m => a.addTo m

/-- The message that operations make of a message, one after the other. -/
def Message.after (ops : List Operation) (m : Message) : Message :=
  ops.foldl (fun m op => (op.apply m).2) m

end Stun
