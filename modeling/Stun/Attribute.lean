/-
Stun/Attribute.lean

All kinds of attributes that can be put into a message, in one type, so that
a message can be described as a list of them.

`Attribute.type` is the type under which an attribute travels and
`Attribute.addTo` puts it there.  A message is built from a list in order
(`Message.build`); the order matters, since the two seals cover what stands
before them.
-/
import Stun.Seal.Fingerprint
import Stun.Seal.Integrity
import Stun.Value.Endpoint
import Stun.Value.ErrorCode
import Stun.Value.Number
import Stun.Value.Text
import Stun.Value.TypeList

namespace Stun

/-- An attribute that can be put into a message. -/
inductive Attribute where
  | mappedAddress (e : Endpoint)
  | alternateServer (e : Endpoint)
  | xorMappedAddress (e : Endpoint)
  | xorPeerAddress (e : Endpoint)
  | xorRelayedAddress (e : Endpoint)
  | messageIntegrity (key : IntegrityKey)
  | fingerprint
  | errorCode (reply : ErrorReply)
  | text (text : Text)
  | unknownAttributes (types : TypeList)
  | priority (n : UInt32)
  | useCandidate
  | iceControlled (n : UInt64)
  | iceControlling (n : UInt64)
  /-- Octets under any type; the declared length is that of the value. -/
  | raw (a : RawAttribute)
deriving DecidableEq

namespace Attribute

/-- The type under which an attribute travels. -/
def type : Attribute → AttributeType
  | mappedAddress _ => .mappedAddress
  | alternateServer _ => .alternateServer
  | xorMappedAddress _ => .xorMappedAddress
  | xorPeerAddress _ => .xorPeerAddress
  | xorRelayedAddress _ => .xorRelayedAddress
  | messageIntegrity _ => .messageIntegrity
  | fingerprint => .fingerprint
  | errorCode _ => .errorCode
  | text x => x.type
  | unknownAttributes _ => .unknownAttributes
  | priority _ => .priority
  | useCandidate => .useCandidate
  | iceControlled _ => .iceControlled
  | iceControlling _ => .iceControlling
  | raw a => a.type

/-- Puts the attribute at the end of a message. -/
def addTo : Attribute → Edit
  | mappedAddress e => e.addTo .mappedAddress
  | alternateServer e => e.addTo .alternateServer
  | xorMappedAddress e => e.addMaskedTo .xorMappedAddress
  | xorPeerAddress e => e.addMaskedTo .xorPeerAddress
  | xorRelayedAddress e => e.addMaskedTo .xorRelayedAddress
  | messageIntegrity key => key.addTo
  | fingerprint => Fingerprint.addTo
  | errorCode reply => reply.addTo
  | text x => x.addTo
  | unknownAttributes types => types.addTo
  | priority n => Number.addPriority n
  | useCandidate => Number.addUseCandidate
  | iceControlled n => Number.addTieBreaker .iceControlled n
  | iceControlling n => Number.addTieBreaker .iceControlling n
  | raw a => Edit.add a.type a.value

end Attribute

/-- Empties the message and puts the attributes in, up to the first that is
refused. -/
def Message.build (attributes : List Attribute) : Edit := fun m =>
  Attempt.all (attributes.map Attribute.addTo) m.reset

end Stun
