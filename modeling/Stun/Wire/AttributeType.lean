/-
Stun/Wire/AttributeType.lean

The 16-bit codes that say what an attribute is.

Codes up to `0x7FFF` must be understood by a receiver, the others may be
skipped.  A code with a registered name is shown by it, any other in
hexadecimal.  On the wire one code has a legacy alias: `0x8020` is read as
XOR-MAPPED-ADDRESS (`ofWire`).
-/
import Stun.Octets

namespace Stun

/-- The type of an attribute, any 16-bit code. -/
structure AttributeType where
  code : UInt16
deriving DecidableEq, Repr

namespace AttributeType

/-! ### Registered types -/

def mappedAddress : AttributeType := ⟨0x0001⟩
def username : AttributeType := ⟨0x0006⟩
def messageIntegrity : AttributeType := ⟨0x0008⟩
def errorCode : AttributeType := ⟨0x0009⟩
def unknownAttributes : AttributeType := ⟨0x000A⟩
def xorPeerAddress : AttributeType := ⟨0x0012⟩
def realm : AttributeType := ⟨0x0014⟩
def nonce : AttributeType := ⟨0x0015⟩
def xorRelayedAddress : AttributeType := ⟨0x0016⟩
def xorMappedAddress : AttributeType := ⟨0x0020⟩
def priority : AttributeType := ⟨0x0024⟩
def useCandidate : AttributeType := ⟨0x0025⟩
def software : AttributeType := ⟨0x8022⟩
def alternateServer : AttributeType := ⟨0x8023⟩
def fingerprint : AttributeType := ⟨0x8028⟩
def iceControlled : AttributeType := ⟨0x8029⟩
def iceControlling : AttributeType := ⟨0x802A⟩

/-- The codes that have a name. -/
def registry : List (UInt16 × String) :=
  [(0x0001, "MAPPED-ADDRESS"), (0x0006, "USERNAME"), (0x0008, "MESSAGE-INTEGRITY"),
   (0x0009, "ERROR-CODE"), (0x000A, "UNKNOWN-ATTRIBUTES"), (0x000C, "CHANNEL-NUMBER"),
   (0x000D, "LIFETIME"), (0x0012, "XOR-PEER-ADDRESS"), (0x0013, "DATA"), (0x0014, "REALM"),
   (0x0015, "NONCE"), (0x0016, "XOR-RELAYED-ADDRESS"), (0x0017, "REQUESTED-ADDRESS-FAMILY"),
   (0x0018, "EVEN-PORT"), (0x0019, "REQUESTED-TRANSPORT"), (0x001A, "DONT-FRAGMENT"),
   (0x0020, "XOR-MAPPED-ADDRESS"), (0x0022, "RESERVATION-TOKEN"), (0x0024, "PRIORITY"),
   (0x0025, "USE-CANDIDATE"), (0x002A, "CONNECTION-ID"), (0x8022, "SOFTWARE"),
   (0x8023, "ALTERNATE-SERVER"), (0x8028, "FINGERPRINT"), (0x8029, "ICE-CONTROLLED"),
   (0x802A, "ICE-CONTROLLING")]

/-- The registered name of a type. -/
def name? (t : AttributeType) : Option String := registry.lookup t.code

/-- A type is shown by its name, and without one as four hexadecimal digits. -/
def text (t : AttributeType) : String :=
  t.name?.getD ("0x" ++ Octets.upperHex 4 t.code.toNat)

/-! ### Obligations of the receiver -/

/-- A receiver that does not know the type has to refuse the message. -/
def isRequired (t : AttributeType) : Bool := t.code ≤ 0x7FFF

/-- A receiver that does not know the type may skip the attribute. -/
def isOptional (t : AttributeType) : Bool := !t.isRequired

/-! ### Reading from the wire -/

/-- The code under which old senders put XOR-MAPPED-ADDRESS. -/
def legacyXorMappedAddress : UInt16 := 0x8020

/-- The type a code on the wire stands for. -/
def ofWire (code : UInt16) : AttributeType :=
  if code = legacyXorMappedAddress then xorMappedAddress else ⟨code⟩

end AttributeType

end Stun
