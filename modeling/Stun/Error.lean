/-
Stun/Error.lean

Why an operation is refused, and the sentence each cause is reported with.

The causes fall into three groups: octets that are no message, values that do
not fit an attribute, and misuse of transactions.  `inconsistent` stands
apart: it says that the fields of a message disagree with its octets, which
no message made by the operations of this library can show.
-/
import Stun.Wire.AttributeType

namespace Stun

/-- Why an operation was refused. -/
inductive Error where
  /-- Fewer octets than a header has. -/
  | headerTooShort
  /-- The cookie of the header is another word. -/
  | badCookie (found : UInt32)
  /-- The header declares another length than there is. -/
  | lengthMismatch (declared available : Nat)
  /-- The octets end within a fixed part. -/
  | truncated
  /-- The octets end within a value or its padding. -/
  | valueTruncated
  /-- The value of an attribute has not the one size its format has. -/
  | sizeMismatch (type : AttributeType) (got expected : Nat)
  /-- The value of an attribute is longer than allowed. -/
  | sizeOverflow (type : AttributeType) (got max : Nat)
  /-- The message has no such attribute. -/
  | notFound (type : AttributeType)
  /-- The family of an address is unknown. -/
  | badFamily (family : UInt16)
  /-- An address has not the size of its family. -/
  | badAddressSize
  /-- A list of types has an odd number of octets. -/
  | oddTypeList
  /-- The value of an attribute is no UTF-8 text. -/
  | badText (type : AttributeType)
  /-- The authentication code differs from the recomputed one. -/
  | integrityMismatch
  /-- The fingerprint differs from the recomputed one. -/
  | fingerprintMismatch (expected actual : UInt32)
  /-- Integrity must precede the fingerprint. -/
  | fingerprintFirst
  /-- The agent is closed. -/
  | agentClosed
  /-- The client is closed. -/
  | clientClosed
  /-- A transaction with this id is under way. -/
  | transactionExists
  /-- No transaction with this id is under way. -/
  | transactionUnknown
  /-- The transaction was given up by the caller. -/
  | transactionStopped
  /-- The deadline of the transaction passed. -/
  | transactionTimedOut
  /-- Settings could not be read or make no sense. -/
  | configuration (reason : String)
  /-- A key could not be used. -/
  | cryptography (reason : String)
  /-- The fields of a message disagree with its octets. -/
  | inconsistent
deriving DecidableEq, Repr

/-- The sentence that reports a cause. -/
def Error.message : Error → String
  | headerTooShort => "Unexpected EOF: not enough bytes to read header"
  | badCookie w => "Invalid magic cookie: 0x" ++ Octets.upperHex 8 w.toNat
  | lengthMismatch declared available =>
    s!"Message length mismatch: header declares {declared} bytes, {available} available"
  | truncated => "Unexpected EOF"
  | valueTruncated => "Attribute size is invalid"
  | sizeMismatch t got expected =>
    s!"Incorrect length of {t.text}: got {got}, expected {expected}"
  | sizeOverflow t got max => s!"Attribute {t.text} overflows: {got} > {max}"
  | notFound t => "Attribute not found: " ++ t.text
  | badFamily f => "Invalid address family: 0x" ++ Octets.upperHex 4 f.toNat
  | badAddressSize => "Invalid length of IP value"
  | oddTypeList => "Bad UNKNOWN-ATTRIBUTES size"
  | badText t => "Attribute " ++ t.text ++ " is not valid UTF-8"
  | integrityMismatch => "Integrity check failed"
  | fingerprintMismatch expected actual =>
    "Fingerprint check failed: 0x" ++ Octets.upperHex 8 expected.toNat ++
      " (expected) != 0x" ++ Octets.upperHex 8 actual.toNat ++ " (actual)"
  | fingerprintFirst => "FINGERPRINT before MESSAGE-INTEGRITY attribute"
  | agentClosed => "Agent is closed"
  | clientClosed => "Client is closed"
  | transactionExists => "Transaction exists with same id"
  | transactionUnknown => "Transaction not exists"
  | transactionStopped => "Transaction is stopped"
  | transactionTimedOut => "Transaction is timed out"
  | configuration reason => "Configuration error: " ++ reason
  | cryptography reason => "Crypto error: " ++ reason
  | inconsistent => "Message fields disagree with its bytes"

/-! ### Attempts -/

/-- A change of a state that may be refused.  The state comes back in either
case, so that what a refusal leaves behind can be told. -/
abbrev Attempt (σ : Type) := σ → Except Error Unit × σ

/-- The attempts one after the other, up to the first that is refused. -/
def Attempt.all {σ : Type} : List (Attempt σ) → Attempt σ
  | [], s => (.ok (), s)
  | a :: as, s =>
    match a s with
    | (.ok (), s') => Attempt.all as s'
    | (.error e, s') => (.error e, s')

end Stun
