/-
Stun/Wire/Frame.lean

Reading a message from the octets of one datagram.

The checks come in a fixed order, and the first that fails names the defect:
a header's worth of octets, the cookie, the declared length against the octets
there are, and then attribute by attribute a whole attribute header and a
whole padded value.  The contents of the padding and the two top bits of the
first word are not looked at; `raw` keeps them as they came.
-/
import Stun.Wire.Message

namespace Stun

/-- A cheap test that tells messages from other traffic on the same port: a
whole header with the cookie in place. -/
def looksLikeMessage (bs : List UInt8) : Bool :=
  match Octets.take? headerSize bs with
  | some (front, _) => Octets.slice? front 4 8 == some (Octets.bigEndian 4 magicCookie.toNat)
  | none => false

namespace Message

/-! ### The header -/

/-- What a header says. -/
structure HeaderFields where
  type : MessageType
  length : Nat
  id : TransactionId

/-- The number in octets `start` to `stop` of a string that reaches that far. -/
def field (bs : List UInt8) (start stop : Nat) : Option Nat :=
  (Octets.slice? bs start stop).map Octets.toNat

/-- Reads the header, and hands on the octets after it. -/
def readHeader (bs : List UInt8) : Except Error (HeaderFields × List UInt8) :=
  match Octets.take? headerSize bs with
  | none => .error .headerTooShort
  | some (front, rest) =>
    match field front 4 8 with
    | none => .error .inconsistent
    | some cookie =>
      if UInt32.ofNat cookie = magicCookie then
        match field front 0 2, field front 2 4,
          (Octets.slice? front 8 20).bind TransactionId.ofOctets? with
        | some word, some length, some id =>
          .ok ({ type := .ofWord (UInt16.ofNat word), length, id }, rest)
        | _, _, _ => .error .inconsistent
      else
        .error (.badCookie (UInt32.ofNat cookie))

/-! ### Attributes -/

/-- The attribute at the front of a string, and the octets after its padding. -/
def readAttribute (bs : List UInt8) : Except Error (RawAttribute × List UInt8) :=
  match Octets.take? attributeHeaderSize bs with
  | none => .error .truncated
  | some (front, rest) =>
    match field front 0 2, field front 2 4 with
    | some code, some length =>
      match Octets.take? (padded length) rest with
      | none => .error .valueTruncated
      | some (body, rest) =>
        match Octets.slice? body 0 length with
        | some value =>
          .ok (⟨.ofWire (UInt16.ofNat code), UInt16.ofNat length, value⟩, rest)
        | none => .error .inconsistent
    | _, _ => .error .inconsistent

/-- Reading an attribute uses up octets. -/
theorem length_lt_of_readAttribute {bs rest : List UInt8} {a : RawAttribute}
    (h : readAttribute bs = .ok (a, rest)) : rest.length < bs.length := by
  unfold readAttribute at h
  split at h
  · contradiction
  · rename_i front tail ht
    obtain ⟨rfl, hl⟩ := Octets.take?_eq_some_iff.mp ht
    split at h
    · split at h
      · contradiction
      · rename_i hb
        obtain ⟨rfl, -⟩ := Octets.take?_eq_some_iff.mp hb
        split at h
        · simp only [Except.ok.injEq, Prod.mk.injEq] at h
          obtain ⟨-, rfl⟩ := h
          simp only [List.length_append, hl, attributeHeaderSize]
          omega
        · contradiction
    · contradiction

/-- The attributes of a string of octets that holds nothing else. -/
def readAttributes (bs : List UInt8) : Except Error (List RawAttribute) :=
  if bs.isEmpty then
    .ok []
  else
    match _h : readAttribute bs with
    | .error e => .error e
    | .ok (a, rest) => (readAttributes rest).map (a :: ·)
termination_by bs.length
decreasing_by exact length_lt_of_readAttribute _h

/-! ### Messages -/

/-- The message of a datagram. -/
def decode (bs : List UInt8) : Except Error Message := do
  let (header, rest) ← readHeader bs
  if header.length ≠ rest.length then
    throw (.lengthMismatch header.length rest.length)
  let attributes ← readAttributes rest
  pure { type := header.type, length := header.length, id := header.id, attributes, raw := bs }

end Message

end Stun
