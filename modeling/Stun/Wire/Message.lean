/-
Stun/Wire/Message.lean

Messages: a header of twenty octets and a row of attributes, each padded to a
multiple of four.

A message is kept twice, as fields and as the octets that will be sent
(`raw`), and every operation extends both.  So a hash over "the message so
far" always finds octets whose header agrees with the fields.  Two messages
are the same if their fields are; the octets may still differ where the
format leaves a choice, in the padding and in the bits a receiver ignores.

    raw = type (2) | length (2) | cookie (4) | id (12) | attribute | ... | attribute
    attribute = type (2) | length (2) | value | padding (0 to 3)

Appending (`add`) is refused where a length would not fit into its sixteen
bits.  Hashes that cover an attribute yet to come look at the message through
`pretending`, under a header length that already counts it.
-/
import Stun.Error
import Stun.Wire.MessageType
import Stun.Wire.TransactionId

namespace Stun

/-! ### Sizes -/

/-- How many octets a header has. -/
def headerSize : Nat := 20

/-- How many octets stand before the value of an attribute. -/
def attributeHeaderSize : Nat := 4

/-- The word that marks a header. -/
def magicCookie : UInt32 := 0x2112A442

/-- The greatest length that sixteen bits can declare. -/
def lengthLimit : Nat := 65535

/-- A length rounded up to a multiple of four. -/
def padded (n : Nat) : Nat := (n + 3) / 4 * 4

theorem le_padded (n : Nat) : n ≤ padded n := by unfold padded; omega

theorem padded_lt (n : Nat) : padded n < n + 4 := by unfold padded; omega

theorem padded_mod (n : Nat) : padded n % 4 = 0 := by unfold padded; omega

/-! ### Attributes as they travel -/

/-- An attribute whose value is still octets. -/
structure RawAttribute where
  type : AttributeType
  /-- The declared length, which does not count the padding. -/
  length : UInt16
  value : List UInt8
deriving DecidableEq, Repr

/-- How many octets an attribute takes in a message, padding included. -/
def RawAttribute.wireSize (a : RawAttribute) : Nat :=
  attributeHeaderSize + padded a.length.toNat

/-- How many octets a row of attributes takes. -/
def wireSize : List RawAttribute → Nat
  | [] => 0
  | a :: as => a.wireSize + wireSize as

/-- The octets of an attribute with type `t` and value `v`, padded with zeros. -/
def encodeAttribute (t : AttributeType) (v : List UInt8) : List UInt8 :=
  Octets.bigEndian 2 t.code.toNat ++ Octets.bigEndian 2 v.length ++ v ++
    List.replicate (padded v.length - v.length) 0

theorem length_encodeAttribute (t : AttributeType) (v : List UInt8) :
    (encodeAttribute t v).length = attributeHeaderSize + padded v.length := by
  have := le_padded v.length
  simp [encodeAttribute, attributeHeaderSize]
  omega

/-! ### Messages -/

/-- The fields of a message. -/
structure Message.Fields where
  type : MessageType
  /-- How many octets follow the header, padding included. -/
  length : Nat
  id : TransactionId
  /-- The attributes in the order they travel; of several of one type the first counts. -/
  attributes : List RawAttribute
deriving DecidableEq

/-- A message: its fields and the octets to be sent. -/
structure Message extends Message.Fields where
  raw : List UInt8
deriving DecidableEq

namespace Message

/-- The twenty octets of a header. -/
def header (type : MessageType) (length : Nat) (id : TransactionId) : List UInt8 :=
  Octets.bigEndian 2 type.toWord.toNat ++ Octets.bigEndian 2 length ++
    Octets.bigEndian 4 magicCookie.toNat ++ id.octets

@[simp] theorem length_header (type : MessageType) (length : Nat) (id : TransactionId) :
    (header type length id).length = headerSize := by
  simp [header, id.length_octets, headerSize]

/-- The message without attributes. -/
def new (type : MessageType) (id : TransactionId) : Message :=
  { type, length := 0, id, attributes := [], raw := header type 0 id }

instance : Inhabited Message := ⟨new ⟨⟨0⟩, .request⟩ .zero⟩

/-- The octets to be sent. -/
def encode (m : Message) : List UInt8 := m.raw

/-- Messages are the same if their fields are. -/
def same (a b : Message) : Bool := a.toFields == b.toFields

/-- A message in one line. -/
def text (m : Message) : String :=
  s!"{m.type.text} l={m.length} attrs={m.attributes.length} id={m.id.text}"

/-! ### Rewriting the header -/

/-- Writes the whole header again from the fields. -/
def writeHeader (m : Message) : Message :=
  { m with raw := header m.type m.length m.id ++ m.raw.drop headerSize }

/-- Writes the length in the header again. -/
def writeLength (m : Message) : Message :=
  { m with raw := m.raw.take 2 ++ Octets.bigEndian 2 m.length ++ m.raw.drop 4 }

/-- Changes the type. -/
def setType (m : Message) (type : MessageType) : Message := writeHeader { m with type }

/-- Changes the id.  Attributes that were masked with the old id stay as they are. -/
def setId (m : Message) (id : TransactionId) : Message := writeHeader { m with id }

/-- Drops the attributes and all octets after the header. -/
def reset (m : Message) : Message :=
  let kept := m.raw.take headerSize
  writeHeader
    { m with
      attributes := []
      length := 0
      raw := kept ++ List.replicate (headerSize - kept.length) 0 }

/-- What `f` makes of the octets while the header declares `extra` octets
more, and the message with its own length declared again. -/
def pretending {α : Type} (m : Message) (extra : Nat) (f : List UInt8 → α) : α × Message :=
  let longer := writeLength { m with length := m.length + extra }
  (f longer.raw, writeLength { longer with length := m.length })

/-! ### Appending attributes -/

/-- Appends an attribute, unless a length would not fit into its field.  What
is refused reports the room an unpadded value would have. -/
def add (m : Message) (t : AttributeType) (v : List UInt8) : Except Error Message :=
  let size := attributeHeaderSize + padded v.length
  if lengthLimit < v.length ∨ lengthLimit < m.length + size then
    .error (.sizeOverflow t v.length (lengthLimit - (m.length + attributeHeaderSize)))
  else
    .ok <| writeLength
      { m with
        length := m.length + size
        attributes := m.attributes ++ [⟨t, UInt16.ofNat v.length, v⟩]
        raw := m.raw ++ encodeAttribute t v }

/-! ### Looking attributes up -/

/-- The first attribute of a type. -/
def find? (m : Message) (t : AttributeType) : Option RawAttribute :=
  m.attributes.find? (·.type = t)

/-- Some attribute has the type. -/
def contains (m : Message) (t : AttributeType) : Bool := (m.find? t).isSome

/-- The value of the first attribute of a type. -/
def get (m : Message) (t : AttributeType) : Except Error (List UInt8) :=
  match m.find? t with
  | some a => .ok a.value
  | none => .error (.notFound t)

/-- Where in the octets the first attribute of a type begins, counted on from
`offset`, and the attributes after it. -/
def locate (t : AttributeType) : (offset : Nat) → List RawAttribute → Option (Nat × List RawAttribute)
  | _, [] => none
  | offset, a :: after =>
    if a.type = t then some (offset, after) else locate t (offset + a.wireSize) after

/-- Where in `raw` the first attribute of a type begins, and the attributes after it. -/
def offset? (m : Message) (t : AttributeType) : Option (Nat × List RawAttribute) :=
  locate t headerSize m.attributes

end Message

/-! ### Edits -/

/-- A change of a message that may be refused. -/
abbrev Edit := Attempt Message

/-- Appends an attribute; a refusal leaves the message as it was. -/
def Edit.add (t : AttributeType) (v : List UInt8) : Edit := fun m =>
  match m.add t v with
  | .ok m' => (.ok (), m')
  | .error e => (.error e, m)

end Stun
