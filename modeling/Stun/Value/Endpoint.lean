/-
Stun/Value/Endpoint.lean

Transport addresses: a family, its octets and a port.

An address travels either as it is or masked: its port and octets combined by
exclusive or with a keystream of the cookie and the transaction id, so that
devices which rewrite addresses inside packets do not find it.  Masking is an
operation on endpoints (`Endpoint.mask`) and undoes itself (`mask_mask`), so
both forms share one writing (`octets`) and one reading (`read`).

    value = family (2) | port (2) | address (4 or 16)
-/
import Stun.Wire.Message
import Stun.Wire.Frame

namespace Stun

/-! ### Addresses -/

/-- The two families of addresses. -/
inductive AddressFamily where
  | v4
  | v6
deriving DecidableEq, Repr

namespace AddressFamily

/-- The number of a family on the wire. -/
def code : AddressFamily → UInt16
  | v4 => 1
  | v6 => 2

/-- How many octets an address of the family has. -/
def size : AddressFamily → Nat
  | v4 => 4
  | v6 => 16

/-- The family of a number on the wire. -/
def ofCode? (n : UInt16) : Option AddressFamily :=
  if n = 1 then some v4 else if n = 2 then some v6 else none

@[simp] theorem ofCode?_code (f : AddressFamily) : ofCode? f.code = some f := by
  cases f <;> rfl

theorem size_le (f : AddressFamily) : f.size ≤ 16 := by cases f <;> decide

end AddressFamily

/-- An address: as many octets as its family has. -/
structure Address where
  family : AddressFamily
  octets : List UInt8
  length_octets : octets.length = family.size
deriving DecidableEq

/-- Where packets come from or go to. -/
structure Endpoint where
  address : Address
  port : UInt16
deriving DecidableEq

/-! ### Text of addresses -/

namespace Address

/-- The 16-bit groups of an address. -/
def groups : List UInt8 → List Nat
  | a :: b :: r => (a.toNat * 256 + b.toNat) :: groups r
  | _ => []

/-- The length of the run of zeros at the front. -/
def zeroRun (gs : List Nat) : Nat := (gs.takeWhile (· = 0)).length

/-- Start and length of the longest run of zeros, the leftmost of equals. -/
def longestZeroRun (gs : List Nat) : Nat × Nat :=
  (List.range gs.length).foldl
    (fun best i => if best.2 < zeroRun (gs.drop i) then (i, zeroRun (gs.drop i)) else best) (0, 0)

/-- Four decimal numbers. -/
def dotted (octets : List UInt8) : String :=
  ".".intercalate (octets.map fun b => toString b.toNat)

/-- Groups in lowercase hexadecimal, without leading zeros. -/
def colons (gs : List Nat) : String :=
  ":".intercalate (gs.map fun g => String.ofList (Nat.toDigits 16 g))

/-- The text of an address.  Of the longer family, the longest run of at least
two zero groups is left out; an address of the shorter family inside the
longer one keeps its dots. -/
def text (a : Address) : String :=
  match a.family with
  | .v4 => dotted a.octets
  | .v6 =>
    let gs := groups a.octets
    if gs.take 6 = [0, 0, 0, 0, 0, 0xFFFF] then
      "::ffff:" ++ dotted (a.octets.drop 12)
    else
      let (start, length) := longestZeroRun gs
      if 1 < length then
        colons (gs.take start) ++ "::" ++ colons (gs.drop (start + length))
      else
        colons gs

end Address

namespace Endpoint

/-- The text of an endpoint; an address with colons goes into brackets. -/
def text (e : Endpoint) : String :=
  match e.address.family with
  | .v4 => e.address.text ++ ":" ++ toString e.port.toNat
  | .v6 => "[" ++ e.address.text ++ "]:" ++ toString e.port.toNat

/-! ### Masking -/

/-- What address octets are combined with: the cookie and the id. -/
def keystream (id : TransactionId) : List UInt8 :=
  Octets.bigEndian 4 magicCookie.toNat ++ id.octets

@[simp] theorem length_keystream (id : TransactionId) : (keystream id).length = 16 := by
  simp [keystream, id.length_octets]

/-- What a port is combined with: the upper half of the cookie. -/
def portMask : UInt16 := 0x2112

/-- Octets combined with the keystream by exclusive or. -/
def maskOctets (id : TransactionId) (octets : List UInt8) : List UInt8 :=
  List.zipWith (· ^^^ ·) octets (keystream id)

theorem length_maskOctets (id : TransactionId) {octets : List UInt8} (h : octets.length ≤ 16) :
    (maskOctets id octets).length = octets.length := by
  simp [maskOctets, Nat.min_eq_left h]

/-- Combining twice with the same keys changes nothing. -/
theorem zipWith_xor_xor : ∀ {octets keys : List UInt8}, octets.length ≤ keys.length →
    List.zipWith (· ^^^ ·) (List.zipWith (· ^^^ ·) octets keys) keys = octets
  | [], _, _ => rfl
  | _ :: _, [], h => by simp at h
  | o :: os, k :: ks, h => by
    simp only [List.length_cons, Nat.add_le_add_iff_right] at h
    simp only [List.zipWith_cons_cons, zipWith_xor_xor h, UInt8.xor_assoc, UInt8.xor_self,
      UInt8.xor_zero]

/-- The endpoint as it shows, or comes back, under the mask of `id`. -/
def mask (id : TransactionId) (e : Endpoint) : Endpoint :=
  { address :=
      { family := e.address.family
        octets := maskOctets id e.address.octets
        length_octets := by
          have h := e.address.length_octets
          rw [length_maskOctets id (h ▸ e.address.family.size_le), h] }
    port := e.port ^^^ portMask }

/-- Masking undoes itself. -/
@[simp] theorem mask_mask (id : TransactionId) (e : Endpoint) : mask id (mask id e) = e := by
  obtain ⟨⟨f, os, h⟩, p⟩ := e
  have hl : os.length ≤ (keystream id).length := by
    rw [length_keystream, h]
    exact f.size_le
  simp only [mask, maskOctets, zipWith_xor_xor hl, UInt16.xor_assoc, UInt16.xor_self,
    UInt16.xor_zero]

/-! ### Writing and reading -/

/-- The value of an address attribute. -/
def octets (e : Endpoint) : List UInt8 :=
  Octets.bigEndian 2 e.address.family.code.toNat ++ Octets.bigEndian 2 e.port.toNat ++
    e.address.octets

/-- The endpoint of a value.  The family decides how many octets must follow. -/
def read (v : List UInt8) : Except Error Endpoint :=
  if v.length ≤ 4 then
    .error .truncated
  else
    match Message.field v 0 2, Message.field v 2 4, Octets.slice? v 4 v.length with
    | some family, some port, some octets =>
      match AddressFamily.ofCode? (UInt16.ofNat family) with
      | none => .error (.badFamily (UInt16.ofNat family))
      | some f =>
        if h : octets.length = f.size then
          .ok ⟨⟨f, octets, h⟩, UInt16.ofNat port⟩
        else
          .error .badAddressSize
    | _, _, _ => .error .inconsistent

/-- Appends the endpoint as it is. -/
def addTo (e : Endpoint) (t : AttributeType) : Edit := Edit.add t e.octets

/-- Appends the endpoint under the mask of the message's id. -/
def addMaskedTo (e : Endpoint) (t : AttributeType) : Edit := fun m =>
  Edit.add t (mask m.id e).octets m

/-- The endpoint in the first attribute of type `t`. -/
def getFrom (m : Message) (t : AttributeType) : Except Error Endpoint :=
  (m.get t).bind read

/-- The endpoint in the first attribute of type `t`, with the mask taken off. -/
def getMaskedFrom (m : Message) (t : AttributeType) : Except Error Endpoint :=
  ((m.get t).bind read).map (mask m.id)

end Endpoint

end Stun
