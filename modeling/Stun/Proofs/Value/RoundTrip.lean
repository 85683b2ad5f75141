/-
Stun/Proofs/Value/RoundTrip.lean

What is written as a value is read back.

One lemma for each kind of value, all of the same form: reading the octets of
a thing gives the thing, whatever it is.  An address is told by its family how
many octets it has; a list of types comes in pairs of octets; a number fills
its width; a text is what its octets encode.  Only an error code may not come
back as it was, since its hundreds have one octet: it is reduced modulo 25600
(`ErrorReply.read_octets`).
-/
import Stun.Proofs.Wire.Segment
import Stun.Value.Endpoint
import Stun.Value.ErrorCode
import Stun.Value.Number
import Stun.Value.Text
import Stun.Value.TypeList

namespace Stun

open Message

/-! ### Texts -/

@[simp] theorem Octets.length_ofText (s : String) : (ofText s).length = s.utf8ByteSize := rfl

/-- The octets of a text encode it. -/
@[simp] theorem Octets.text?_ofText (s : String) : text? (ofText s) = some s := by
  show String.fromUTF8? s.toUTF8 = some s
  rw [String.fromUTF8?]
  exact dif_pos s.isValidUTF8

@[simp] theorem Text.read_ofText (t : AttributeType) (s : String) :
    read t (Octets.ofText s) = .ok ⟨t, s⟩ := by
  simp only [read, Octets.text?_ofText]

/-! ### Numbers -/

/-- A number that fits its width is read back. -/
theorem Number.read_bigEndian (t : AttributeType) {size n : Nat} (h : n < 256 ^ size) :
    read t size (Octets.bigEndian size n) = .ok n := by
  rw [read, if_pos (Octets.length_bigEndian size n), Octets.toNat_bigEndian, Nat.mod_eq_of_lt h]

/-! ### Addresses -/

/-- The octets of an endpoint are two fields, and its address up to the end. -/
theorem Endpoint.length_octets (e : Endpoint) : e.octets.length = 4 + e.address.family.size := by
  simp only [octets, List.length_append, Octets.length_bigEndian, e.address.length_octets]

/-- **An endpoint is read back**, of either family. -/
@[simp] theorem Endpoint.read_octets (e : Endpoint) : read e.octets = .ok e := by
  have hpos : 0 < e.address.family.size := by cases e.address.family <;> decide
  have hlong : ¬ e.octets.length ≤ 4 := by
    rw [e.length_octets]
    omega
  have hfamily : field e.octets 0 2
      = some (Octets.toNat (Octets.bigEndian 2 e.address.family.code.toNat)) := by
    rw [octets, List.append_assoc]
    exact field_front (Octets.length_bigEndian 2 _) _
  have hport : field e.octets 2 4 = some (Octets.toNat (Octets.bigEndian 2 e.port.toNat)) := by
    rw [octets, List.append_assoc]
    exact field_append (Octets.length_bigEndian 2 _) (by simp) _
  have haddress : Octets.slice? e.octets 4 e.octets.length = some e.address.octets := by
    refine Octets.slice?_back (by simp) ?_
    rw [e.length_octets, e.address.length_octets]
  -- the family that is read says how many octets must follow, and as many do
  simp only [read, if_neg hlong, hfamily, hport, haddress, Octets.ofNat_toNat_bigEndian,
    AddressFamily.ofCode?_code]
  exact dif_pos e.address.length_octets

/-! ### Error codes -/

/-- A field of one octet holds the number of that octet. -/
theorem Message.field_octet (before : List UInt8) (b : UInt8) (after : List UInt8) :
    field (before ++ b :: after) before.length (before.length + 1) = some b.toNat := by
  have hone : Octets.toNat [b] = b.toNat := by
    show 0 * 256 + b.toNat = b.toNat
    omega
  rw [← hone]
  show field (before ++ ([b] ++ after)) _ _ = _
  exact field_append rfl rfl after

/-- A code comes back modulo 25600, as hundreds on one octet and a remainder. -/
theorem ErrorCode.join_hundreds_remainder (c : ErrorCode) :
    join c.hundreds.toNat c.remainder.toNat = ⟨UInt16.ofNat (c.code.toNat % 25600)⟩ := by
  have hhundreds : c.hundreds.toNat = c.code.toNat / 100 % 256 := UInt8.toNat_ofNat'
  have hremainder : c.remainder.toNat = c.code.toNat % 100 % 256 := UInt8.toNat_ofNat'
  have hsum : c.hundreds.toNat * 100 + c.remainder.toNat = c.code.toNat % 25600 := by
    rw [hhundreds, hremainder]
    omega
  rw [join, hsum]

/-- **A reply is read back** with its reason, and with its code modulo 25600. -/
theorem ErrorReply.read_octets (r : ErrorReply) :
    read r.octets = .ok ⟨⟨UInt16.ofNat (r.code.code.toNat % 25600)⟩, r.reason⟩ := by
  have hlong : ¬ r.octets.length < 4 := by
    simp only [octets, List.length_cons]
    omega
  have hhundreds : field r.octets 2 3 = some r.code.hundreds.toNat :=
    field_octet [0, 0] _ _
  have hremainder : field r.octets 3 4 = some r.code.remainder.toNat :=
    field_octet [0, 0, r.code.hundreds] _ _
  have hreason : Octets.slice? r.octets 4 r.octets.length = some (Octets.ofText r.reason) := by
    show Octets.slice? ([0, 0, r.code.hundreds, r.code.remainder] ++ Octets.ofText r.reason) 4 _
      = some (Octets.ofText r.reason)
    exact Octets.slice?_back rfl (Nat.add_comm 4 _)
  simp only [read, if_neg hlong, hhundreds, hremainder, hreason, Octets.text?_ofText,
    ErrorCode.join_hundreds_remainder]

/-- A reply is read back as it was exactly if its code is below 25600. -/
theorem ErrorReply.reduced_eq_self_iff (r : ErrorReply) :
    (⟨⟨UInt16.ofNat (r.code.code.toNat % 25600)⟩, r.reason⟩ : ErrorReply) = r ↔
      r.code.code.toNat < 25600 := by
  obtain ⟨⟨code⟩, reason⟩ := r
  have hlt : code.toNat < 2 ^ 16 := code.toNat_lt
  simp only [ErrorReply.mk.injEq, ErrorCode.mk.injEq, and_true]
  rw [← UInt16.toNat_inj, UInt16.toNat_ofNat']
  omega

/-! ### Lists of types -/

theorem TypeList.length_octets (l : TypeList) : l.octets.length = 2 * l.types.length := by
  simp [octets, List.length_flatMap, List.map_const', Nat.mul_comm]

/-- The types of a list are read back one after the other. -/
theorem TypeList.readTypes_octets (types : List AttributeType) :
    readTypes (octets ⟨types⟩) = some types := by
  induction types with
  | nil => rfl
  | cons t r ih =>
    have hfront : octets ⟨t :: r⟩ = UInt8.ofNat (t.code.toNat / 256)
        :: UInt8.ofNat t.code.toNat :: octets ⟨r⟩ := rfl
    have hcode : UInt16.ofNat (Octets.toNat
        [UInt8.ofNat (t.code.toNat / 256), UInt8.ofNat t.code.toNat]) = t.code :=
      Octets.ofNat_toNat_bigEndian t.code
    rw [hfront, readTypes, ih, hcode]
    rfl

/-- **A list of types is read back**, however long. -/
@[simp] theorem TypeList.read_octets (l : TypeList) : read l.octets = .ok l := by
  rw [read, show readTypes l.octets = some l.types from readTypes_octets l.types]

end Stun
