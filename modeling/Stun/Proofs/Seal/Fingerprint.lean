/-
Stun/Proofs/Seal/Fingerprint.lean

Appending and verifying a fingerprint agree.

The writer checks the octets there are, under a header that already counts the
fingerprint; the verifier checks the octets before the first fingerprint, under
the length that its place in the message gives.  Both are the same octets
(`expected_eq`), though the verifier takes them in pieces (`expected_pieces`), and
a length that its field cannot hold is declared only where the attribute is
refused afterwards.  Main result: `verifies_of_addTo`.
-/
import Stun.Proofs.Seal.Cover

namespace Stun

open Segment Message

theorem AttributeType.hasNoAlias_fingerprint : AttributeType.fingerprint.HasNoAlias := by
  unfold HasNoAlias
  decide

namespace Fingerprint

variable {m m' : Message} {word : UInt16} {received appended front back : List Segment}

/-! ### Values -/

/-- The value that is appended for some octets. -/
def stamp (bs : List UInt8) : List UInt8 := Octets.bigEndian 4 (value bs).toNat

@[simp] theorem length_stamp (bs : List UInt8) : (stamp bs).length = size :=
  Octets.length_bigEndian 4 _

/-- A value of four octets is read back. -/
theorem field_stamp (bs : List UInt8) :
    ∃ n, Message.field (stamp bs) 0 4 = some n ∧ UInt32.ofNat n = value bs := by
  have hlt : (value bs).toNat < 256 ^ 4 := (value bs).toNat_lt
  refine ⟨(value bs).toNat, ?_, UInt32.ofNat_toNat⟩
  have hread := field_front (Octets.length_bigEndian 4 (value bs).toNat) []
  rwa [List.append_nil, Octets.toNat_bigEndian, Nat.mod_eq_of_lt hlt] at hread

/-! ### Verifying -/

/-- The verifier may feed its three pieces one after the other. -/
theorem expected_pieces {raw first body : List UInt8} {offset : Nat}
    (hfirst : Octets.slice? raw 0 2 = some first) (hbody : Octets.slice? raw 4 offset = some body)
    (length : Nat) :
    expected raw offset length = some
      (~~~Hash.Crc32.feed (Hash.Crc32.feed (Hash.Crc32.feed 0xFFFFFFFF first)
        (Octets.bigEndian 2 length)) body ^^^ mask) := by
  simp only [expected, hfirst, hbody, value, Hash.Crc32.checksum, Hash.Crc32.feed_append]

/-- The verifier checks what stands before the fingerprint, under the length
that counts it. -/
theorem expected_eq (h : m.Layout word received appended)
    (hsplit : received ++ appended = front ++ back) :
    expected m.raw (headerSize + (row front).length)
        (headerSize + (row front).length + attributeHeaderSize + size - headerSize)
      = some (value (beforeSeal size word m.id front)) := by
  obtain ⟨hword, hbody⟩ := h.slice?_front hsplit
  have hlength : headerSize + (row front).length + attributeHeaderSize + size - headerSize
      = (row front).length + (attributeHeaderSize + size) := by
    omega
  simp only [expected, hword, hbody, hlength, beforeSeal, head, List.append_assoc]

/-- **The first fingerprint verifies** if it is that of the octets before it. -/
theorem check_of_sealed (m : Message) (h : m.Sealed .fingerprint stamp size) :
    check m = .ok () := by
  obtain ⟨word, received, appended, front, s, back, hl, hsplit, hs⟩ := h
  obtain ⟨hget, after, hoffset, -⟩ :=
    hl.lookup_first AttributeType.hasNoAlias_fingerprint hsplit hs.code hs.first
  rw [hs.value] at hget
  obtain ⟨n, hfield, hn⟩ := field_stamp (beforeSeal size word m.id front)
  simp only [check, hoffset, hget, length_stamp, ne_eq, not_true_eq_false, if_false, hfield,
    expected_eq hl hsplit, hn, if_true]

/-! ### Appending -/

/-- What is appended is the value for what there is. -/
theorem addTo_eq (h : m.Layout word received appended) :
    addTo m = Edit.add .fingerprint
      (stamp (beforeSeal size word m.id (received ++ appended))) m := by
  rw [h.fingerprint_addTo, h.length]
  rfl

/-- **Appending and verifying agree, whatever follows the fingerprint.**  A
message without a fingerprint takes one as long as its length can count it; the
value is that of the octets before it as they stand then, and verifies there,
behind all that is appended later, and at any receiver. -/
theorem verifies_of_addTo {received? : Option Nat} (hm : Reached received? m)
    (hf : m.contains .fingerprint = false) :
    ((∃ m', addTo m = (.ok (), m')) ↔ m.length + 8 ≤ 65535) ∧
    ∀ m', addTo m = (.ok (), m') →
      m'.length = m.length + 8 ∧
      Octets.slice? m'.raw 2 4 = some (Octets.bigEndian 2 (m.length + 8)) ∧
      m'.attributes = m.attributes
        ++ [⟨.fingerprint, 4, Octets.bigEndian 4 (value (m'.raw.take (20 + m.length))).toNat⟩] ∧
      ∀ m'', Appended m' m'' →
        check m'' = .ok () ∧ ∃ d, Message.decode m''.encode = .ok d ∧ check d = .ok () := by
  obtain ⟨word, received, appended, h, -, -⟩ := hm.layout
  rw [addTo_eq h]
  refine ⟨by rw [exists_editAdd_iff, length_stamp]; rfl, ?_⟩
  intro m' ha
  have hadd := editAdd_eq_ok_iff.mp ha
  obtain ⟨hlength, hfield, hattributes⟩ := h.added_seal length_stamp rfl hadd
  have hsealed := h.sealed_of_add AttributeType.hasNoAlias_fingerprint hf hadd
  exact ⟨hlength, hfield, hattributes, fun m'' happ => hsealed.lasts check_of_sealed happ⟩

/-- A request with a name takes a fingerprint, and still verifies at the
receiver when another attribute follows it. -/
theorem verifies_of_addTo_software :
    let m := Message.after [.add .username [0x75, 0x73, 0x65, 0x72, 0x31]]
      (.new ⟨⟨1⟩, .request⟩ .zero)
    ∃ m', addTo m = (.ok (), m') ∧ m'.length = 20 ∧
      ∃ m'', m'.add .software [0x78] = .ok m'' ∧ check m'' = .ok () ∧
        ∃ d, Message.decode m''.encode = .ok d ∧ check d = .ok () := by
  intro m
  have hm : Reached none m :=
    .step (.add .username [0x75, 0x73, 0x65, 0x72, 0x31]) (.new ⟨⟨1⟩, .request⟩ .zero)
  obtain ⟨hiff, hall⟩ := verifies_of_addTo hm (by decide)
  obtain ⟨m', hput⟩ := hiff.mpr (by decide)
  obtain ⟨hlength, -, -, hkept⟩ := hall m' hput
  have hfits : m'.length + (attributeHeaderSize + padded 1) ≤ lengthLimit := by
    rw [hlength]
    decide
  have hmore := add_eq_ok_iff (t := .software) (v := [0x78]).mpr ⟨hfits, rfl⟩
  exact ⟨m', hput, hlength, _, hmore, hkept _ (.add .refl hmore)⟩

end Fingerprint

end Stun
