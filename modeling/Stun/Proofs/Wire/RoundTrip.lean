/-
Stun/Proofs/Wire/RoundTrip.lean

What is encoded can be decoded.

A message with a layout encodes to a datagram of the grammar, so decoding
cannot fail; and since both messages stand over the same segments, they can be
compared attribute by attribute.  Main result: for every message that can be
reached, decoding its octets gives it back, less what a header has no room for
(the method above twelve bits) and with the legacy alias of one type replaced
(`decode_encode_of_reached`).
-/
import Stun.Proofs.Wire.Layout

namespace Stun

open Segment

/-- The attribute as a receiver understands it: the legacy code stands for
XOR-MAPPED-ADDRESS, any other code for itself. -/
def RawAttribute.unaliased (a : RawAttribute) : RawAttribute :=
  if a.type.code = 0x8020 then { a with type := ⟨0x0020⟩ } else a

namespace Segment

theorem unaliased_asWritten (s : Segment) : s.asWritten.unaliased = s.asRead := by
  by_cases h : s.code = 0x8020
  · simp [RawAttribute.unaliased, asWritten, asRead, AttributeType.ofWire, h,
      AttributeType.legacyXorMappedAddress, AttributeType.xorMappedAddress]
  · simp [RawAttribute.unaliased, asWritten, asRead, AttributeType.ofWire, h,
      AttributeType.legacyXorMappedAddress]

/-- What was read carries no alias any more. -/
theorem unaliased_asRead (s : Segment) : s.asRead.unaliased = s.asRead := by
  by_cases h : s.code = 0x8020
  · simp [RawAttribute.unaliased, asRead, AttributeType.ofWire, h,
      AttributeType.legacyXorMappedAddress, AttributeType.xorMappedAddress]
  · simp [RawAttribute.unaliased, asRead, AttributeType.ofWire, h,
      AttributeType.legacyXorMappedAddress]

end Segment

/-- An attribute is understood as it stands exactly if it has another code than
the alias. -/
theorem RawAttribute.unaliased_eq_self_iff {a : RawAttribute} :
    a.unaliased = a ↔ a.type.code ≠ 0x8020 := by
  obtain ⟨⟨code⟩, length, value⟩ := a
  by_cases h : code = 0x8020 <;> simp [unaliased, h]

namespace Message

variable {m : Message} {word : UInt16} {received appended : List Segment}

/-- The attributes of a message as a receiver understands them are those of
its segments. -/
theorem Layout.map_unaliased (h : m.Layout word received appended) :
    m.attributes.map RawAttribute.unaliased = (received ++ appended).map asRead := by
  rw [h.attributes, List.map_append, List.map_append, List.map_map, List.map_map]
  congr 1
  · exact List.map_congr_left fun s _ => unaliased_asRead s
  · exact List.map_congr_left fun s _ => unaliased_asWritten s

/-- The octets of a message are a datagram of the grammar. -/
theorem Layout.decode_encode (h : m.Layout word received appended) :
    decode m.encode = .ok
      { type := m.type.low, length := m.length, id := m.id,
        attributes := m.attributes.map RawAttribute.unaliased, raw := m.raw } := by
  refine decode_eq_ok_iff.mpr ⟨word, m.id, received ++ appended, ?_, ?_, ?_⟩
  · rw [← h.length]
    exact h.fits
  · rw [← h.length, encode]
    exact h.raw
  · rw [h.type, ← h.length, h.map_unaliased]
    rfl

/-- A decoded message is laid out over the same octets, all of them received. -/
theorem Layout.decoded (h : m.Layout word received appended) {m' : Message}
    (hd : decode m.encode = .ok m') :
    m'.Layout word (received ++ appended) [] ∧ m'.id = m.id := by
  rw [h.decode_encode, Except.ok.injEq] at hd
  subst hd
  refine ⟨?_, rfl⟩
  constructor
  case raw => rw [List.append_nil]; exact h.raw
  case type =>
    rw [h.type]
    exact (h.type ▸ MessageType.low_ofWord word).symm
  case length => rw [List.append_nil]; exact h.length
  case fits => exact h.fits
  case attributes =>
    rw [List.map_nil, List.append_nil]
    exact h.map_unaliased
  case clean => simp

/-- **Decoding undoes encoding**, for every message that operations lead to:
only method bits above the twelfth and the legacy alias do not come back. -/
theorem decode_encode_of_reached {received? : Option Nat} (hm : Reached received? m) :
    ∃ m', decode m.encode = .ok m' ∧
      m'.id = m.id ∧ m'.length = m.length ∧ m'.raw = m.raw ∧
      m'.type.cls = m.type.cls ∧
      m'.type.method.code.toNat = m.type.method.code.toNat % 4096 ∧
      m'.attributes = m.attributes.map RawAttribute.unaliased ∧
      (m'.same m = true ↔
        m.type.method.code.toNat < 4096 ∧ ∀ a ∈ m.attributes, a.type.code ≠ 0x8020) := by
  obtain ⟨word, received, appended, h, -, -⟩ := hm.layout
  refine ⟨_, h.decode_encode, rfl, rfl, rfl, rfl, ?_, rfl, ?_⟩
  · show (UInt16.ofNat (m.type.method.code.toNat % 4096)).toNat = _
    rw [UInt16.toNat_ofNat']
    omega
  · have hattributes : m.attributes.map RawAttribute.unaliased = m.attributes
        ↔ ∀ a ∈ m.attributes, a.type.code ≠ 0x8020 := by
      constructor
      · intro e a ha
        have := List.map_inj_left.mp (e.trans (List.map_id _).symm) a ha
        exact RawAttribute.unaliased_eq_self_iff.mp this
      · intro hall
        refine (List.map_congr_left fun a ha => ?_).trans (List.map_id _)
        exact RawAttribute.unaliased_eq_self_iff.mpr (hall a ha)
    rw [same, beq_iff_eq, ← hattributes, ← MessageType.low_eq_self_iff, Fields.mk.injEq]
    simp

/-- An alias that was appended under its own code comes back as the type it
stands for, and a method of thirteen bits comes back without the highest. -/
theorem decode_encode_alias :
    let m := Message.after [.add ⟨0x8020⟩ [1, 2, 3]] (.new ⟨⟨0x1001⟩, .request⟩ .zero)
    Reached none m ∧ ∃ m', decode m.encode = .ok m' ∧
      m'.attributes = [⟨.xorMappedAddress, 3, [1, 2, 3]⟩] ∧ m'.type.method.code.toNat = 1 ∧
      m'.same m = false := by
  intro m
  have hm : Reached none m := .step (.add ⟨0x8020⟩ [1, 2, 3]) (.new ⟨⟨0x1001⟩, .request⟩ .zero)
  obtain ⟨m', hd, -, -, -, -, hmethod, hattributes, hsame⟩ := decode_encode_of_reached hm
  refine ⟨hm, m', hd, ?_, ?_, ?_⟩
  · rw [hattributes]
    decide
  · rw [hmethod]
    decide
  · rw [← Bool.not_eq_true, hsame]
    decide

end Message

end Stun
