/-
Stun/Proofs/Wire/Views.lean

The fields and the octets of a message tell the same.

A layout fixes the octets as one concatenation, so where an attribute lies
follows from what stands before it (`Layout.exists_segment`,
`Layout.wireSize_take`).  Main result: in every message that can be reached,
the declared length, the size of the attributes and the count of octets agree,
the header carries the fields, and each attribute lies where the sizes of
those before it say (`views_agree`).  Only attributes that came with a datagram
may lie under another code than their own, or over padding that is not zero.
-/
import Stun.Proofs.Wire.Layout

namespace Stun

open Segment

/-! ### Places of attributes -/

/-- The attribute lies in the octets from `start` on, under `code`, and is
filled up with `padding`. -/
structure RawAttribute.LiesAt (a : RawAttribute) (raw : List UInt8) (start : Nat) (code : UInt16)
    (padding : List UInt8) : Prop where
  type : Octets.slice? raw start (start + 2) = some (Octets.bigEndian 2 code.toNat)
  length : Octets.slice? raw (start + 2) (start + 4) = some (Octets.bigEndian 2 a.length.toNat)
  value : Octets.slice? raw (start + 4) (start + 4 + a.value.length) = some a.value
  padding : Octets.slice? raw (start + 4 + a.value.length) (start + a.wireSize) = some padding

/-- Both readings of a segment lie where the segment does. -/
theorem Segment.liesAt_append (s : Segment) (before after : List UInt8) :
    s.asRead.LiesAt (before ++ (s.octets ++ after)) before.length s.code s.padding := by
  have hle := le_padded s.value.length
  have hsplit : before ++ (s.octets ++ after)
      = before ++ (Octets.bigEndian 2 s.code.toNat ++ (Octets.bigEndian 2 s.value.length
        ++ (s.value ++ (s.padding ++ after)))) := by
    simp only [octets, List.append_assoc]
  have hlength : s.asRead.length.toNat = s.value.length := s.toNat_length
  rw [hsplit]
  constructor
  case type => exact Octets.slice?_append rfl (by simp) _
  case length =>
    rw [← List.append_assoc, hlength]
    exact Octets.slice?_append (by simp) (by simp) _
  case value =>
    rw [← List.append_assoc, ← List.append_assoc]
    exact Octets.slice?_append (by simp) rfl _
  case padding =>
    rw [← List.append_assoc, ← List.append_assoc, ← List.append_assoc]
    refine Octets.slice?_append ?_ ?_ _
    · simp only [List.length_append, Octets.length_bigEndian, asRead]
    · rw [wireSize_asRead, length_octets, s.length_padding, attributeHeaderSize]
      simp only [asRead]
      omega

namespace Message

variable {m : Message} {word : UInt16} {received appended : List Segment}

/-- An attribute is one of the two readings of the segment in its place. -/
theorem Layout.exists_segment (h : m.Layout word received appended) {i : Nat} {a : RawAttribute}
    (ha : m.attributes[i]? = some a) :
    ∃ s, (received ++ appended)[i]? = some s ∧
      (i < received.length ∧ a = s.asRead ∨
        received.length ≤ i ∧ a = s.asWritten ∧ s ∈ appended) := by
  rw [h.attributes] at ha
  rcases Nat.lt_or_ge i received.length with hi | hi
  · rw [List.getElem?_append_left (by rwa [List.length_map]), List.getElem?_map,
      Option.map_eq_some_iff] at ha
    obtain ⟨s, hs, rfl⟩ := ha
    exact ⟨s, by rw [List.getElem?_append_left hi, hs], .inl ⟨hi, rfl⟩⟩
  · rw [List.getElem?_append_right (by rwa [List.length_map]), List.length_map,
      List.getElem?_map, Option.map_eq_some_iff] at ha
    obtain ⟨s, hs, rfl⟩ := ha
    exact ⟨s, by rw [List.getElem?_append_right hi, hs],
      .inr ⟨hi, rfl, List.mem_of_getElem? hs⟩⟩

/-- Attributes take as much room as their segments. -/
theorem Layout.map_wireSize (h : m.Layout word received appended) :
    m.attributes.map RawAttribute.wireSize
      = (received ++ appended).map fun s => s.octets.length := by
  rw [h.attributes, List.map_append, List.map_append, List.map_map, List.map_map]
  congr 1
  · exact List.map_congr_left fun s _ => wireSize_asRead s
  · exact List.map_congr_left fun s _ => wireSize_asWritten s

/-- A row of attributes takes as much room as segments of the same sizes. -/
theorem wireSize_eq_length_row {attributes : List RawAttribute} {segments : List Segment}
    (h : attributes.map RawAttribute.wireSize = segments.map fun s => s.octets.length) :
    wireSize attributes = (row segments).length := by
  induction attributes generalizing segments with
  | nil =>
    obtain rfl := List.map_eq_nil_iff.mp h.symm
    rfl
  | cons a as ih =>
    cases segments with
    | nil => cases h
    | cons s r =>
      obtain ⟨ha, hr⟩ := List.cons.inj h
      rw [wireSize, row_cons, List.length_append, ha, ih hr]

theorem Layout.wireSize_take (h : m.Layout word received appended) (i : Nat) :
    wireSize (m.attributes.take i) = (row ((received ++ appended).take i)).length := by
  apply wireSize_eq_length_row
  rw [List.map_take, h.map_wireSize, ← List.map_take]

/-- The declared length counts the attributes. -/
theorem Layout.length_eq_wireSize (h : m.Layout word received appended) :
    m.length = wireSize m.attributes := by
  rw [wireSize_eq_length_row h.map_wireSize, h.length]

/-- An attribute lies where those before it end. -/
theorem Layout.liesAt (h : m.Layout word received appended) {i : Nat} {a : RawAttribute}
    {s : Segment} (hs : (received ++ appended)[i]? = some s)
    (ha : a = s.asRead ∨ a = s.asWritten) :
    a.LiesAt m.raw (headerSize + wireSize (m.attributes.take i)) s.code s.padding := by
  have hsplit : row (received ++ appended) = row ((received ++ appended).take i)
      ++ (s.octets ++ row ((received ++ appended).drop (i + 1))) := by
    rw [← row_cons, ← row_append]
    congr 1
    obtain ⟨hi, hget⟩ := List.getElem?_eq_some_iff.mp hs
    rw [← hget, ← List.drop_eq_getElem_cons hi, List.take_append_drop]
  have hstart : headerSize + wireSize (m.attributes.take i)
      = (head word m.length m.id ++ row ((received ++ appended).take i)).length := by
    rw [h.wireSize_take, List.length_append, length_head]
  rw [h.raw, hsplit, ← List.append_assoc, hstart]
  rcases ha with rfl | rfl
  · exact s.liesAt_append _ _
  · -- places do not depend on the type under which an attribute is read
    obtain ⟨type, length, value, padding⟩ := s.liesAt_append
      (head word m.length m.id ++ row ((received ++ appended).take i))
      (row ((received ++ appended).drop (i + 1)))
    exact ⟨type, length, value, padding⟩

/-! ### Fields of the header -/

theorem slice?_head (word : UInt16) (length : Nat) (id : TransactionId) (body : List UInt8) :
    Octets.slice? (head word length id ++ body) 0 2 = some (Octets.bigEndian 2 word.toNat) ∧
    Octets.slice? (head word length id ++ body) 2 4 = some (Octets.bigEndian 2 length) ∧
    Octets.slice? (head word length id ++ body) 4 8
      = some (Octets.bigEndian 4 magicCookie.toNat) ∧
    Octets.slice? (head word length id ++ body) 8 20 = some id.octets := by
  have hid := id.length_octets
  simp only [head, List.append_assoc]
  refine ⟨?_, ?_, ?_, ?_⟩
  · exact Octets.slice?_front (by simp) _
  · exact Octets.slice?_append (by simp) (by simp) _
  · rw [← List.append_assoc]
    exact Octets.slice?_append (by simp) (by simp) _
  · rw [← List.append_assoc, ← List.append_assoc]
    exact Octets.slice?_append (by simp) (by rw [hid]) _

/-- **The two views of a message agree**, whatever operations led to it and
whichever of them were refused.  `received?` tells how many attributes came
with a datagram; in a message that was never decoded there are none, so every
type lies there as it is and all padding is zero. -/
theorem views_agree {received? : Option Nat} (hm : Reached received? m) :
    m.length = wireSize m.attributes ∧ m.length % 4 = 0 ∧ m.length ≤ 65535 ∧
    m.raw.length = 20 + m.length ∧
    (∃ word : UInt16, Octets.slice? m.raw 0 2 = some (Octets.bigEndian 2 word.toNat) ∧
      MessageType.ofWord word = m.type.low ∧ (received? = none → word = m.type.toWord)) ∧
    Octets.slice? m.raw 2 4 = some (Octets.bigEndian 2 m.length) ∧
    Octets.slice? m.raw 4 8 = some (Octets.bigEndian 4 0x2112A442) ∧
    Octets.slice? m.raw 8 20 = some m.id.octets ∧
    ∀ i a, m.attributes[i]? = some a →
      a.length.toNat = a.value.length ∧
      ∃ code padding, a.LiesAt m.raw (20 + wireSize (m.attributes.take i)) code padding ∧
        (code = a.type.code ∨ code = 0x8020 ∧ a.type.code = 0x0020 ∧ i < received?.getD 0) ∧
        (received?.getD 0 ≤ i → code = a.type.code ∧ ∀ b ∈ padding, b = 0) := by
  obtain ⟨word, received, appended, h, hn, hw⟩ := hm.layout
  obtain ⟨hword, hlength, hcookie, hid⟩ :=
    slice?_head word m.length m.id (row (received ++ appended))
  rw [← h.raw] at hword hlength hcookie hid
  refine ⟨h.length_eq_wireSize, ?_, h.fits, h.length_raw, ⟨word, hword, h.type, hw⟩, hlength,
    hcookie, hid, ?_⟩
  · rw [h.length]
    exact length_row_mod _
  · intro i a ha
    obtain ⟨s, hs, hcase⟩ := h.exists_segment ha
    have hlies : a.LiesAt m.raw (20 + wireSize (m.attributes.take i)) s.code s.padding :=
      h.liesAt hs (hcase.imp And.right fun h => h.2.1)
    rw [← hn]
    rcases hcase with ⟨hi, rfl⟩ | ⟨hi, rfl, hmem⟩
    · refine ⟨s.toNat_length, s.code, s.padding, hlies, ?_, by omega⟩
      by_cases hlegacy : s.code = 0x8020
      · refine .inr ⟨hlegacy, ?_, hi⟩
        rw [asRead, hlegacy]
        rfl
      · left
        simp only [asRead, AttributeType.ofWire, AttributeType.legacyXorMappedAddress, hlegacy,
          if_false]
    · refine ⟨s.toNat_length, s.code, s.padding, hlies, .inl rfl, fun _ => ⟨rfl, ?_⟩⟩
      rw [h.clean s hmem]
      exact fun b hb => List.eq_of_mem_replicate hb

/-- A segment of an old sender, with rubbish in its padding, and behind it an
attribute that was appended under the same code. -/
theorem views_agree_alias :
    let old : Segment := ⟨0x8020, [1, 2, 3], [9], by decide, by decide⟩
    ∃ m₀, decode (head 0xC001 8 .zero ++ old.octets) = .ok m₀ ∧
      let m := (Operation.apply (.add ⟨0x8020⟩ [7]) m₀).2
      Reached (some 1) m ∧ m.length = 16 ∧ m.raw.length = 36 ∧
      m.attributes = [⟨⟨0x0020⟩, 3, [1, 2, 3]⟩, ⟨⟨0x8020⟩, 1, [7]⟩] ∧
      ∃ padding, RawAttribute.LiesAt ⟨⟨0x8020⟩, 1, [7]⟩ m.raw 28 0x8020 padding ∧
        ∀ b ∈ padding, b = 0 := by
  intro old
  have hd := decode_eq_ok_iff.mpr ⟨0xC001, .zero, [old], by decide, rfl, rfl⟩
  refine ⟨_, hd, ?_⟩
  intro m
  have hm : Reached (some 1) m := .step (.add ⟨0x8020⟩ [7]) (.decode hd)
  obtain ⟨-, -, -, hraw, -, -, -, -, hplaces⟩ := views_agree hm
  have hlast : m.attributes[1]? = some ⟨⟨0x8020⟩, 1, [7]⟩ := by decide
  obtain ⟨-, code, padding, hlies, -, hown⟩ := hplaces 1 _ hlast
  obtain ⟨rfl, hzero⟩ := hown (by decide)
  have hstart : 20 + wireSize (m.attributes.take 1) = 28 := by decide
  rw [hstart] at hlies
  exact ⟨hm, by decide, hraw.trans (by decide), by decide, padding, hlies, hzero⟩

end Message

end Stun
