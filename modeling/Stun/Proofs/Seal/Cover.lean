/-
Stun/Proofs/Seal/Cover.lean

Attributes that seal what stands before them.

Both seals, the authentication code and the fingerprint, are computed from the
octets before them, under a header that already counts them.  What they cover is
told from the segments before the seal (`beforeSeal`), or read off the octets by
the place of the seal alone (`coveredAt`), and it is the same
(`Layout.coveredAt_eq`).  The segments stay as they are when more is appended,
and when the datagram is decoded, so a message that is sealed stays sealed
(`Sealed.of_appended`, `Sealed.of_decode`).

Main result: appending what a seal is to cover seals the message
(`Layout.sealed_of_add`), and whatever verifies sealed messages then verifies
behind all that follows and at any receiver (`Sealed.lasts`).
-/
import Stun.Proofs.Wire.Lookup
import Stun.Proofs.Wire.RoundTrip

namespace Stun

open Segment

/-! ### What is covered -/

/-- What a seal of `size` octets covers that stands behind the segments
`front`: a header that counts the seal, and the segments. -/
def Segment.beforeSeal (size : Nat) (word : UInt16) (id : TransactionId) (front : List Segment) :
    List UInt8 :=
  Message.head word ((row front).length + (attributeHeaderSize + size)) id ++ row front

/-- The length that counts a seal of `size` octets at `offset`, as a header has it. -/
def Segment.lengthAt (size offset : Nat) : List UInt8 :=
  Octets.bigEndian 2 (offset + attributeHeaderSize + size - headerSize)

/-- What a seal of `size` octets at `offset` covers: the octets before it, with
the length up to its end in place of the declared one. -/
def Segment.coveredAt (size : Nat) (bs : List UInt8) (offset : Nat) : List UInt8 :=
  bs.take 2 ++ lengthAt size offset ++ (bs.take offset).drop 4

/-- What is covered stands where it stood. -/
theorem Segment.getElem?_coveredAt {bs : List UInt8} (hlong : 4 ≤ bs.length)
    (size offset i : Nat) :
    (coveredAt size bs offset)[i]? = if i < 2 then bs[i]?
      else if i < 4 then (lengthAt size offset)[i - 2]?
      else if i < offset then bs[i]? else none := by
  have hfront : (bs.take 2).length = 2 := by
    rw [List.length_take]
    omega
  have hmiddle : (lengthAt size offset).length = 2 := Octets.length_bigEndian 2 _
  rw [coveredAt, List.append_assoc, List.getElem?_append, hfront]
  by_cases hi : i < 2
  · rw [if_pos hi, if_pos hi, List.getElem?_take, if_pos hi]
  rw [if_neg hi, if_neg hi, List.getElem?_append, hmiddle]
  by_cases hi' : i < 4
  · rw [if_pos hi', if_pos (by omega)]
  · have hplace : 4 + (i - 2 - 2) = i := by omega
    rw [if_neg hi', if_neg (by omega), List.getElem?_drop, List.getElem?_take, hplace]

/-- The segment is the first of its type behind `front`, and `stamp` gave it for
what it covers. -/
structure Segment.Seals (s : Segment) (t : AttributeType) (stamp : List UInt8 → List UInt8)
    (size : Nat) (word : UInt16) (id : TransactionId) (front : List Segment) : Prop where
  code : s.code = t.code
  first : ∀ x ∈ front, x.code ≠ t.code
  value : s.value = stamp (beforeSeal size word id front)

namespace Message

/-- The message has an attribute of the type, and the first one seals it. -/
def Sealed (m : Message) (t : AttributeType) (stamp : List UInt8 → List UInt8) (size : Nat) :
    Prop :=
  ∃ word received appended front s back, m.Layout word received appended ∧
    received ++ appended = front ++ s :: back ∧ s.Seals t stamp size word m.id front

variable {m m' : Message} {word : UInt16} {received appended front back : List Segment}
variable {t : AttributeType} {v : List UInt8} {stamp : List UInt8 → List UInt8} {size : Nat}

/-- **What is covered by place is covered by segments.** -/
theorem Layout.coveredAt_eq (h : m.Layout word received appended)
    (hsplit : received ++ appended = front ++ back) (size : Nat) :
    coveredAt size m.raw (headerSize + (row front).length)
      = beforeSeal size word m.id front := by
  have hfront : m.raw.take (headerSize + (row front).length)
      = head word m.length m.id ++ row front := by
    rw [h.raw, hsplit, row_append, ← List.append_assoc]
    refine List.take_left' ?_
    rw [List.length_append, length_head]
  have hword : m.raw.take 2 = (head word m.length m.id ++ row front).take 2 := by
    rw [← hfront, List.take_take, Nat.min_eq_left (Nat.le_add_right_of_le (by decide))]
  have hlength : headerSize + (row front).length + attributeHeaderSize + size - headerSize
      = (row front).length + (attributeHeaderSize + size) := by
    omega
  rw [coveredAt, lengthAt, hword, hfront, hlength]
  exact patch_head word m.length _ m.id (row front)

/-! ### What keeps a message sealed -/

/-- Attributes that are appended come behind the seal. -/
theorem Sealed.of_appended (h : m.Sealed t stamp size) (hm : Appended m m') :
    m'.Sealed t stamp size := by
  obtain ⟨word, received, appended, front, s, back, hl, hsplit, hs⟩ := h
  obtain ⟨more, hl', -, hid⟩ := hm.layout hl
  refine ⟨word, received, appended ++ more, front, s, back ++ more, hl', ?_, hid ▸ hs⟩
  rw [← List.append_assoc, hsplit, List.append_assoc, List.cons_append]

/-- A receiver sees the same segments under the same first word. -/
theorem Sealed.of_decode (h : m.Sealed t stamp size) (hd : decode m.encode = .ok m') :
    m'.Sealed t stamp size := by
  obtain ⟨word, received, appended, front, s, back, hl, hsplit, hs⟩ := h
  obtain ⟨hl', hid⟩ := hl.decoded hd
  refine ⟨word, received ++ appended, [], front, s, back, hl', ?_, hid ▸ hs⟩
  rw [List.append_nil, hsplit]

/-- **What holds of sealed messages lasts**: behind all that is appended, and
at any receiver. -/
theorem Sealed.lasts {P : Message → Prop} (hP : ∀ m, m.Sealed t stamp size → P m)
    (h : m.Sealed t stamp size) (hm : Appended m m') :
    P m' ∧ ∃ d, decode m'.encode = .ok d ∧ P d := by
  have hsealed := h.of_appended hm
  obtain ⟨word, received, appended, front, s, back, hl, -⟩ := id hsealed
  have hd := hl.decode_encode
  exact ⟨hP _ hsealed, _, hd, hP _ (hsealed.of_decode hd)⟩

/-! ### Sealing -/

/-- A value can be appended as long as the length field can count it. -/
theorem exists_editAdd_iff :
    (∃ m', Edit.add t v m = (.ok (), m')) ↔
      m.length + (attributeHeaderSize + padded v.length) ≤ lengthLimit := by
  constructor
  · rintro ⟨m', ha⟩
    exact (add_eq_ok_iff.mp (editAdd_eq_ok_iff.mp ha)).1
  · intro hfits
    exact ⟨_, editAdd_eq_ok_iff.mpr (add_eq_ok_iff.mpr ⟨hfits, rfl⟩)⟩

/-- **A message that had no attribute of the type is sealed** by one that is
given for what it has. -/
theorem Layout.sealed_of_add (h : m.Layout word received appended) (ht : t.HasNoAlias)
    (hnew : m.contains t = false)
    (ha : m.add t (stamp (beforeSeal size word m.id (received ++ appended))) = .ok m') :
    m'.Sealed t stamp size := by
  refine ⟨word, received, appended ++ [ofValue t _ (length_le_of_add ha)], received ++ appended,
    ofValue t _ (length_le_of_add ha), [], h.add ha, ?_, ?_⟩
  · rw [← List.append_assoc]
  · constructor
    case code => rfl
    case first => exact h.code_ne_of_not_contains ht hnew
    case value => rw [id_of_add ha]; rfl

/-- What a seal covers stands in the octets of the sealed message, under the
length it declares. -/
theorem Layout.take_raw_of_add (h : m.Layout word received appended) (ha : m.add t v = .ok m') :
    m'.raw.take (headerSize + m.length)
      = beforeSeal (padded v.length) word m.id (received ++ appended) := by
  have hlength : m'.length = (row (received ++ appended)).length
      + (attributeHeaderSize + padded v.length) := by
    rw [length_of_add ha, h.length]
  rw [(h.add ha).raw, ← List.append_assoc, row_append, ← List.append_assoc, hlength,
    id_of_add ha, ← beforeSeal]
  refine List.take_left' ?_
  rw [beforeSeal, List.length_append, length_head, h.length]

/-- **What a seal adds**: it is counted in the header, and stands behind the
attributes there were, given for the octets before it as they stand then. -/
theorem Layout.added_seal (h : m.Layout word received appended)
    (hsize : ∀ bs, (stamp bs).length = size) (hwhole : padded size = size)
    (ha : m.add t (stamp (beforeSeal size word m.id (received ++ appended))) = .ok m') :
    m'.length = m.length + (attributeHeaderSize + size) ∧
    Octets.slice? m'.raw 2 4
      = some (Octets.bigEndian 2 (m.length + (attributeHeaderSize + size))) ∧
    m'.attributes = m.attributes
      ++ [⟨t, UInt16.ofNat size, stamp (m'.raw.take (headerSize + m.length))⟩] := by
  have hlength : m'.length = m.length + (attributeHeaderSize + size) := by
    rw [length_of_add ha, hsize, hwhole]
  have hcovers := h.take_raw_of_add ha
  rw [hsize, hwhole] at hcovers
  refine ⟨hlength, ?_, ?_⟩
  · rw [(h.add ha).raw, ← hlength]
    exact (slice?_head word m'.length m'.id _).2.1
  · rw [attributes_of_add ha, hcovers, hsize]

end Message

end Stun
