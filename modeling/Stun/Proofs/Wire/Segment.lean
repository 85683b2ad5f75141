/-
Stun/Proofs/Wire/Segment.lean

The grammar of datagrams.

A receiver accepts more than a sender writes: any code, the two top bits of
the first word, anything in the padding.  So the octets of a message are
described apart from its fields, by *segments*: an attribute as it lies on the
wire, with the code and the padding it really has.

    datagram = word (2) | length (2) | cookie (4) | id (12) | row of segments
    segment  = code (2) | length (2) | value | padding

A segment carries the proof that its value fits a length field and that its
padding fills it up, so every row of segments can be read back
(`readAttributes_row`), and every string that can be read is a row
(`exists_row_of_readAttributes`).  Main result: `decode` accepts exactly the
datagrams of this grammar (`decode_eq_ok_iff`).
-/
import Stun.Proofs.Octets
import Stun.Wire.Frame

namespace Stun

/-! ### Segments -/

/-- An attribute as it lies on the wire, under any code and with any octets as
padding. -/
structure Segment where
  code : UInt16
  value : List UInt8
  padding : List UInt8
  length_value : value.length ≤ lengthLimit
  length_padding : padding.length = padded value.length - value.length

namespace Segment

/-- The octets of a segment. -/
def octets (s : Segment) : List UInt8 :=
  Octets.bigEndian 2 s.code.toNat ++ Octets.bigEndian 2 s.value.length ++ s.value ++ s.padding

/-- What a receiver takes the segment for. -/
def asRead (s : Segment) : RawAttribute :=
  ⟨.ofWire s.code, UInt16.ofNat s.value.length, s.value⟩

/-- What a sender meant that wrote the segment. -/
def asWritten (s : Segment) : RawAttribute :=
  ⟨⟨s.code⟩, UInt16.ofNat s.value.length, s.value⟩

/-- The segment that a sender writes for a value. -/
def ofValue (t : AttributeType) (v : List UInt8) (h : v.length ≤ lengthLimit) : Segment :=
  ⟨t.code, v, List.replicate (padded v.length - v.length) 0, h, List.length_replicate⟩

/-- The octets of a row of segments. -/
def row (segments : List Segment) : List UInt8 := segments.flatMap octets

@[simp] theorem row_nil : row [] = [] := rfl

@[simp] theorem row_cons (s : Segment) (segments : List Segment) :
    row (s :: segments) = s.octets ++ row segments := rfl

@[simp] theorem row_append (front back : List Segment) :
    row (front ++ back) = row front ++ row back := List.flatMap_append

theorem octets_ofValue (t : AttributeType) (v : List UInt8) (h : v.length ≤ lengthLimit) :
    (ofValue t v h).octets = encodeAttribute t v := rfl

/-- The length field of a segment does not wrap. -/
theorem toNat_length (s : Segment) : (UInt16.ofNat s.value.length).toNat = s.value.length := by
  have h : s.value.length < 2 ^ 16 := Nat.lt_succ_of_le s.length_value
  rw [UInt16.toNat_ofNat', Nat.mod_eq_of_lt h]

theorem length_octets (s : Segment) :
    s.octets.length = attributeHeaderSize + padded s.value.length := by
  have := le_padded s.value.length
  simp only [octets, List.length_append, Octets.length_bigEndian, s.length_padding,
    attributeHeaderSize]
  omega

/-- A segment has a code and a length at least. -/
theorem four_le_length_octets (s : Segment) : 4 ≤ s.octets.length := by
  rw [length_octets]
  exact Nat.le_add_right _ _

/-- Both readings of a segment agree on how much room it takes. -/
theorem wireSize_asRead (s : Segment) : s.asRead.wireSize = s.octets.length := by
  rw [length_octets, asRead, RawAttribute.wireSize, toNat_length]

theorem wireSize_asWritten (s : Segment) : s.asWritten.wireSize = s.octets.length :=
  wireSize_asRead s

/-- Rows come in multiples of four octets. -/
theorem length_row_mod (segments : List Segment) : (row segments).length % 4 = 0 := by
  induction segments with
  | nil => rfl
  | cons s r ih =>
    have := padded_mod s.value.length
    rw [row_cons, List.length_append, length_octets, attributeHeaderSize]
    omega

end Segment

namespace Message

open Segment

/-! ### Fields -/

/-- A field holds the number whose octets lie there. -/
theorem field_append {before cut : List UInt8} {start stop : Nat} (hs : before.length = start)
    (ht : start + cut.length = stop) (after : List UInt8) :
    field (before ++ (cut ++ after)) start stop = some (Octets.toNat cut) := by
  rw [field, Octets.slice?_append hs ht, Option.map_some]

theorem field_front {cut : List UInt8} {stop : Nat} (h : cut.length = stop)
    (after : List UInt8) : field (cut ++ after) 0 stop = some (Octets.toNat cut) := by
  rw [field, Octets.slice?_front h, Option.map_some]

theorem field_back {before cut : List UInt8} {start stop : Nat} (hs : before.length = start)
    (ht : start + cut.length = stop) :
    field (before ++ cut) start stop = some (Octets.toNat cut) := by
  rw [field, Octets.slice?_back hs ht, Option.map_some]

/-- A string as long as two fields of two octets is their concatenation. -/
theorem exists_of_length_four {bs : List UInt8} (h : bs.length = 4) :
    ∃ front back : List UInt8, bs = front ++ back ∧ front.length = 2 ∧ back.length = 2 :=
  ⟨bs.take 2, bs.drop 2, (List.take_append_drop 2 bs).symm, by simp [h], by simp [h]⟩

/-- A string as long as a header is its four fields. -/
theorem exists_of_length_header {bs : List UInt8} (h : bs.length = headerSize) :
    ∃ word length cookie id : List UInt8, bs = word ++ (length ++ (cookie ++ id)) ∧
      word.length = 2 ∧ length.length = 2 ∧ cookie.length = 4 ∧ id.length = 12 := by
  refine ⟨bs.take 2, (bs.drop 2).take 2, (bs.drop 4).take 4, bs.drop 8, ?_, ?_, ?_, ?_, ?_⟩
  · rw [← List.drop_drop (i := 4) (j := 4), List.take_append_drop,
      ← List.drop_drop (i := 2) (j := 2), List.take_append_drop, List.take_append_drop]
  all_goals simp [h, headerSize]

/-! ### Reading a row -/

/-- A segment is read whole, whatever follows it. -/
theorem readAttribute_octets (s : Segment) (rest : List UInt8) :
    readAttribute (s.octets ++ rest) = .ok (s.asRead, rest) := by
  have hv : s.value.length < 256 ^ 2 := Nat.lt_succ_of_le s.length_value
  have hcode := field_front (Octets.length_bigEndian 2 s.code.toNat)
    (Octets.bigEndian 2 s.value.length)
  have hlength : field (Octets.bigEndian 2 s.code.toNat ++ Octets.bigEndian 2 s.value.length) 2 4
      = some s.value.length := by
    rw [field_back (by simp) (by simp), Octets.toNat_bigEndian, Nat.mod_eq_of_lt hv]
  have hbody : (s.value ++ s.padding).length = padded s.value.length := by
    have := le_padded s.value.length
    rw [List.length_append, s.length_padding]
    omega
  have hsplit : s.octets ++ rest = (Octets.bigEndian 2 s.code.toNat
      ++ Octets.bigEndian 2 s.value.length) ++ ((s.value ++ s.padding) ++ rest) := by
    simp only [Segment.octets, List.append_assoc]
  rw [readAttribute, hsplit, Octets.take?_append (by simp [attributeHeaderSize])]
  simp only [hcode, hlength, Octets.take?_append hbody, Octets.slice?_front,
    Octets.ofNat_toNat_bigEndian, Segment.asRead]

/-- What is read as an attribute is a segment. -/
theorem exists_segment_of_readAttribute {bs rest : List UInt8} {a : RawAttribute}
    (h : readAttribute bs = .ok (a, rest)) :
    ∃ s : Segment, bs = s.octets ++ rest ∧ a = s.asRead := by
  rw [readAttribute] at h
  rcases hf : Octets.take? attributeHeaderSize bs with - | ⟨front, tail⟩
  · simp [hf] at h
  obtain ⟨rfl, hfront⟩ := Octets.take?_eq_some_iff.mp hf
  obtain ⟨code, length, rfl, hcode, hlength⟩ := exists_of_length_four hfront
  have hn : Octets.toNat length < 256 ^ 2 := hlength ▸ Octets.toNat_lt length
  have hsecond : field (code ++ length) 2 4 = some (Octets.toNat length) :=
    field_back hcode (by rw [hlength])
  simp only [hf, field_front hcode, hsecond] at h
  rcases hb : Octets.take? (padded (Octets.toNat length)) tail with - | ⟨body, rest'⟩
  · simp [hb] at h
  obtain ⟨rfl, hbody⟩ := Octets.take?_eq_some_iff.mp hb
  have hle := le_padded (Octets.toNat length)
  have hvalue : (body.take (Octets.toNat length)).length = Octets.toNat length := by
    rw [List.length_take]
    omega
  -- what is left of the body behind the value is the padding, whatever it holds
  have hcut : Octets.slice? body 0 (Octets.toNat length)
      = some (body.take (Octets.toNat length)) := by
    rw [Octets.slice?_eq_some_iff]
    exact ⟨Nat.zero_le _, by omega, rfl⟩
  simp only [hb, hcut, Except.ok.injEq, Prod.mk.injEq] at h
  obtain ⟨rfl, rfl⟩ := h
  refine ⟨⟨UInt16.ofNat (Octets.toNat code), body.take (Octets.toNat length),
    body.drop (Octets.toNat length), ?_, ?_⟩, ?_, ?_⟩
  · rw [hvalue]
    exact Nat.le_of_lt_succ hn
  · rw [hvalue, List.length_drop, hbody]
  · have hback : Octets.bigEndian 2 (Octets.toNat length) = length :=
      hlength ▸ Octets.bigEndian_toNat length
    simp only [Segment.octets, hvalue, Octets.bigEndian_ofNat_toNat hcode, hback,
      List.append_assoc, List.take_append_drop]
  · simp only [Segment.asRead, hvalue]

/-- One step of reading a row, with the proof of termination left out. -/
theorem readAttributes_of_ne_nil {bs : List UInt8} (h : bs ≠ []) :
    readAttributes bs = match readAttribute bs with
      | .error e => .error e
      | .ok (a, rest) => (readAttributes rest).map (a :: ·) := by
  rw [readAttributes, if_neg (by simpa using h)]
  split <;> rename_i e <;> simp only [e]

theorem readAttributes_nil : readAttributes [] = .ok [] := by
  rw [readAttributes]
  rfl

/-- Every row of segments can be read. -/
theorem readAttributes_row (segments : List Segment) :
    readAttributes (row segments) = .ok (segments.map asRead) := by
  induction segments with
  | nil => exact readAttributes_nil
  | cons s r ih =>
    have hne : row (s :: r) ≠ [] := by
      intro h
      have := congrArg List.length h
      rw [row_cons, List.length_append, length_octets, attributeHeaderSize] at this
      simp at this
    rw [readAttributes_of_ne_nil hne, row_cons, readAttribute_octets]
    simp only [ih, Except.map, List.map_cons]

/-- Only rows of segments can be read. -/
theorem exists_row_of_readAttributes {bs : List UInt8} {as : List RawAttribute}
    (h : readAttributes bs = .ok as) :
    ∃ segments, bs = row segments ∧ as = segments.map asRead := by
  -- on the length, since reading an attribute uses up octets
  induction n : bs.length using Nat.strongRecOn generalizing bs as with
  | ind n ih =>
    subst n
    by_cases hne : bs = []
    · subst hne
      rw [readAttributes_nil] at h
      exact ⟨[], rfl, (Except.ok.inj h).symm⟩
    · rw [readAttributes_of_ne_nil hne] at h
      rcases hr : readAttribute bs with e | ⟨a, rest⟩
      · simp [hr] at h
      rcases ht : readAttributes rest with e | tail
      · simp [hr, ht, Except.map] at h
      simp only [hr, ht, Except.map, Except.ok.injEq] at h
      subst h
      obtain ⟨r, rfl, rfl⟩ := ih _ (length_lt_of_readAttribute hr) ht rfl
      obtain ⟨s, rfl, rfl⟩ := exists_segment_of_readAttribute hr
      exact ⟨s :: r, rfl, rfl⟩

/-! ### Reading a datagram -/

/-- The octets of a header whose first word is any. -/
def head (word : UInt16) (length : Nat) (id : TransactionId) : List UInt8 :=
  Octets.bigEndian 2 word.toNat ++ Octets.bigEndian 2 length ++
    Octets.bigEndian 4 magicCookie.toNat ++ id.octets

theorem header_eq_head (type : MessageType) (length : Nat) (id : TransactionId) :
    header type length id = head type.toWord length id := rfl

@[simp] theorem length_head (word : UInt16) (length : Nat) (id : TransactionId) :
    (head word length id).length = headerSize := by
  simp [head, id.length_octets, headerSize]

/-- A header is read whole, whatever follows it. -/
theorem readHeader_head (word : UInt16) {length : Nat} (h : length ≤ lengthLimit)
    (id : TransactionId) (rest : List UInt8) :
    readHeader (head word length id ++ rest) = .ok (⟨.ofWord word, length, id⟩, rest) := by
  have hn : length < 256 ^ 2 := Nat.lt_succ_of_le h
  have hword : field (head word length id) 0 2
      = some (Octets.toNat (Octets.bigEndian 2 word.toNat)) := by
    simp only [head, List.append_assoc]
    exact field_front (by simp) _
  have hlength : field (head word length id) 2 4 = some length := by
    simp only [head, List.append_assoc]
    rw [field_append (by simp) (by simp), Octets.toNat_bigEndian, Nat.mod_eq_of_lt hn]
  have hcookie : field (head word length id) 4 8 = some magicCookie.toNat := by
    simp only [head]
    rw [List.append_assoc, field_append (by simp) (by simp), Octets.toNat_bigEndian]
    rfl
  have hid : Octets.slice? (head word length id) 8 20 = some id.octets := by
    rw [head, Octets.slice?_back (by simp) (by rw [id.length_octets])]
  have hof : TransactionId.ofOctets? id.octets = some id :=
    TransactionId.ofOctets?_eq_some_iff.mpr rfl
  rw [readHeader, Octets.take?_append (length_head word length id)]
  simp only [hword, hlength, hcookie, hid, Option.bind_some, hof, UInt32.ofNat_toNat, if_true,
    Octets.ofNat_toNat_bigEndian]

/-- What is read as a header is one. -/
theorem eq_head_of_readHeader {bs rest : List UInt8} {h : HeaderFields}
    (hr : readHeader bs = .ok (h, rest)) :
    ∃ word, bs = head word h.length h.id ++ rest ∧ h.type = .ofWord word ∧
      h.length ≤ lengthLimit := by
  rw [readHeader] at hr
  rcases hf : Octets.take? headerSize bs with - | ⟨front, tail⟩
  · simp [hf] at hr
  obtain ⟨rfl, hfront⟩ := Octets.take?_eq_some_iff.mp hf
  obtain ⟨word, length, cookie, id, rfl, hw, hl, hc, hi⟩ := exists_of_length_header hfront
  have hword : field (word ++ (length ++ (cookie ++ id))) 0 2 = some (Octets.toNat word) :=
    field_front hw _
  have hlength : field (word ++ (length ++ (cookie ++ id))) 2 4 = some (Octets.toNat length) :=
    field_append hw (by rw [hl]) _
  have hcookie : field (word ++ (length ++ (cookie ++ id))) 4 8 = some (Octets.toNat cookie) := by
    rw [← List.append_assoc]
    exact field_append (by simp [hw, hl]) (by rw [hc]) _
  have hid : Octets.slice? (word ++ (length ++ (cookie ++ id))) 8 20 = some id := by
    rw [← List.append_assoc, ← List.append_assoc]
    exact Octets.slice?_back (by simp [hw, hl, hc]) (by rw [hi])
  simp only [hf, hword, hlength, hcookie, hid, Option.bind_some] at hr
  split at hr
  case isFalse => simp at hr
  case isTrue hmagic =>
    rcases ho : TransactionId.ofOctets? id with - | key
    · simp [ho] at hr
    simp only [ho, Except.ok.injEq, Prod.mk.injEq] at hr
    obtain ⟨rfl, rfl⟩ := hr
    obtain rfl := TransactionId.ofOctets?_eq_some_iff.mp ho
    have hn := Octets.toNat_lt length
    rw [hl] at hn
    refine ⟨UInt16.ofNat (Octets.toNat word), ?_, rfl, Nat.le_of_lt_succ hn⟩
    -- four octets fit a word of 32 bits, so the comparison was one of octets
    have hk := Octets.toNat_lt cookie
    rw [hc] at hk
    have hm : magicCookie.toNat = Octets.toNat cookie := by
      have hmod : Octets.toNat cookie % 2 ^ 32 = Octets.toNat cookie := Nat.mod_eq_of_lt hk
      rw [← hmagic, UInt32.toNat_ofNat', hmod]
    have hb : Octets.bigEndian 2 (Octets.toNat length) = length :=
      hl ▸ Octets.bigEndian_toNat length
    have hb' : Octets.bigEndian 4 (Octets.toNat cookie) = cookie :=
      hc ▸ Octets.bigEndian_toNat cookie
    simp only [head, Octets.bigEndian_ofNat_toNat hw, hm, hb, hb', List.append_assoc]

/-- What is left of reading once the header is read. -/
theorem decode_of_readHeader {bs rest : List UInt8} {h : HeaderFields}
    (hr : readHeader bs = .ok (h, rest)) :
    decode bs = if h.length = rest.length then
        (readAttributes rest).map fun attributes =>
          { type := h.type, length := h.length, id := h.id, attributes, raw := bs }
      else
        .error (.lengthMismatch h.length rest.length) := by
  rw [decode, hr]
  by_cases hl : h.length = rest.length
  · rcases ht : readAttributes rest with e | as <;>
      simp [hl, ht, bind, Except.bind, pure, Except.pure, Except.map]
  · simp [hl, bind, Except.bind, throw, throwThe, MonadExceptOf.throw]

/-- **The grammar of datagrams.**  A datagram is read as a message exactly if
it is a header, with any first word, that declares the row of segments after
it; the message holds what a receiver takes the segments for. -/
theorem decode_eq_ok_iff {bs : List UInt8} {m : Message} :
    decode bs = .ok m ↔ ∃ word id segments,
      (row segments).length ≤ lengthLimit ∧
      bs = head word (row segments).length id ++ row segments ∧
      m = { type := .ofWord word, length := (row segments).length, id,
            attributes := segments.map asRead, raw := bs } := by
  constructor
  · intro h
    rcases hh : readHeader bs with e | ⟨fields, rest⟩
    · simp [decode, hh, bind, Except.bind] at h
    obtain ⟨word, hbs, htype, hfits⟩ := eq_head_of_readHeader hh
    rw [decode_of_readHeader hh] at h
    split at h
    case isFalse => simp at h
    case isTrue hl =>
      rcases ht : readAttributes rest with e | as
      · simp [ht, Except.map] at h
      obtain ⟨segments, rfl, rfl⟩ := exists_row_of_readAttributes ht
      simp only [ht, Except.map, Except.ok.injEq] at h
      subst h
      rw [hl] at hbs hfits
      exact ⟨word, fields.id, segments, hfits, hbs, by rw [htype, hl]⟩
  · rintro ⟨word, id, segments, hfits, rfl, rfl⟩
    rw [decode_of_readHeader (readHeader_head word hfits id (row segments)), if_pos rfl,
      readAttributes_row]
    rfl

end Message

end Stun
