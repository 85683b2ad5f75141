/-
Stun/Proofs/Wire/Canonical.lean

A message that was received and is written again comes out in one form.

The format leaves a sender three choices that a receiver does not look at: the
two top bits of the first octet, the octets of the padding, and the legacy code
of one type.  Appending the attributes of a received message to a new one makes
each of these choices in one way, segment by segment (`Segment.canonical`), and
nothing moves, since a segment and its canonical form take the same room
(`Segment.length_canonical`).

Main result: no attribute is refused, the new message is the same, and its
octets are those that came but for the three choices; so they are just those
that came exactly if the sender had chosen so (`canonical_of_decode`).
-/
import Stun.Proofs.Wire.Views

namespace Stun

open Segment

/-! ### Canonical segments -/

namespace Segment

/-- The segment that a sender writes for what a receiver took this one for. -/
def canonical (s : Segment) : Segment := ofValue s.asRead.type s.value s.length_value

/-- The length and the value of a segment, which leave a sender no choice. -/
def body (s : Segment) : List UInt8 := Octets.bigEndian 2 s.value.length ++ s.value

theorem length_body (s : Segment) : s.body.length = 2 + s.value.length := by
  rw [body, List.length_append, Octets.length_bigEndian]

theorem octets_eq (s : Segment) :
    s.octets = Octets.bigEndian 2 s.code.toNat ++ (s.body ++ s.padding) := by
  simp only [octets, body, List.append_assoc]

theorem octets_canonical (s : Segment) : s.canonical.octets
    = Octets.bigEndian 2 s.asRead.type.code.toNat ++ (s.body ++ s.canonical.padding) :=
  octets_eq s.canonical

/-- A segment and its canonical form take the same room. -/
theorem length_canonical (s : Segment) : s.canonical.octets.length = s.octets.length := by
  rw [length_octets, length_octets]
  rfl

theorem length_row_canonical (segments : List Segment) :
    (row (segments.map canonical)).length = (row segments).length := by
  induction segments with
  | nil => rfl
  | cons s r ih =>
    rw [List.map_cons, row_cons, row_cons, List.length_append, List.length_append, ih,
      length_canonical]

/-- What is written again is what was read. -/
theorem asWritten_canonical (s : Segment) : s.canonical.asWritten = s.asRead := rfl

/-- Behind the code and before the padding nothing is chosen. -/
theorem getElem?_canonical_body {s : Segment} {k : Nat} (hk : 2 ≤ k)
    (hk' : k < 4 + s.value.length) : s.canonical.octets[k]? = s.octets[k]? := by
  have hbody : k - 2 < s.body.length := by
    rw [length_body]
    omega
  have hplace (n : Nat) (padding : List UInt8) :
      (Octets.bigEndian 2 n ++ (s.body ++ padding))[k]? = s.body[k - 2]? := by
    rw [List.getElem?_append_right (by simpa using hk), Octets.length_bigEndian,
      List.getElem?_append_left hbody]
  rw [octets_canonical, octets_eq, hplace, hplace]

/-- All padding is zero. -/
theorem getElem?_canonical_padding {s : Segment} {k : Nat} (hk : 4 + s.value.length ≤ k)
    (hk' : k < s.octets.length) : s.canonical.octets[k]? = some 0 := by
  have hroom := s.length_octets
  have hbody := s.length_body
  have hle := le_padded s.value.length
  rw [attributeHeaderSize] at hroom
  rw [octets_canonical, List.getElem?_append_right (by rw [Octets.length_bigEndian]; omega),
    Octets.length_bigEndian, List.getElem?_append_right (by omega), canonical, ofValue,
    List.getElem?_replicate, if_pos (by omega)]

/-- The code stands at the front. -/
theorem getElem?_octets_code {s : Segment} {k : Nat} (hk : k < 2) :
    s.octets[k]? = (Octets.bigEndian 2 s.code.toNat)[k]? := by
  rw [octets_eq, List.getElem?_append_left (by simpa using hk)]

/-- Only the legacy code is written as another one. -/
theorem code_canonical (s : Segment) :
    s.canonical.code = if s.code = 0x8020 then 0x0020 else s.code := by
  by_cases h : s.code = 0x8020 <;>
    simp [canonical, ofValue, asRead, AttributeType.ofWire, AttributeType.legacyXorMappedAddress,
      AttributeType.xorMappedAddress, h]

/-- The legacy code is known by its two octets. -/
theorem code_eq_alias_iff {s : Segment} :
    s.octets[0]? = some 0x80 ∧ s.octets[1]? = some 0x20 ↔ s.code = 0x8020 := by
  rw [getElem?_octets_code (by decide), getElem?_octets_code (by decide)]
  constructor
  · rintro ⟨hhigh, hlow⟩
    have hback := Octets.ofNat_toNat_bigEndian s.code
    have hcode : Octets.bigEndian 2 s.code.toNat = [0x80, 0x20] := by
      simp only [Octets.bigEndian, List.nil_append, List.singleton_append] at hhigh hlow ⊢
      simp only [List.getElem?_cons_zero, List.getElem?_cons_succ, Option.some.injEq] at hhigh hlow
      rw [hhigh, hlow]
    rw [← hback, hcode]
    rfl
  · intro h
    rw [h]
    exact ⟨rfl, rfl⟩

end Segment

namespace Message

variable {m m' : Message} {word : UInt16} {received appended segments : List Segment}
variable {bs : List UInt8} {p : Nat}

/-! ### Appending again -/

/-- Appends the values of attributes, one after the other. -/
def addAll (attributes : List RawAttribute) : Edit :=
  Attempt.all (attributes.map fun a => Edit.add a.type a.value)

/-- **What was read can be appended**, as long as the length field can count
it, and lies there in its canonical form. -/
theorem Layout.addAll (h : m.Layout word received appended) (segments : List Segment)
    (hfits : m.length + (row segments).length ≤ lengthLimit) :
    ∃ m', addAll (segments.map asRead) m = (.ok (), m') ∧ m'.type = m.type ∧ m'.id = m.id ∧
      m'.Layout word received (appended ++ segments.map canonical) := by
  induction segments generalizing m appended with
  | nil => exact ⟨m, rfl, rfl, rfl, by rwa [List.map_nil, List.append_nil]⟩
  | cons s r ih =>
    rw [row_cons, List.length_append, s.length_octets] at hfits
    obtain ⟨m₁, hadd⟩ : ∃ m₁, m.add s.asRead.type s.value = .ok m₁ :=
      ⟨_, add_eq_ok_iff.mpr ⟨by omega, rfl⟩⟩
    have hedit : Edit.add s.asRead.type s.asRead.value m = (.ok (), m₁) :=
      editAdd_eq_ok_iff.mpr hadd
    have hlength := length_of_add hadd
    obtain ⟨m', hall, htype, hid, hl⟩ := ih (h.add hadd) (by omega)
    refine ⟨m', ?_, htype.trans (type_of_add hadd), hid.trans (id_of_add hadd), ?_⟩
    · rw [← hall]
      simp only [Message.addAll, List.map_cons, Attempt.all, hedit]
    · rw [List.map_cons, ← List.singleton_append, ← List.append_assoc]
      exact hl

/-! ### Places -/

/-- Where an attribute begins: where those before it end. -/
def start (m : Message) (i : Nat) : Nat := headerSize + wireSize (m.attributes.take i)

/-- Padding lies there: behind the value of an attribute, up to its end. -/
def IsPadding (m : Message) (p : Nat) : Prop :=
  ∃ i a, m.attributes[i]? = some a ∧ m.start i + 4 + a.value.length ≤ p ∧
    p < m.start i + a.wireSize

/-- An attribute begins there under the legacy code. -/
def IsAlias (m : Message) (p : Nat) : Prop :=
  ∃ i < m.attributes.length, p = m.start i ∧ m.raw[p]? = some 0x80 ∧ m.raw[p + 1]? = some 0x20

/-- A place behind a header is one in a segment. -/
theorem exists_place (segments : List Segment) {p : Nat} (hp : p < (row segments).length) :
    ∃ i s k, segments[i]? = some s ∧ k < s.octets.length ∧
      p = (row (segments.take i)).length + k := by
  induction segments generalizing p with
  | nil => exact absurd hp (Nat.not_lt_zero p)
  | cons s r ih =>
    rcases Nat.lt_or_ge p s.octets.length with hs | hs
    · exact ⟨0, s, p, rfl, hs, (Nat.zero_add p).symm⟩
    · rw [row_cons, List.length_append] at hp
      obtain ⟨i, s', k, hs', hk, hplace⟩ := ih (p := p - s.octets.length) (by omega)
      refine ⟨i + 1, s', k, hs', hk, ?_⟩
      rw [List.take_succ_cons, row_cons, List.length_append]
      omega

/-- The octets of a segment stand where the segments before it end. -/
theorem getElem?_place (front : List UInt8) {i k : Nat} {s : Segment}
    (hs : segments[i]? = some s) (hk : k < s.octets.length) :
    (front ++ row segments)[front.length + ((row (segments.take i)).length + k)]?
      = s.octets[k]? := by
  obtain ⟨hi, hget⟩ := List.getElem?_eq_some_iff.mp hs
  have hsplit : row segments
      = row (segments.take i) ++ (s.octets ++ row (segments.drop (i + 1))) := by
    rw [← row_cons, ← row_append, ← hget, ← List.drop_eq_getElem_cons hi, List.take_append_drop]
  rw [List.getElem?_append_right (Nat.le_add_right _ _), Nat.add_sub_cancel_left, hsplit,
    List.getElem?_append_right (Nat.le_add_right _ _), Nat.add_sub_cancel_left,
    List.getElem?_append_left hk]

/-- The canonical form of a segment stands where the segment does. -/
theorem getElem?_place_canonical (front : List UInt8) {i k : Nat} {s : Segment}
    (hs : segments[i]? = some s) (hk : k < s.octets.length) :
    (front ++ row (segments.map canonical))[front.length + ((row (segments.take i)).length + k)]?
      = s.canonical.octets[k]? := by
  have hs' : (segments.map canonical)[i]? = some s.canonical := by
    rw [List.getElem?_map, hs, Option.map_some]
  have hplace := getElem?_place front hs' (hk.trans_eq s.length_canonical.symm)
  rwa [← List.map_take, length_row_canonical] at hplace

/-! ### The canonical form -/

/-- The octets of a message as it came, but for what the format leaves to the
sender: the two top bits of the first octet are clear, padding is zero, and the
legacy code is replaced. -/
structure CanonicalOf (m : Message) (octets : List UInt8) : Prop where
  length : octets.length = m.raw.length
  first : octets[0]? = m.raw[0]?.map (· &&& 0x3F)
  padding : ∀ p, m.IsPadding p → octets[p]? = some 0
  renamed : ∀ p, m.IsAlias p → octets[p]? = some 0x00 ∧ octets[p + 1]? = some 0x20
  rest : ∀ p, p ≠ 0 → ¬ m.IsPadding p → ¬ m.IsAlias p → octets[p]? = m.raw[p]?

/-- Clearing the two top bits of an octet leaves its rest by 64. -/
theorem toNat_and_low (b : UInt8) : (b &&& 0x3F).toNat = b.toNat % 64 := by
  rw [UInt8.toNat_and]
  exact Nat.and_two_pow_sub_one_eq_mod b.toNat 6

/-- An octet is left alone exactly if its two top bits are clear. -/
theorem and_eq_self_iff (b : UInt8) : b &&& 0x3F = b ↔ b < 0x40 := by
  rw [← UInt8.toNat_inj, toNat_and_low, UInt8.lt_iff_toNat_lt]
  show b.toNat % 64 = b.toNat ↔ b.toNat < 64
  omega

/-- **A message came in its canonical form** exactly if the sender chose so. -/
theorem CanonicalOf.eq_raw_iff {octets : List UInt8} (h : m.CanonicalOf octets) :
    octets = m.raw ↔ (∀ b, m.raw[0]? = some b → b < 0x40) ∧
      (∀ p, m.IsPadding p → m.raw[p]? = some 0) ∧ ∀ p, ¬ m.IsAlias p := by
  constructor
  · rintro rfl
    refine ⟨fun b hb => ?_, h.padding, fun p hp => ?_⟩
    · have hfirst := h.first
      rw [hb, Option.map_some, Option.some.injEq] at hfirst
      exact (and_eq_self_iff b).mp hfirst.symm
    · obtain ⟨hzero, -⟩ := h.renamed p hp
      obtain ⟨i, -, -, hold, -⟩ := hp
      rw [hold] at hzero
      cases hzero
  · rintro ⟨hfirst, hpadding, halias⟩
    apply List.ext_getElem?
    intro p
    by_cases hp : m.IsPadding p
    · rw [h.padding p hp, hpadding p hp]
    rcases Nat.eq_zero_or_pos p with rfl | hpos
    · rw [h.first]
      cases hb : m.raw[0]? with
      | none => rfl
      | some b => rw [Option.map_some, (and_eq_self_iff b).mpr (hfirst b hb)]
    · exact h.rest p (Nat.pos_iff_ne_zero.mp hpos) hp (halias p)

/-- The octets of a received message as they are written again. -/
def rewritten (m : Message) (received : List Segment) : List UInt8 :=
  head m.type.toWord m.length m.id ++ row (received.map canonical)

section Received

variable (h : m.Layout word received []) {i k : Nat} {s : Segment}
include h

theorem Layout.raw_of_received : m.raw = head word m.length m.id ++ row received := by
  rw [h.raw, List.append_nil]

theorem Layout.start_eq (i : Nat) :
    m.start i = (head word m.length m.id).length + (row (received.take i)).length := by
  rw [start, h.wireSize_take, List.append_nil, length_head]

/-- What came and what is written again agree on where a segment lies. -/
theorem Layout.getElem?_start (hs : received[i]? = some s) (hk : k < s.octets.length) :
    m.raw[m.start i + k]? = s.octets[k]? ∧
      (m.rewritten received)[m.start i + k]? = s.canonical.octets[k]? := by
  rw [h.start_eq, Nat.add_assoc, h.raw_of_received]
  refine ⟨getElem?_place _ hs hk, ?_⟩
  rw [length_head, ← length_head m.type.toWord m.length m.id]
  exact getElem?_place_canonical _ hs hk

theorem Layout.getElem?_attributes (i : Nat) : m.attributes[i]? = received[i]?.map asRead := by
  rw [h.attributes, List.map_nil, List.append_nil, List.getElem?_map]

theorem Layout.length_rewritten : (m.rewritten received).length = m.raw.length := by
  rw [rewritten, h.raw_of_received, List.length_append, List.length_append, length_head,
    length_head, length_row_canonical]

/-- Where padding lies the rewritten octets are zero. -/
theorem Layout.rewritten_padding (hp : m.IsPadding p) : (m.rewritten received)[p]? = some 0 := by
  obtain ⟨i, a, ha, hlow, hhigh⟩ := hp
  rw [h.getElem?_attributes, Option.map_eq_some_iff] at ha
  obtain ⟨s, hs, rfl⟩ := ha
  rw [wireSize_asRead] at hhigh
  have hlow : m.start i + 4 + s.value.length ≤ p := hlow
  have hk : p - m.start i < s.octets.length := by omega
  have hplace : p = m.start i + (p - m.start i) := by omega
  rw [hplace, (h.getElem?_start hs hk).2]
  exact getElem?_canonical_padding (by omega) hk

/-- Where the legacy code stood there stands the one that it stands for. -/
theorem Layout.rewritten_alias (hp : m.IsAlias p) :
    (m.rewritten received)[p]? = some 0x00 ∧ (m.rewritten received)[p + 1]? = some 0x20 := by
  obtain ⟨i, hi, rfl, hhigh, hlow⟩ := hp
  have hattribute := h.getElem?_attributes i
  rw [List.getElem?_eq_getElem hi] at hattribute
  obtain ⟨s, hs, -⟩ := Option.map_eq_some_iff.mp hattribute.symm
  have hroom := s.four_le_length_octets
  obtain ⟨hfirst, hfirst'⟩ := h.getElem?_start hs (k := 0) (by omega)
  obtain ⟨hsecond, hsecond'⟩ := h.getElem?_start hs (k := 1) (by omega)
  rw [Nat.add_zero] at hfirst hfirst'
  have hcode : s.code = 0x8020 :=
    code_eq_alias_iff.mp ⟨hfirst ▸ hhigh, hsecond ▸ hlow⟩
  have hcanonical : s.canonical.code = 0x0020 := by rw [code_canonical, if_pos hcode]
  rw [hfirst', hsecond', getElem?_octets_code (by decide), getElem?_octets_code (by decide),
    hcanonical]
  exact ⟨rfl, rfl⟩

/-- Behind the header all else stays as it came. -/
theorem Layout.rewritten_row (hp : headerSize ≤ p) (hpadding : ¬ m.IsPadding p)
    (halias : ¬ m.IsAlias p) : (m.rewritten received)[p]? = m.raw[p]? := by
  rcases Nat.lt_or_ge p m.raw.length with hwithin | hbeyond
  swap
  · rw [List.getElem?_eq_none hbeyond, List.getElem?_eq_none (h.length_rewritten ▸ hbeyond)]
  have hrow : p - headerSize < (row received).length := by
    rw [h.raw_of_received, List.length_append, length_head] at hwithin
    omega
  obtain ⟨i, s, k, hs, hk, hplace⟩ := exists_place received hrow
  have hstart : p = m.start i + k := by
    rw [h.start_eq, length_head]
    omega
  have hattribute : m.attributes[i]? = some s.asRead := by
    rw [h.getElem?_attributes, hs, Option.map_some]
  obtain ⟨hcame, hwritten⟩ := h.getElem?_start hs hk
  rw [hstart, hcame, hwritten]
  -- in the code, in the body, or in the padding
  rcases Nat.lt_or_ge k 2 with hcode | hk₂
  · rw [getElem?_octets_code hcode, getElem?_octets_code hcode, code_canonical]
    by_cases hold : s.code = 0x8020
    swap
    · rw [if_neg hold]
    rcases Nat.eq_zero_or_pos k with rfl | hpos
    · refine absurd ⟨i, (List.getElem?_eq_some_iff.mp hattribute).1, hstart, ?_, ?_⟩ halias
      · rw [hstart, hcame, (code_eq_alias_iff.mpr hold).1]
      · have hroom := s.four_le_length_octets
        rw [hstart, Nat.add_zero, (h.getElem?_start hs (k := 1) (by omega)).1,
          (code_eq_alias_iff.mpr hold).2]
    · -- both codes end alike
      obtain rfl : k = 1 := by omega
      rw [if_pos hold, hold]
      rfl
  rcases Nat.lt_or_ge k (4 + s.value.length) with hbody | hk₄
  · exact getElem?_canonical_body hk₂ hbody
  · refine absurd ⟨i, s.asRead, hattribute, ?_, ?_⟩ hpadding
    · show m.start i + 4 + s.value.length ≤ p
      omega
    · rw [wireSize_asRead]
      omega

/-- The first word loses its two top bits, and nothing else of the header changes. -/
theorem Layout.rewritten_header (htype : m.type = .ofWord word) :
    (m.rewritten received)[0]? = m.raw[0]?.map (· &&& 0x3F) ∧
    ∀ p, 0 < p → p < headerSize → (m.rewritten received)[p]? = m.raw[p]? := by
  have hword : m.type.toWord.toNat = word.toNat % 16384 := by
    rw [htype, MessageType.toWord_ofWord]
  have hlt : word.toNat < 2 ^ 16 := word.toNat_lt
  rw [rewritten, h.raw_of_received]
  constructor
  · show some (UInt8.ofNat (m.type.toWord.toNat / 256))
      = some (UInt8.ofNat (word.toNat / 256) &&& 0x3F)
    rw [hword, Option.some.injEq, ← UInt8.toNat_inj, toNat_and_low, UInt8.toNat_ofNat',
      UInt8.toNat_ofNat']
    omega
  · intro p hpos hp
    rcases Nat.lt_or_ge p 2 with hlow | hrest
    · obtain rfl : p = 1 := by omega
      show some (UInt8.ofNat m.type.toWord.toNat) = some (UInt8.ofNat word.toNat)
      rw [hword, Option.some.injEq, ← UInt8.toNat_inj, UInt8.toNat_ofNat', UInt8.toNat_ofNat']
      omega
    · let fields := Octets.bigEndian 2 m.length ++ Octets.bigEndian 4 magicCookie.toNat
        ++ m.id.octets
      have hlength : fields.length = 18 := by simp [fields, m.id.length_octets]
      have hplace (w : UInt16) (body : List UInt8) :
          (head w m.length m.id ++ body)[p]? = fields[p - 2]? := by
        have hsplit : head w m.length m.id ++ body
            = Octets.bigEndian 2 w.toNat ++ (fields ++ body) := by
          simp only [head, fields, List.append_assoc]
        rw [headerSize] at hp
        rw [hsplit, List.getElem?_append_right (by simpa using hrest), Octets.length_bigEndian,
          List.getElem?_append_left (by omega)]
      rw [hplace, hplace]

/-- **What is written again is the canonical form of what came.** -/
theorem Layout.canonicalOf (htype : m.type = .ofWord word) :
    m.CanonicalOf (m.rewritten received) where
  length := h.length_rewritten
  first := (h.rewritten_header htype).1
  padding _ := h.rewritten_padding
  renamed _ := h.rewritten_alias
  rest p hp hpadding halias := by
    rcases Nat.lt_or_ge p headerSize with hheader | hrow
    · exact (h.rewritten_header htype).2 p (Nat.pos_iff_ne_zero.mpr hp) hheader
    · exact h.rewritten_row hrow hpadding halias

end Received

/-- **Writing a received message again gives its canonical form.**  Of a
datagram that is read as a message, every attribute can be appended to a new
message of its type and id; the result is the same message, and its octets are
those of the datagram but for the two top bits of the first one, the padding and
the legacy code.  So they are just those of the datagram exactly if it had these
bits clear, its padding zero and no such code. -/
theorem canonical_of_decode (hd : decode bs = .ok m) :
    ∃ m', addAll m.attributes (.new m.type m.id) = (.ok (), m') ∧ m'.same m = true ∧
      m.raw = bs ∧ m.CanonicalOf m'.raw ∧
      (m'.raw = bs ↔ (∀ b, bs[0]? = some b → b < 0x40) ∧
        (∀ p, m.IsPadding p → bs[p]? = some 0) ∧ ∀ p, ¬ m.IsAlias p) := by
  obtain ⟨word, received, rfl, htype, h⟩ := layout_of_decode hd
  have hfits : (new m.type m.id).length + (row received).length ≤ lengthLimit := by
    have hlength := h.length
    rw [List.append_nil] at hlength
    show 0 + _ ≤ _
    rw [Nat.zero_add, ← hlength]
    exact h.fits
  obtain ⟨m', hall, htype', hid', hl⟩ := (layout_new m.type m.id).addAll received hfits
  have hattributes : m.attributes = received.map asRead := by
    rw [h.attributes, List.map_nil, List.append_nil]
  have hlength : m'.length = m.length := by
    rw [hl.length, h.length, List.nil_append, List.nil_append, List.append_nil,
      length_row_canonical]
  have hraw : m'.raw = m.rewritten received := by
    rw [hl.raw, hlength, hid', List.nil_append, List.nil_append]
    rfl
  have hattributes' : m'.attributes = m.attributes := by
    rw [hl.attributes, hattributes, List.map_nil, List.nil_append, List.nil_append, List.map_map]
    exact List.map_congr_left fun s _ => s.asWritten_canonical
  have hsame : m'.toFields = m.toFields := by
    show Fields.mk m'.type m'.length m'.id m'.attributes = _
    rw [htype', hlength, hid', hattributes']
    rfl
  have hcanonical : m.CanonicalOf m'.raw := hraw ▸ h.canonicalOf htype
  refine ⟨m', by rw [hattributes]; exact hall, ?_, rfl, hcanonical, hcanonical.eq_raw_iff⟩
  rw [same, beq_iff_eq, hsame]

/-- A sender that set the two top bits, filled up with a seven and used the
legacy code is put right in all three. -/
theorem canonical_of_decode_alias :
    let rest : List UInt8 := [0, 8, 0x21, 0x12, 0xA4, 0x42, 0, 0, 0, 0, 0, 0, 0, 0, 0, 0, 0, 0]
    let bs : List UInt8 := [0xC0, 0x01] ++ rest ++ [0x80, 0x20, 0, 3, 1, 2, 3, 7]
    ∃ m m', decode bs = .ok m ∧ addAll m.attributes (.new m.type m.id) = (.ok (), m') ∧
      m'.same m = true ∧ m'.raw = [0x00, 0x01] ++ rest ++ [0x00, 0x20, 0, 3, 1, 2, 3, 0] ∧
      ¬ (∀ b, bs[0]? = some b → b < 0x40) := by
  intro rest bs
  let s : Segment := ⟨0x8020, [1, 2, 3], [7], by decide, by decide⟩
  have hd : decode bs = .ok ⟨⟨.ofWord 0xC001, 8, .zero, [s.asRead]⟩, bs⟩ :=
    decode_eq_ok_iff.mpr ⟨0xC001, .zero, [s], by decide, by decide, rfl⟩
  obtain ⟨m', hall, hsame, -, -, -⟩ := canonical_of_decode hd
  have hm' := congrArg (fun r => r.2.raw) hall
  refine ⟨_, m', hd, hall, hsame, hm'.symm.trans (by decide), ?_⟩
  exact fun hclear => absurd (hclear 0xC0 rfl) (by decide)

end Message

end Stun
