/-
Stun/Proofs/Wire/Defects.lean

What is wrong with a datagram that is no message.

The receiver names the first defect it meets, reading from the front.  Here the
defects are told from the octets alone: the size, the cookie and the declared
length for the header, and for the rest what is left over behind the longest
row of whole segments.  Of a string there is only one such row, since the
octets of a segment say where it ends (`octets_append_inj`), so "the segments a
datagram begins with" is no figure of speech (`LongestRow.unique`).  Nothing is
left over, or a piece too short for a code and a length, or these two with too
little behind them.

Main result: decoding accepts just the datagrams of the grammar and refuses
every other one for the defect it has (`decode_verdict`).
-/
import Stun.Proofs.Wire.Segment

namespace Stun

namespace Segment

/-! ### Where segments end -/

/-- A string shorter than a code and a length does not begin with a segment. -/
theorem ne_octets_append {s : Segment} {bs after : List UInt8} (h : bs.length < 4) :
    bs ≠ s.octets ++ after := by
  have hpos := s.four_le_length_octets
  rintro rfl
  have hshort : (s.octets ++ after).length < 4 := h
  rw [List.length_append] at hshort
  omega

/-- The octets of a segment say where it ends. -/
theorem octets_append_inj {s s' : Segment} {after after' : List UInt8}
    (h : s.octets ++ after = s'.octets ++ after') : s = s' ∧ after = after' := by
  obtain ⟨code, value, padding, hv, hp⟩ := s
  obtain ⟨code', value', padding', hv', hp'⟩ := s'
  simp only [octets, List.append_assoc] at h
  obtain ⟨hcode, hbody⟩ := List.append_inj h (by simp)
  obtain ⟨hlength, hvalue⟩ := List.append_inj hbody (by simp)
  have hsame : value.length = value'.length := by
    have hlt : value.length < 256 ^ 2 := Nat.lt_succ_of_le hv
    have hlt' : value'.length < 256 ^ 2 := Nat.lt_succ_of_le hv'
    have hnat := congrArg Octets.toNat hlength
    rwa [Octets.toNat_bigEndian, Octets.toNat_bigEndian, Nat.mod_eq_of_lt hlt,
      Nat.mod_eq_of_lt hlt'] at hnat
  obtain ⟨rfl, hpadding⟩ := List.append_inj hvalue hsame
  obtain ⟨rfl, rfl⟩ := List.append_inj hpadding (hp.trans hp'.symm)
  have hword := congrArg (fun bs => UInt16.ofNat (Octets.toNat bs)) hcode
  simp only [Octets.ofNat_toNat_bigEndian] at hword
  subst hword
  exact ⟨rfl, rfl⟩

/-- Of two rows at the front of one string the longer one begins with the shorter. -/
theorem row_append_cases {front front' : List Segment} {rest rest' : List UInt8}
    (h : row front ++ rest = row front' ++ rest') :
    (∃ more, front' = front ++ more ∧ rest = row more ++ rest') ∨
    (∃ more, front = front' ++ more ∧ rest' = row more ++ rest) := by
  induction front generalizing front' with
  | nil => exact .inl ⟨front', rfl, h⟩
  | cons s r ih =>
    cases front' with
    | nil => exact .inr ⟨s :: r, rfl, h.symm⟩
    | cons s' r' =>
      rw [row_cons, row_cons, List.append_assoc, List.append_assoc] at h
      obtain ⟨rfl, hrest⟩ := octets_append_inj h
      rcases ih hrest with ⟨more, rfl, hr⟩ | ⟨more, rfl, hr⟩
      · exact .inl ⟨more, rfl, hr⟩
      · exact .inr ⟨more, rfl, hr⟩

/-! ### The longest row -/

/-- The octets begin with this row of segments and go on with `rest`, and they
begin with no longer row. -/
structure LongestRow (bs : List UInt8) (segments : List Segment) (rest : List UInt8) : Prop where
  split : bs = row segments ++ rest
  longest : ∀ segments' rest', bs = row segments' ++ rest' →
    (row segments').length ≤ (row segments).length

/-- A row is the longest one if no segment stands behind it. -/
theorem longestRow_of_stuck {bs rest : List UInt8} {segments : List Segment}
    (hsplit : bs = row segments ++ rest)
    (h : ∀ (s : Segment) (after : List UInt8), rest ≠ s.octets ++ after) :
    LongestRow bs segments rest where
  split := hsplit
  longest := by
    intro segments' rest' hsplit'
    rcases row_append_cases (hsplit.symm.trans hsplit') with ⟨more, rfl, hr⟩ | ⟨more, rfl, -⟩
    · cases more with
      | nil => rw [List.append_nil]
      | cons s more =>
        rw [row_cons, List.append_assoc] at hr
        exact absurd hr (h s _)
    · rw [row_append, List.length_append]
      exact Nat.le_add_right _ _

/-- Behind the longest row stands no segment. -/
theorem LongestRow.stuck {bs rest : List UInt8} {segments : List Segment}
    (h : LongestRow bs segments rest) (s : Segment) (after : List UInt8) :
    rest ≠ s.octets ++ after := by
  intro hrest
  have hsplit : bs = row (segments ++ [s]) ++ after := by
    rw [h.split, hrest, row_append, row_cons, row_nil, List.append_nil, List.append_assoc]
  have hle := h.longest _ _ hsplit
  have hpos := s.four_le_length_octets
  rw [row_append, row_cons, row_nil, List.append_nil, List.length_append] at hle
  omega

/-- **There is one longest row.** -/
theorem LongestRow.unique {bs rest rest' : List UInt8} {segments segments' : List Segment}
    (h : LongestRow bs segments rest) (h' : LongestRow bs segments' rest') :
    segments = segments' ∧ rest = rest' := by
  rcases row_append_cases (h.split.symm.trans h'.split) with ⟨more, rfl, hr⟩ | ⟨more, rfl, hr⟩
  · cases more with
    | nil => exact ⟨(List.append_nil _).symm, hr⟩
    | cons s more =>
      rw [row_cons, List.append_assoc] at hr
      exact absurd hr (h.stuck s _)
  · cases more with
    | nil => exact ⟨List.append_nil _, hr.symm⟩
    | cons s more =>
      rw [row_cons, List.append_assoc] at hr
      exact absurd hr (h'.stuck s _)

/-- A code and a length stand at the front, and too few octets behind them for
a value of that length and its padding. -/
def Overruns (bs : List UInt8) : Prop :=
  ∃ (code : UInt16) (n : Nat) (after : List UInt8), n ≤ lengthLimit ∧
    bs = Octets.bigEndian 2 code.toNat ++ Octets.bigEndian 2 n ++ after ∧ after.length < padded n

end Segment

namespace Message

open Segment

variable {bs rest : List UInt8} {segments : List Segment}

/-! ### Reading attributes up to a defect -/

theorem readAttribute_of_short (h : bs.length < attributeHeaderSize) :
    readAttribute bs = .error .truncated := by
  rw [readAttribute, Octets.take?_eq_none_iff.mpr h]

theorem readAttribute_of_overruns (h : Overruns bs) :
    readAttribute bs = .error .valueTruncated := by
  obtain ⟨code, n, after, hn, rfl, hafter⟩ := h
  have hlt : n < 256 ^ 2 := Nat.lt_succ_of_le hn
  have hcode := field_front (Octets.length_bigEndian 2 code.toNat) (Octets.bigEndian 2 n)
  have hlength : field (Octets.bigEndian 2 code.toNat ++ Octets.bigEndian 2 n) 2 4 = some n := by
    rw [field_back (by simp) (by simp), Octets.toNat_bigEndian, Nat.mod_eq_of_lt hlt]
  rw [readAttribute, Octets.take?_append (by simp [attributeHeaderSize])]
  simp only [hcode, hlength, Octets.take?_eq_none_iff.mpr hafter]

/-- What stands at the front of a string is a segment, or too short for a code
and a length, or too short for the value it declares. -/
theorem front_cases (bs : List UInt8) :
    (∃ (s : Segment) (after : List UInt8), bs = s.octets ++ after) ∨
      bs.length < attributeHeaderSize ∨ Overruns bs := by
  rcases hf : Octets.take? attributeHeaderSize bs with - | ⟨front, tail⟩
  · exact .inr (.inl (Octets.take?_eq_none_iff.mp hf))
  obtain ⟨rfl, hfront⟩ := Octets.take?_eq_some_iff.mp hf
  obtain ⟨code, length, rfl, hcode, hlength⟩ := exists_of_length_four hfront
  rcases hb : Octets.take? (padded (Octets.toNat length)) tail with - | ⟨body, after⟩
  · have hn := Octets.toNat_lt length
    rw [hlength] at hn
    have hback : Octets.bigEndian 2 (Octets.toNat length) = length :=
      hlength ▸ Octets.bigEndian_toNat length
    refine .inr (.inr ⟨UInt16.ofNat (Octets.toNat code), Octets.toNat length, tail,
      Nat.le_of_lt_succ hn, ?_, Octets.take?_eq_none_iff.mp hb⟩)
    rw [Octets.bigEndian_ofNat_toNat hcode, hback]
  · -- with room for the value there is an attribute to read, and that is a segment
    have hsecond : field (code ++ length) 2 4 = some (Octets.toNat length) :=
      field_back hcode (by rw [hlength])
    have hcut : Octets.slice? body 0 (Octets.toNat length)
        = some (body.take (Octets.toNat length)) := by
      obtain ⟨-, hbody⟩ := Octets.take?_eq_some_iff.mp hb
      have hle := le_padded (Octets.toNat length)
      rw [Octets.slice?_eq_some_iff]
      exact ⟨Nat.zero_le _, by omega, rfl⟩
    have hread : ∃ a, readAttribute (code ++ length ++ tail) = .ok (a, after) := by
      simp only [readAttribute, hf, field_front hcode, hsecond, hb, hcut]
      exact ⟨_, rfl⟩
    obtain ⟨a, ha⟩ := hread
    obtain ⟨s, hs, -⟩ := exists_segment_of_readAttribute ha
    exact .inl ⟨s, after, hs⟩

/-- Every string begins with a longest row, be it empty. -/
theorem exists_longestRow (bs : List UInt8) : ∃ segments rest, LongestRow bs segments rest := by
  -- on the length, taking a segment off the front as long as there is one
  induction n : bs.length using Nat.strongRecOn generalizing bs with
  | ind n ih =>
    subst n
    by_cases hfront : ∃ (s : Segment) (after : List UInt8), bs = s.octets ++ after
    · obtain ⟨s, after, rfl⟩ := hfront
      have hs := s.four_le_length_octets
      obtain ⟨r, rest, hrow⟩ := ih after.length (by rw [List.length_append]; omega) after rfl
      refine ⟨s :: r, rest, longestRow_of_stuck ?_ hrow.stuck⟩
      rw [row_cons, List.append_assoc, ← hrow.split]
    · refine ⟨[], bs, longestRow_of_stuck rfl fun s after h => hfront ⟨s, after, h⟩⟩

/-- What is left over behind the longest row is nothing, or one of two defects. -/
theorem leftover_cases (h : LongestRow bs segments rest) :
    rest = [] ∨ (1 ≤ rest.length ∧ rest.length ≤ 3) ∨ Overruns rest := by
  rcases front_cases rest with ⟨s, after, hs⟩ | hshort | hover
  · exact absurd hs (h.stuck s after)
  · by_cases hnil : rest = []
    · exact .inl hnil
    · exact .inr (.inl ⟨List.length_pos_iff.mpr hnil, Nat.le_of_lt_succ hshort⟩)
  · exact .inr (.inr hover)

/-- Segments at the front are read one after the other. -/
theorem readAttributes_row_append (segments : List Segment) (rest : List UInt8) :
    readAttributes (row segments ++ rest)
      = (readAttributes rest).map (segments.map asRead ++ ·) := by
  induction segments with
  | nil =>
    rw [row_nil, List.nil_append]
    cases readAttributes rest <;> rfl
  | cons s r ih =>
    have hne : row (s :: r) ++ rest ≠ [] := by
      rw [row_cons, List.append_assoc]
      exact (ne_octets_append (by decide)).symm
    rw [readAttributes_of_ne_nil hne, row_cons, List.append_assoc, readAttribute_octets]
    simp only [ih]
    cases readAttributes rest <;> rfl

/-- A defect behind a row of segments is the one that is named. -/
theorem readAttributes_eq_error {e : Error} (segments : List Segment) (hne : rest ≠ [])
    (h : readAttribute rest = .error e) : readAttributes (row segments ++ rest) = .error e := by
  rw [readAttributes_row_append, readAttributes_of_ne_nil hne, h]
  rfl

/-! ### Reading a header up to a defect -/

/-- The number in octets `start` to `stop`, as far as the string reaches. -/
def number (bs : List UInt8) (start stop : Nat) : Nat := Octets.toNat ((bs.take stop).drop start)

/-- The word that stands where a header has the cookie. -/
def cookie (bs : List UInt8) : UInt32 := UInt32.ofNat (number bs 4 8)

/-- How many octets a header declares. -/
def declared (bs : List UInt8) : Nat := number bs 2 4

/-- A whole header with the cookie in place declares just the octets behind it. -/
structure Framed (bs : List UInt8) : Prop where
  whole : headerSize ≤ bs.length
  marked : cookie bs = magicCookie
  counted : declared bs = bs.length - headerSize

/-- A field of a whole header is the number there. -/
theorem field_take (start stop : Nat) (hw : headerSize ≤ bs.length) (hs : start ≤ stop)
    (ht : stop ≤ headerSize) :
    field (bs.take headerSize) start stop = some (number bs start stop) := by
  have hcut : Octets.slice? (bs.take headerSize) start stop = some ((bs.take stop).drop start) := by
    rw [Octets.slice?_eq_some_iff]
    refine ⟨hs, ?_, ?_⟩
    · rw [List.length_take]
      omega
    · rw [List.take_take, Nat.min_eq_left ht]
  rw [field, hcut, Option.map_some, number]

/-- A whole header is cut off. -/
theorem take?_header (hw : headerSize ≤ bs.length) :
    Octets.take? headerSize bs = some (bs.take headerSize, bs.drop headerSize) := by
  rw [Octets.take?_eq_some_iff]
  refine ⟨(List.take_append_drop _ _).symm, ?_⟩
  rw [List.length_take]
  omega

theorem readHeader_of_short (h : bs.length < headerSize) :
    readHeader bs = .error .headerTooShort := by
  rw [readHeader, Octets.take?_eq_none_iff.mpr h]

theorem readHeader_of_unmarked (hw : headerSize ≤ bs.length) (h : cookie bs ≠ magicCookie) :
    readHeader bs = .error (.badCookie (cookie bs)) := by
  simp only [readHeader, take?_header hw,
    field_take 4 8 hw (by omega) (by decide)]
  exact if_neg h

theorem readHeader_of_marked (hw : headerSize ≤ bs.length) (h : cookie bs = magicCookie) :
    ∃ id : TransactionId, id.octets = (bs.take 20).drop 8 ∧ readHeader bs = .ok
      (⟨.ofWord (UInt16.ofNat (number bs 0 2)), declared bs, id⟩, bs.drop headerSize) := by
  have hid : ((bs.take 20).drop 8).length = 12 := by
    have hlong : 20 ≤ bs.length := hw
    rw [List.length_drop, List.length_take]
    omega
  have hcut : Octets.slice? (bs.take headerSize) 8 20 = some ((bs.take 20).drop 8) := by
    rw [Octets.slice?_eq_some_iff, List.length_take]
    exact ⟨by omega, Nat.le_min.mpr ⟨Nat.le_refl _, hw⟩, by rw [List.take_take]; rfl⟩
  have hof : TransactionId.ofOctets? ((bs.take 20).drop 8) = some ⟨_, hid⟩ :=
    TransactionId.ofOctets?_eq_some_iff.mpr rfl
  refine ⟨⟨_, hid⟩, rfl, ?_⟩
  simp only [readHeader, take?_header hw,
    field_take 4 8 hw (by omega) (by decide),
    field_take 0 2 hw (Nat.zero_le 2) (by decide),
    field_take 2 4 hw (by omega) (by decide), hcut, Option.bind_some, hof]
  exact if_pos h

/-- In a framed datagram all hangs on the attributes. -/
theorem Framed.decode_eq (h : Framed bs) :
    ∃ id : TransactionId, id.octets = (bs.take 20).drop 8 ∧
      decode bs = (readAttributes (bs.drop headerSize)).map fun attributes =>
        { type := .ofWord (UInt16.ofNat (number bs 0 2)), length := declared bs, id, attributes,
          raw := bs } := by
  obtain ⟨id, hid, hr⟩ := readHeader_of_marked h.whole h.marked
  refine ⟨id, hid, ?_⟩
  rw [decode_of_readHeader hr, List.length_drop]
  exact if_pos h.counted

/-! ### The verdict -/

/-- The defects of datagrams, each with what stands before it in order. -/
inductive Defect (bs : List UInt8) : Error → Prop
  | short : bs.length < headerSize → Defect bs .headerTooShort
  | unmarked : headerSize ≤ bs.length → cookie bs ≠ magicCookie →
      Defect bs (.badCookie (cookie bs))
  | miscounted : headerSize ≤ bs.length → cookie bs = magicCookie →
      declared bs ≠ bs.length - headerSize →
      Defect bs (.lengthMismatch (declared bs) (bs.length - headerSize))
  | truncated {segments : List Segment} {rest : List UInt8} : Framed bs →
      LongestRow (bs.drop headerSize) segments rest →
      1 ≤ rest.length → rest.length ≤ 3 → Defect bs .truncated
  | overrun {segments : List Segment} {rest : List UInt8} : Framed bs →
      LongestRow (bs.drop headerSize) segments rest →
      Overruns rest → Defect bs .valueTruncated

/-- A defect is named. -/
theorem Defect.decode_eq {e : Error} (h : Defect bs e) : decode bs = .error e := by
  cases h with
  | short hshort =>
    rw [decode, readHeader_of_short hshort]
    rfl
  | unmarked hw hcookie =>
    rw [decode, readHeader_of_unmarked hw hcookie]
    rfl
  | miscounted hw hcookie hlength =>
    obtain ⟨id, -, hr⟩ := readHeader_of_marked hw hcookie
    rw [decode_of_readHeader hr, List.length_drop]
    exact if_neg hlength
  | truncated hframed hrow hpos hshort =>
    obtain ⟨id, -, hd⟩ := hframed.decode_eq
    have hr := readAttribute_of_short (Nat.lt_succ_of_le hshort)
    rw [hd, hrow.split, readAttributes_eq_error _ (List.length_pos_iff.mp hpos) hr]
    rfl
  | @overrun segments rest hframed hrow hover =>
    obtain ⟨id, -, hd⟩ := hframed.decode_eq
    have hne : rest ≠ [] := by
      rintro rfl
      have hr := readAttribute_of_overruns hover
      cases hr.symm.trans (readAttribute_of_short (by decide))
    rw [hd, hrow.split, readAttributes_eq_error _ hne (readAttribute_of_overruns hover)]
    rfl

/-- A datagram without a defect is a message. -/
theorem framed_or_defect (bs : List UInt8) :
    (Framed bs ∧ ∃ segments, bs.drop headerSize = row segments) ∨ ∃ e, Defect bs e := by
  rcases Nat.lt_or_ge bs.length headerSize with hshort | hw
  · exact .inr ⟨_, .short hshort⟩
  by_cases hcookie : cookie bs = magicCookie
  case neg => exact .inr ⟨_, .unmarked hw hcookie⟩
  by_cases hlength : declared bs = bs.length - headerSize
  case neg => exact .inr ⟨_, .miscounted hw hcookie hlength⟩
  have hframed : Framed bs := ⟨hw, hcookie, hlength⟩
  obtain ⟨segments, rest, hrow⟩ := exists_longestRow (bs.drop headerSize)
  rcases leftover_cases hrow with rfl | ⟨hpos, hshort⟩ | hover
  · exact .inl ⟨hframed, segments, hrow.split.trans (List.append_nil _)⟩
  · exact .inr ⟨_, .truncated hframed hrow hpos hshort⟩
  · exact .inr ⟨_, .overrun hframed hrow hover⟩

/-- A datagram that is refused has the defect that is named. -/
theorem defect_of_decode {e : Error} (h : decode bs = .error e) : Defect bs e := by
  rcases framed_or_defect bs with ⟨hframed, segments, hrow⟩ | ⟨e', hdefect⟩
  · obtain ⟨id, -, hd⟩ := hframed.decode_eq
    rw [h, hrow, readAttributes_row] at hd
    cases hd
  · obtain rfl := Except.error.inj (h.symm.trans hdefect.decode_eq)
    exact hdefect

/-- The cookie is a number as well as four octets. -/
theorem cookie_eq_magicCookie_iff (hw : headerSize ≤ bs.length) :
    cookie bs = magicCookie ↔ (bs.take 8).drop 4 = Octets.bigEndian 4 magicCookie.toNat := by
  have hlength : ((bs.take 8).drop 4).length = 4 := by
    have hlong : 20 ≤ bs.length := hw
    rw [List.length_drop, List.length_take]
    omega
  constructor
  · intro h
    have hlt := Octets.toNat_lt ((bs.take 8).drop 4)
    rw [hlength] at hlt
    have hmod : number bs 4 8 % 2 ^ 32 = number bs 4 8 := Nat.mod_eq_of_lt hlt
    have hback := Octets.bigEndian_toNat ((bs.take 8).drop 4)
    rw [hlength] at hback
    rw [← h, cookie, UInt32.toNat_ofNat', hmod, number, hback]
  · intro h
    rw [cookie, number, h, Octets.toNat_bigEndian]
    rfl

/-- The test for messages looks at the size and the cookie. -/
theorem looksLikeMessage_iff (bs : List UInt8) :
    looksLikeMessage bs = true ↔ headerSize ≤ bs.length ∧ cookie bs = magicCookie := by
  rcases Nat.lt_or_ge bs.length headerSize with hshort | hw
  · simp only [looksLikeMessage, Octets.take?_eq_none_iff.mpr hshort, Bool.false_eq_true, false_iff]
    omega
  · have hcut : Octets.slice? (bs.take headerSize) 4 8 = some ((bs.take 8).drop 4) := by
      rw [Octets.slice?_eq_some_iff, List.length_take]
      refine ⟨by omega, ?_, by rw [List.take_take]; rfl⟩
      exact Nat.le_min.mpr ⟨by decide, Nat.le_trans (by decide) hw⟩
    simp only [looksLikeMessage, take?_header hw, hcut, beq_iff_eq, Option.some.injEq, hw, true_and,
      cookie_eq_magicCookie_iff hw]

/-- A datagram that is framed, and whose attributes are read, is a message. -/
theorem decode_eq_ok_iff_framed {m : Message} :
    decode bs = .ok m ↔ Framed bs ∧ ∃ segments, bs.drop headerSize = row segments ∧
      m.attributes = segments.map asRead ∧ m.type = .ofWord (UInt16.ofNat (number bs 0 2)) ∧
      m.length = declared bs ∧ m.id.octets = (bs.take 20).drop 8 ∧ m.raw = bs := by
  constructor
  · intro h
    rcases framed_or_defect bs with ⟨hframed, segments, hrow⟩ | ⟨e, hdefect⟩
    · obtain ⟨id, hid, hd⟩ := hframed.decode_eq
      rw [h, hrow, readAttributes_row] at hd
      obtain rfl := Except.ok.inj hd
      exact ⟨hframed, segments, hrow, rfl, rfl, rfl, hid, rfl⟩
    · cases h.symm.trans hdefect.decode_eq
  · rintro ⟨hframed, segments, hrow, hattributes, htype, hlength, hoctets, hraw⟩
    obtain ⟨⟨octets, hsize⟩, hid, hd⟩ := hframed.decode_eq
    obtain ⟨⟨type, length, ⟨octets', hsize'⟩, attributes⟩, raw⟩ := m
    dsimp only at hid hattributes htype hlength hoctets hraw
    obtain rfl : octets = octets' := hid.trans hoctets.symm
    rw [hd, hrow, readAttributes_row, hattributes, htype, hlength, hraw]
    rfl

/-- **The verdict on a datagram.**  It is read as a message exactly if it is
framed and a row of segments follows its header, and the message then holds
these segments in order, with the legacy code replaced; otherwise it is refused
for the first defect it has.  So the test for messages passes what is not
refused for its size or its cookie, and no message declares a length that is
no multiple of four. -/
theorem decode_verdict (bs : List UInt8) :
    (∀ m, decode bs = .ok m ↔ Framed bs ∧ ∃ segments, bs.drop headerSize = row segments ∧
      m.attributes = segments.map (fun s => ⟨⟨if s.code = 0x8020 then 0x0020 else s.code⟩,
        UInt16.ofNat s.value.length, s.value⟩) ∧
      m.type = .ofWord (UInt16.ofNat (number bs 0 2)) ∧ m.length = declared bs ∧
      m.id.octets = (bs.take 20).drop 8 ∧ m.raw = bs) ∧
    (∀ e, decode bs = .error e ↔ Defect bs e) ∧
    (looksLikeMessage bs = true ↔
      decode bs ≠ .error .headerTooShort ∧ ∀ w, decode bs ≠ .error (.badCookie w)) ∧
    ((∃ m, decode bs = .ok m) → declared bs % 4 = 0) := by
  have hread : asRead = fun s => ⟨⟨if s.code = 0x8020 then 0x0020 else s.code⟩,
      UInt16.ofNat s.value.length, s.value⟩ := by
    funext s
    by_cases h : s.code = 0x8020 <;>
      simp [asRead, AttributeType.ofWire, AttributeType.legacyXorMappedAddress,
        AttributeType.xorMappedAddress, h]
  have herror : ∀ e, decode bs = .error e ↔ Defect bs e :=
    fun e => ⟨defect_of_decode, Defect.decode_eq⟩
  refine ⟨fun m => hread ▸ decode_eq_ok_iff_framed, herror, ?_, ?_⟩
  · rw [looksLikeMessage_iff]
    constructor
    · rintro ⟨hw, hmarked⟩
      refine ⟨fun h => ?_, fun w h => ?_⟩
      · cases (herror _).mp h with
        | short hshort => exact absurd hw (Nat.not_le.mpr hshort)
      · cases (herror _).mp h with
        | unmarked _ hcookie => exact hcookie hmarked
    · rintro ⟨hsize, hcookie⟩
      have hw : headerSize ≤ bs.length :=
        Nat.not_lt.mp fun hshort => hsize ((herror _).mpr (.short hshort))
      refine ⟨hw, ?_⟩
      by_contra hne
      exact hcookie _ ((herror _).mpr (.unmarked hw hne))
  · rintro ⟨m, hm⟩
    obtain ⟨hframed, segments, hrow, -⟩ := decode_eq_ok_iff_framed.mp hm
    rw [hframed.counted, ← List.length_drop, hrow]
    exact length_row_mod segments

end Message

end Stun
