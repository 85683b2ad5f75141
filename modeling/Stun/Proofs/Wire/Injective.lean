/-
Stun/Proofs/Wire/Injective.lean

Messages that were built can be told apart by their octets.

In a message that was never decoded nothing is left to a sender: every
attribute lies there under its own code and over zeros.  So the octets are a
function of the fields, whatever edits led to them (`Layout.encode_eq`).  In
the other direction, the four fields of a header have fixed places
(`head_append_inj`), and a row of segments can be split in one way only, since
each says where it ends (`Segment.row_injective`).  The legacy code does no harm
here: a sender that writes it means it, and only a receiver takes it for
another.

Main result: two messages that were built have the same octets exactly if they
have the same attributes and ids, and types that travel alike; so if their
methods fit into a header, exactly if they are the same (`encode_eq_encode_iff`).
-/
import Mathlib.Data.List.Basic
import Stun.Proofs.Wire.Defects
import Stun.Proofs.Wire.Views

namespace Stun

open Segment

/-! ### Header words -/

/-- A type packs like the part of it that travels. -/
theorem MessageType.toWord_low (t : MessageType) : t.low.toWord = t.toWord := by
  have hmethod : t.low.method.code.toNat = t.method.code.toNat % 4096 := by
    show (UInt16.ofNat (t.method.code.toNat % 4096)).toNat = _
    rw [UInt16.toNat_ofNat']
    omega
  apply UInt16.toNat_inj.mp
  rw [toNat_toWord, toNat_toWord, hmethod]
  -- the three groups of the method lie below its twelfth bit
  have hlow : t.method.code.toNat % 4096 % 16 = t.method.code.toNat % 16 := by omega
  have hmid : t.method.code.toNat % 4096 / 16 % 8 = t.method.code.toNat / 16 % 8 := by omega
  have hhigh : t.method.code.toNat % 4096 / 128 % 32 = t.method.code.toNat / 128 % 32 := by omega
  rw [hlow, hmid, hhigh]
  rfl

/-- Types have the same header word exactly if they travel alike. -/
theorem MessageType.toWord_eq_toWord_iff {s t : MessageType} :
    s.toWord = t.toWord ↔ s.low = t.low := by
  constructor
  · intro h
    rw [← ofWord_toWord, ← ofWord_toWord, h]
  · intro h
    rw [← toWord_low s, ← toWord_low t, h]

namespace Segment

/-! ### Rows of segments -/

/-- **A row can be split in one way only.** -/
theorem row_injective : Function.Injective row := by
  intro segments segments' h
  induction segments generalizing segments' with
  | nil =>
    cases segments' with
    | nil => rfl
    | cons s' r' =>
      rw [row_nil, row_cons] at h
      exact absurd h (ne_octets_append (by decide))
  | cons s r ih =>
    cases segments' with
    | nil =>
      rw [row_nil, row_cons] at h
      exact absurd h.symm (ne_octets_append (by decide))
    | cons s' r' =>
      obtain ⟨rfl, hrest⟩ := octets_append_inj h
      rw [ih hrest]

/-- A segment over zeros is what its sender writes for the attribute. -/
theorem octets_of_clean {s : Segment} (h : s.padding = List.replicate s.padding.length 0) :
    s.octets = encodeAttribute s.asWritten.type s.asWritten.value := by
  rw [s.length_padding] at h
  rw [octets, h]
  rfl

/-- The octets of attributes, each under its own code and over zeros. -/
theorem row_eq_flatMap {segments : List Segment}
    (h : ∀ s ∈ segments, s.padding = List.replicate s.padding.length 0) :
    row segments = (segments.map asWritten).flatMap fun a => encodeAttribute a.type a.value := by
  rw [row, List.flatMap_map]
  apply List.flatMap_congr
  intro s hs
  exact octets_of_clean (h s hs)

end Segment

namespace Message

variable {a b m : Message} {word word' : UInt16} {appended : List Segment}
variable {id id' : TransactionId} {length length' : Nat} {body body' : List UInt8}

/-! ### Headers -/

/-- **The fields of a header have fixed places**, so each can be read off. -/
theorem head_append_inj (hfits : length ≤ lengthLimit) (hfits' : length' ≤ lengthLimit)
    (h : head word length id ++ body = head word' length' id' ++ body') :
    word = word' ∧ length = length' ∧ id = id' ∧ body = body' := by
  simp only [head, List.append_assoc] at h
  obtain ⟨hword, h⟩ := List.append_inj h (by simp)
  obtain ⟨hlength, h⟩ := List.append_inj h (by simp)
  obtain ⟨-, h⟩ := List.append_inj h rfl
  obtain ⟨hid, hbody⟩ := List.append_inj h (by rw [id.length_octets, id'.length_octets])
  refine ⟨?_, ?_, ?_, hbody⟩
  · have hback := congrArg (fun bs => UInt16.ofNat (Octets.toNat bs)) hword
    simpa only [Octets.ofNat_toNat_bigEndian] using hback
  · -- a length that fits its field does not wrap
    have hlt : length < 256 ^ 2 := Nat.lt_succ_of_le hfits
    have hlt' : length' < 256 ^ 2 := Nat.lt_succ_of_le hfits'
    have hback := congrArg Octets.toNat hlength
    rwa [Octets.toNat_bigEndian, Octets.toNat_bigEndian, Nat.mod_eq_of_lt hlt,
      Nat.mod_eq_of_lt hlt'] at hback
  · cases id
    cases id'
    cases hid
    rfl

/-! ### Messages that were built -/

/-- A message that was never decoded has written segments only, under the
header of its type. -/
theorem Reached.written (hm : Reached none m) :
    ∃ appended, m.Layout m.type.toWord [] appended := by
  obtain ⟨word, received, appended, h, hnone, hword⟩ := hm.layout
  obtain rfl : received = [] := List.eq_nil_of_length_eq_zero hnone
  exact ⟨appended, hword rfl ▸ h⟩

/-- **The octets are a function of the fields**, whatever edits led to them. -/
theorem Layout.encode_eq (h : m.Layout m.type.toWord [] appended) :
    m.encode = header m.type m.length m.id ++
      m.attributes.flatMap fun a => encodeAttribute a.type a.value := by
  rw [encode, h.raw, h.attributes, List.nil_append, List.map_nil, List.nil_append,
    row_eq_flatMap h.clean, header_eq_head]

/-- **Messages that were built can be told apart by their octets.**  Whatever
operations led to two messages that were never decoded, and whichever of them
were refused, the messages have the same octets exactly if they have the same
id and the same attributes in the same order, cut in the same places and under
the same types, the legacy one told from the one it stands for, and if their
types agree in all that a header has room for.  If their methods fit into a
header, that is exactly if the messages are the same. -/
theorem encode_eq_encode_iff (ha : Reached none a) (hb : Reached none b) :
    (a.encode = b.encode ↔
      a.type.low = b.type.low ∧ a.id = b.id ∧ a.attributes = b.attributes) ∧
    (a.type.method.code.toNat < 4096 → b.type.method.code.toNat < 4096 →
      (a.same b = true ↔ a.encode = b.encode)) := by
  obtain ⟨front, hla⟩ := ha.written
  obtain ⟨back, hlb⟩ := hb.written
  have hiff : a.encode = b.encode ↔
      a.type.low = b.type.low ∧ a.id = b.id ∧ a.attributes = b.attributes := by
    constructor
    · intro h
      rw [encode, encode, hla.raw, hlb.raw] at h
      obtain ⟨hword, -, hid, hrow⟩ := head_append_inj hla.fits hlb.fits h
      obtain rfl : front = back := row_injective hrow
      exact ⟨MessageType.toWord_eq_toWord_iff.mp hword, hid,
        hla.attributes.trans hlb.attributes.symm⟩
    · rintro ⟨htype, hid, hattributes⟩
      have hlength : a.length = b.length := by
        rw [hla.length_eq_wireSize, hlb.length_eq_wireSize, hattributes]
      rw [hla.encode_eq, hlb.encode_eq, header_eq_head, header_eq_head,
        MessageType.toWord_eq_toWord_iff.mpr htype, hid, hattributes, hlength]
  refine ⟨hiff, fun hmethod hmethod' => ?_⟩
  rw [hiff, MessageType.low_eq_self_iff.mpr hmethod, MessageType.low_eq_self_iff.mpr hmethod',
    same, beq_iff_eq, Fields.mk.injEq]
  constructor
  · rintro ⟨htype, -, hid, hattributes⟩
    exact ⟨htype, hid, hattributes⟩
  · rintro ⟨htype, hid, hattributes⟩
    -- the declared length counts the attributes, so it agrees with them
    refine ⟨htype, ?_, hid, hattributes⟩
    rw [hla.length_eq_wireSize, hlb.length_eq_wireSize, hattributes]

/-- A receiver takes the legacy code for the one it stands for, but messages
that were built with the one and with the other have different octets; so have
those in which the same octets are cut in another place. -/
theorem encode_eq_encode_iff_alias :
    let start := Message.new ⟨⟨1⟩, .request⟩ .zero
    let new := Message.after [.add ⟨0x0020⟩ [1, 2, 3, 4]] start
    let old := Message.after [.add ⟨0x8020⟩ [1, 2, 3, 4]] start
    let cut := Message.after [.add ⟨0x0020⟩ [1, 2], .add ⟨0x0020⟩ [3, 4]] start
    Reached none new ∧ Reached none old ∧ Reached none cut ∧
      new.same old = false ∧ new.encode ≠ old.encode ∧ new.encode ≠ cut.encode ∧
      new.attributes.flatMap RawAttribute.value = cut.attributes.flatMap RawAttribute.value := by
  intro start new old cut
  have hnew : Reached none new := .step (.add ⟨0x0020⟩ [1, 2, 3, 4]) (.new _ _)
  have hold : Reached none old := .step (.add ⟨0x8020⟩ [1, 2, 3, 4]) (.new _ _)
  have hcut : Reached none cut :=
    .step (.add ⟨0x0020⟩ [3, 4]) (.step (.add ⟨0x0020⟩ [1, 2]) (.new _ _))
  have hdiffers : ¬ new.same old = true := by decide
  have halias := (encode_eq_encode_iff hnew hold).2 (by decide) (by decide)
  have hplaces := (encode_eq_encode_iff hnew hcut).1
  refine ⟨hnew, hold, hcut, Bool.not_eq_true _ ▸ hdiffers, ?_, ?_, by decide⟩
  · exact fun h => hdiffers (halias.mpr h)
  · exact fun h => absurd (hplaces.mp h).2.2 (by decide)

end Message

end Stun
