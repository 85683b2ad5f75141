/-
Stun/Proofs/Wire/Appending.lean

Putting an attribute into a message is all or nothing.

A message is kept as fields and as octets, and two kinds of attributes rewrite
the octets before they know whether they fit.  So that a refusal leaves no trace
is said of all that a message is, and that an attribute was put in is said of
the octets too: those that were there stand as before but for the declared
length, and the attribute follows them (`ExtendedBy`).

Main result: every attribute either is refused and leaves the message as it
was, or extends it (`addTo_all_or_nothing`).
-/
import Stun.Proofs.Wire.Layout

namespace Stun

/-- What fills a value up to a multiple of four. -/
theorem padded_sub (n : Nat) : padded n - n = (4 - n % 4) % 4 := by
  unfold padded
  omega

namespace Message

variable {m m' : Message} {word : UInt16} {received appended : List Segment}
variable {t : AttributeType} {v : List UInt8}

/-- `m'` is `m` with one attribute more, which follows the octets that were
there.  Of these only the declared length is another. -/
structure ExtendedBy (m : Message) (t : AttributeType) (v : List UInt8) (m' : Message) : Prop where
  type : m'.type = m.type
  id : m'.id = m.id
  attributes : m'.attributes = m.attributes ++ [⟨t, UInt16.ofNat v.length, v⟩]
  /-- The declared length of the attribute does not wrap. -/
  value : v.length ≤ lengthLimit
  length : m'.length = m.length + (4 + v.length + (4 - v.length % 4) % 4)
  /-- Nor does that of the message. -/
  fits : m'.length ≤ lengthLimit
  raw : m'.raw = m.raw.take 2 ++ Octets.bigEndian 2 m'.length ++ m.raw.drop 4 ++
    (Octets.bigEndian 2 t.code.toNat ++ Octets.bigEndian 2 v.length ++ v ++
      List.replicate ((4 - v.length % 4) % 4) 0)

/-- Appending writes behind the octets there are, and rewrites the length among them. -/
theorem Layout.raw_of_add (h : m.Layout word received appended) (ha : m.add t v = .ok m') :
    m'.raw = m.raw.take 2 ++ Octets.bigEndian 2 m'.length ++ m.raw.drop 4 ++
      encodeAttribute t v := by
  have hlength : 4 ≤ m.raw.length := by
    rw [h.length_raw, headerSize]
    omega
  obtain ⟨-, rfl⟩ := add_eq_ok_iff.mp ha
  simp only [writeLength]
  rw [List.take_append_of_le_length (by omega), List.drop_append_of_le_length hlength,
    List.append_assoc _ (m.raw.drop 4)]

/-- **A value that is appended extends the message.** -/
theorem Layout.extendedBy (h : m.Layout word received appended) (ha : m.add t v = .ok m') :
    m.ExtendedBy t v m' where
  type := type_of_add ha
  id := id_of_add ha
  attributes := attributes_of_add ha
  value := length_le_of_add ha
  length := by
    have hpadding := padded_sub v.length
    have hle := le_padded v.length
    have hsize := length_of_add ha
    rw [attributeHeaderSize] at hsize
    omega
  fits := (h.add ha).fits
  raw := by
    rw [h.raw_of_add ha, encodeAttribute, padded_sub]

/-- **All or nothing.**  Putting an attribute of any kind into a message is
refused and leaves the message as it was, in its fields and its octets, or it
appends one attribute of the type under which that kind travels. -/
theorem addTo_all_or_nothing {received? : Option Nat} (hm : Reached received? m) (a : Attribute) :
    (∃ e, a.addTo m = (.error e, m)) ∨
    ∃ v m', a.addTo m = (.ok (), m') ∧ m.ExtendedBy a.type v m' := by
  obtain ⟨word, received, appended, h, -, -⟩ := hm.layout
  obtain hrefused | ⟨v, hv⟩ := h.addTo_cases a
  · exact .inl hrefused
  · rw [hv]
    -- what the kind comes to may still be too long
    rcases ha : Edit.add a.type v m with ⟨e | ⟨⟩, m'⟩
    · obtain rfl := (editAdd_eq_error_iff.mp ha).2
      exact .inl ⟨e, rfl⟩
    · exact .inr ⟨v, m', rfl, h.extendedBy (editAdd_eq_ok_iff.mp ha)⟩

/-- A message with a fingerprint takes no code any more, and stays as it is;
it does take a priority. -/
theorem addTo_all_or_nothing_fingerprint :
    let m := Message.after [.put .fingerprint] (.new ⟨⟨1⟩, .request⟩ .zero)
    (∃ e, (Attribute.messageIntegrity ⟨[0x6B]⟩).addTo m = (.error e, m)) ∧
      ∃ v m', (Attribute.priority 7).addTo m = (.ok (), m') ∧ m.ExtendedBy .priority v m' := by
  intro m
  have hm : Reached none m := .step (.put .fingerprint) (.new ⟨⟨1⟩, .request⟩ .zero)
  have hcode : ((Attribute.messageIntegrity ⟨[0x6B]⟩).addTo m).1.isOk = false := by decide +kernel
  have hpriority : ((Attribute.priority 7).addTo m).1.isOk = true := by decide +kernel
  constructor
  · refine (addTo_all_or_nothing hm _).resolve_right ?_
    rintro ⟨v, m', he, -⟩
    simp [he, Except.isOk, Except.toBool] at hcode
  · refine (addTo_all_or_nothing hm (.priority 7)).resolve_left ?_
    rintro ⟨e, he⟩
    simp [he, Except.isOk, Except.toBool] at hpriority

end Message

end Stun
