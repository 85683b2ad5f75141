/-
Stun/Proofs/Wire/Lookup.lean

Where the first attribute of a type is found.

Lookups walk the attributes; what is computed from octets needs segments.
`Layout.exists_split` turns a cut through the segments into one through the
attributes with the same sizes.  Main result: the first segment under the code
of a type is what both lookups find, at the offset where the segments before
it end (`Layout.lookup_first`).  The type must not be the one that has an
alias, since under that one a segment is found by two codes.
-/
import Stun.Proofs.Wire.Views

namespace Stun

open Segment

/-- Only one code on the wire stands for the type. -/
def AttributeType.HasNoAlias (t : AttributeType) : Prop := t.code ≠ 0x0020 ∧ t.code ≠ 0x8020

namespace Segment

/-- Either reading of a segment has the type exactly if the code is its own. -/
theorem type_eq_iff {t : AttributeType} (ht : t.HasNoAlias) {s : Segment} {a : RawAttribute}
    (ha : a = s.asRead ∨ a = s.asWritten) : a.type = t ↔ s.code = t.code := by
  obtain ⟨code⟩ := t
  obtain ⟨hnew, hold⟩ := ht
  rcases ha with rfl | rfl
  · by_cases hs : s.code = 0x8020
    · -- the alias is read as a type that is not `t`, and its code is not that of `t`
      have hread : s.asRead.type.code = 0x0020 := by rw [asRead, hs]; rfl
      rw [hs]
      exact ⟨fun h => absurd (h ▸ hread) hnew, fun h => absurd h.symm hold⟩
    · have hread : s.asRead.type = ⟨s.code⟩ := by
        simp [asRead, AttributeType.ofWire, AttributeType.legacyXorMappedAddress, hs]
      rw [hread, AttributeType.mk.injEq]
  · simp [asWritten]

end Segment

namespace Message

variable {m : Message} {word : UInt16} {received appended front back : List Segment} {s : Segment}
variable {t : AttributeType} {a : RawAttribute} {before after : List RawAttribute}

/-! ### Lookups in a list that is cut -/

theorem locate_append (hbefore : ∀ b ∈ before, b.type ≠ t) (ha : a.type = t) (offset : Nat) :
    locate t offset (before ++ a :: after) = some (offset + wireSize before, after) := by
  induction before generalizing offset with
  | nil => simp [locate, ha, wireSize]
  | cons b r ih =>
    have hb : b.type ≠ t := hbefore b List.mem_cons_self
    have hr : ∀ x ∈ r, x.type ≠ t := fun x hx => hbefore x (List.mem_cons_of_mem _ hx)
    rw [List.cons_append, locate, if_neg hb, ih hr]
    rw [wireSize, Nat.add_assoc]

/-- What is located is the first attribute of the type, where those before it
end. -/
theorem exists_of_locate {attributes : List RawAttribute} {start offset : Nat}
    (h : locate t start attributes = some (offset, after)) :
    ∃ before a, attributes = before ++ a :: after ∧ (∀ b ∈ before, b.type ≠ t) ∧ a.type = t ∧
      offset = start + wireSize before := by
  induction attributes generalizing start with
  | nil => cases h
  | cons b r ih =>
    rw [locate] at h
    split at h
    case isTrue hb =>
      obtain ⟨rfl, rfl⟩ := Prod.mk.inj (Option.some.inj h)
      exact ⟨[], b, rfl, by simp, hb, rfl⟩
    case isFalse hb =>
      obtain ⟨before, a, rfl, hbefore, ha, rfl⟩ := ih h
      refine ⟨b :: before, a, rfl, ?_, ha, Nat.add_assoc _ _ _⟩
      exact List.forall_mem_cons.mpr ⟨hb, hbefore⟩

theorem get_append {m : Message} (hm : m.attributes = before ++ a :: after)
    (hbefore : ∀ b ∈ before, b.type ≠ t) (ha : a.type = t) : m.get t = .ok a.value := by
  have hfind : m.find? t = some a := by
    rw [find?, hm, List.find?_append, List.find?_eq_none.mpr (by simpa using hbefore)]
    simp [ha]
  rw [get, hfind]

/-- The first attribute of a type has the value `v` and begins at `offset`,
where the attributes before it end. -/
def FirstAt (m : Message) (t : AttributeType) (offset : Nat) (v : List UInt8) : Prop :=
  ∃ before a after, m.attributes = before ++ a :: after ∧ (∀ b ∈ before, b.type ≠ t) ∧
    a.type = t ∧ a.value = v ∧ offset = headerSize + wireSize before

theorem FirstAt.exists_offset? {m : Message} {offset : Nat} {v : List UInt8}
    (h : m.FirstAt t offset v) : ∃ after, m.offset? t = some (offset, after) := by
  obtain ⟨before, a, after, hm, hbefore, ha, -, rfl⟩ := h
  exact ⟨after, by rw [offset?, hm, locate_append hbefore ha]⟩

theorem FirstAt.get_eq {m : Message} {offset : Nat} {v : List UInt8}
    (h : m.FirstAt t offset v) : m.get t = .ok v := by
  obtain ⟨before, a, after, hm, hbefore, ha, rfl, -⟩ := h
  exact get_append hm hbefore ha

/-- Attributes begin behind the header. -/
theorem FirstAt.headerSize_le {m : Message} {offset : Nat} {v : List UInt8}
    (h : m.FirstAt t offset v) : headerSize ≤ offset := by
  obtain ⟨before, -, -, -, -, -, -, rfl⟩ := h
  exact Nat.le_add_right _ _

/-- A message without a type has no attribute of it. -/
theorem contains_eq_false_iff : m.contains t = false ↔ ∀ a ∈ m.attributes, a.type ≠ t := by
  rw [contains, find?, Option.isSome_eq_false_iff, Option.isNone_iff_eq_none,
    List.find?_eq_none]
  simp only [decide_eq_true_eq, ne_eq]

/-! ### Cuts through a message -/

/-- A segment is read as the attribute in its place. -/
theorem Layout.exists_attribute (h : m.Layout word received appended) {i : Nat}
    (hs : (received ++ appended)[i]? = some s) :
    ∃ a, m.attributes[i]? = some a ∧ (a = s.asRead ∨ a = s.asWritten) := by
  have hlength : m.attributes.length = (received ++ appended).length := by
    simp [h.attributes]
  obtain ⟨hi, -⟩ := List.getElem?_eq_some_iff.mp hs
  obtain ⟨a, ha⟩ : ∃ a, m.attributes[i]? = some a :=
    ⟨_, List.getElem?_eq_getElem (hlength ▸ hi)⟩
  obtain ⟨s', hs', hcase⟩ := h.exists_segment ha
  obtain rfl : s' = s := Option.some.inj (hs'.symm.trans hs)
  exact ⟨a, ha, hcase.imp And.right fun hc => hc.2.1⟩

/-- A cut through the segments is one through the attributes. -/
theorem Layout.exists_split (h : m.Layout word received appended)
    (hsplit : received ++ appended = front ++ s :: back) :
    ∃ before a after, m.attributes = before ++ a :: after ∧ (a = s.asRead ∨ a = s.asWritten) ∧
      wireSize before = (row front).length ∧ wireSize after = (row back).length ∧
      ∀ b ∈ before, ∃ x ∈ front, b = x.asRead ∨ b = x.asWritten := by
  have hs : (received ++ appended)[front.length]? = some s := by
    rw [hsplit, List.getElem?_append_right (Nat.le_refl _), Nat.sub_self]
    rfl
  obtain ⟨a, ha, hreading⟩ := h.exists_attribute hs
  obtain ⟨hi, hget⟩ := List.getElem?_eq_some_iff.mp ha
  refine ⟨m.attributes.take front.length, a, m.attributes.drop (front.length + 1), ?_, hreading,
    ?_, ?_, ?_⟩
  · rw [← hget, ← List.drop_eq_getElem_cons hi, List.take_append_drop]
  · rw [h.wireSize_take, hsplit, List.take_left]
  · apply wireSize_eq_length_row
    rw [List.map_drop, h.map_wireSize, hsplit, ← List.map_drop, ← List.singleton_append,
      ← List.append_assoc, List.drop_left' (by simp)]
  · intro b hb
    obtain ⟨j, hj, rfl⟩ := List.mem_take_iff_getElem.mp hb
    obtain ⟨hjfront, hjall⟩ := Nat.lt_min.mp hj
    obtain ⟨x, hx, hcase⟩ := h.exists_segment (List.getElem?_eq_getElem hjall)
    rw [hsplit, List.getElem?_append_left hjfront] at hx
    exact ⟨x, List.mem_of_getElem? hx, hcase.imp And.right fun hc => hc.2.1⟩

/-- A message without the type has no segment under its code. -/
theorem Layout.code_ne_of_not_contains (h : m.Layout word received appended)
    (ht : t.HasNoAlias) (hc : m.contains t = false) :
    ∀ x ∈ received ++ appended, x.code ≠ t.code := by
  intro x hx hcode
  obtain ⟨i, hi⟩ := List.getElem?_of_mem hx
  obtain ⟨a, ha, hreading⟩ := h.exists_attribute hi
  have htype : a.type = t := (type_eq_iff ht hreading).mpr hcode
  exact contains_eq_false_iff.mp hc a (List.mem_of_getElem? ha) htype

/-- The declared length of an attribute is that of its value. -/
theorem Layout.toNat_length (h : m.Layout word received appended) (ha : a ∈ m.attributes) :
    a.length.toNat = a.value.length := by
  obtain ⟨i, hi⟩ := List.getElem?_of_mem ha
  obtain ⟨s, -, hcase⟩ := h.exists_segment hi
  rcases hcase with ⟨-, rfl⟩ | ⟨-, rfl, -⟩ <;> exact s.toNat_length

theorem wireSize_append (before after : List RawAttribute) :
    wireSize (before ++ after) = wireSize before + wireSize after := by
  induction before with
  | nil => rw [List.nil_append, wireSize, Nat.zero_add]
  | cons a r ih => rw [List.cons_append, wireSize, wireSize, ih, Nat.add_assoc]

/-- **An attribute that is found lies within the message**: behind a row of
segments, and what it takes and what follows it make up the declared length.
This is said of any type, also of one that is found under its alias. -/
theorem Layout.exists_of_offset (h : m.Layout word received appended) {offset : Nat}
    (ho : m.offset? t = some (offset, after)) :
    ∃ front back v, received ++ appended = front ++ back ∧
      offset = headerSize + (row front).length ∧ m.get t = .ok v ∧
      m.length = (row front).length + (attributeHeaderSize + padded v.length)
        + wireSize after := by
  obtain ⟨before, a, hm, hbefore, ha, rfl⟩ := exists_of_locate ho
  have hsize := h.wireSize_take before.length
  rw [hm, List.take_left] at hsize
  have hlength : a.length.toNat = a.value.length := h.toNat_length (by simp [hm])
  refine ⟨_, _, a.value, (List.take_append_drop before.length _).symm, by rw [hsize],
    get_append hm hbefore ha, ?_⟩
  rw [h.length_eq_wireSize, hm, wireSize_append, wireSize, RawAttribute.wireSize, hlength, hsize]
  omega

/-- **The first segment under the code of a type is what is found.** -/
theorem Layout.lookup_first (h : m.Layout word received appended) (ht : t.HasNoAlias)
    (hsplit : received ++ appended = front ++ s :: back) (hs : s.code = t.code)
    (hfront : ∀ x ∈ front, x.code ≠ t.code) :
    m.get t = .ok s.value ∧
    ∃ after, m.offset? t = some (headerSize + (row front).length, after) ∧
      wireSize after = (row back).length := by
  obtain ⟨before, a, after, hm, hreading, hbefore, hafter, hall⟩ := h.exists_split hsplit
  have ha : a.type = t := (type_eq_iff ht hreading).mpr hs
  have hne : ∀ b ∈ before, b.type ≠ t := by
    intro b hb htype
    obtain ⟨x, hx, hxb⟩ := hall b hb
    exact hfront x hx ((type_eq_iff ht hxb).mp htype)
  have hvalue : a.value = s.value := by rcases hreading with rfl | rfl <;> rfl
  refine ⟨hvalue ▸ get_append hm hne ha, after, ?_, hafter⟩
  rw [offset?, hm, locate_append hne ha, hbefore]

/-! ### Octets before an attribute -/

/-- The octets up to a segment, but for the length field, are the first word
and a row of segments. -/
theorem Layout.slice?_front (h : m.Layout word received appended)
    (hsplit : received ++ appended = front ++ back) :
    Octets.slice? m.raw 0 2 = some (Octets.bigEndian 2 word.toNat) ∧
    Octets.slice? m.raw 4 (headerSize + (row front).length)
      = some (Octets.bigEndian 4 magicCookie.toNat ++ m.id.octets ++ row front) := by
  rw [h.raw, hsplit, row_append]
  refine ⟨(slice?_head word m.length m.id _).1, ?_⟩
  simp only [head, List.append_assoc]
  rw [← List.append_assoc, ← List.append_assoc _ _ (row front ++ row back),
    ← List.append_assoc _ (row front) (row back)]
  refine Octets.slice?_append (by simp) ?_ _
  simp only [List.length_append, Octets.length_bigEndian, m.id.length_octets, headerSize]
  omega

end Message

end Stun
