/-
Stun/Proofs/Wire/Overflow.lean

When an overflow is reported, and when the report makes sense.

A report names a size and a limit, and reads as though the size were above the
limit.  Of the limits that a kind of attribute sets itself this is so.  The
limit of a whole message is another matter: a value is refused by its padded
size, but the limit that is named is the room for an unpadded one
(`Message.room`).  The two disagree where the message would come out one octet
too long, which is as close as it can get, since lengths are multiples of four.

Main result: a report names a limit that its size keeps exactly if the message
would have been one octet too long and the value is empty or in need of
padding (`overflow_untrue_iff`).
-/
import Stun.Proofs.Wire.Layout

namespace Stun

namespace Message

variable {m m' : Message} {word : UInt16} {received appended : List Segment}
variable {t : AttributeType} {v : List UInt8} {n : Nat}

/-! ### Values that are refused -/

/-- The room that an unpadded value would have. -/
def room (m : Message) : Nat := lengthLimit - (m.length + attributeHeaderSize)

/-- A value of `n` octets would make the message one octet too long, and it is
empty or in need of padding. -/
def Squeezed (m : Message) (n : Nat) : Prop :=
  m.length + (attributeHeaderSize + padded n) = lengthLimit + 1 ∧ (n = 0 ∨ n % 4 ≠ 0)

theorem add_eq_error_iff {e : Error} :
    m.add t v = .error e ↔ lengthLimit < m.length + (attributeHeaderSize + padded v.length) ∧
      e = .sizeOverflow t v.length m.room := by
  have := le_padded v.length
  rw [add]
  split
  case isTrue hbig =>
    rw [Except.error.injEq, eq_comm, room]
    exact ⟨fun h => ⟨by omega, h⟩, fun h => h.2⟩
  case isFalse hfits =>
    simp only [reduceCtorEq, false_iff, not_and]
    omega

/-- Lengths are multiples of four. -/
theorem Layout.length_mod (h : m.Layout word received appended) : m.length % 4 = 0 := by
  rw [h.length]
  exact Segment.length_row_mod _

/-- **Where padding makes the difference**: what is refused is within the room
that is reported exactly if it is squeezed. -/
theorem Layout.squeezed_iff (h : m.Layout word received appended) :
    m.Squeezed n ↔ lengthLimit < m.length + (attributeHeaderSize + padded n) ∧ n ≤ m.room := by
  have hmod := h.length_mod
  have hfits := h.fits
  simp only [Squeezed, room, lengthLimit, attributeHeaderSize, padded] at hfits ⊢
  omega

theorem Layout.add_untrue_iff (h : m.Layout word received appended) :
    (∃ t' got max, m.add t v = .error (.sizeOverflow t' got max) ∧ got ≤ max) ↔
      m.Squeezed v.length := by
  rw [h.squeezed_iff]
  constructor
  · rintro ⟨t', got, max, herror, hle⟩
    obtain ⟨hbig, he⟩ := add_eq_error_iff.mp herror
    obtain ⟨-, rfl, rfl⟩ := Error.sizeOverflow.inj he
    exact ⟨hbig, hle⟩
  · rintro ⟨hbig, hle⟩
    exact ⟨t, v.length, m.room, add_eq_error_iff.mpr ⟨hbig, rfl⟩, hle⟩

/-! ### Attributes that are refused -/

/-- **What an overflow reports**: the type and the size of the attribute, and
the limit of its kind, which is then exceeded, or the room in the message. -/
theorem Layout.overflow_cases (h : m.Layout word received appended) {a : Attribute} {got max : Nat}
    (herror : a.addTo m = (.error (.sizeOverflow t got max), m')) :
    t = a.type ∧ got = a.size ∧
      (a.limit? = some max ∧ max < got ∨
        a.WithinLimit ∧ max = m.room ∧
          lengthLimit < m.length + (attributeHeaderSize + padded got)) := by
  obtain ⟨limit, hlimit, hbig, ha⟩ | ⟨-, ha⟩ | ⟨hkept, v, hv, ha⟩ := h.addTo_sized a
  · rw [ha] at herror
    obtain ⟨rfl, rfl, rfl⟩ := Error.sizeOverflow.inj (Except.error.inj (Prod.mk.inj herror).1)
    exact ⟨rfl, rfl, .inl ⟨hlimit, hbig⟩⟩
  · simp [ha] at herror
  · rw [ha] at herror
    obtain ⟨hbig, he⟩ := add_eq_error_iff.mp (editAdd_eq_error_iff.mp herror).1
    obtain ⟨rfl, rfl, rfl⟩ := Error.sizeOverflow.inj he
    exact ⟨rfl, hv, .inr ⟨hkept, rfl, hbig⟩⟩

theorem Layout.addTo_untrue_iff (h : m.Layout word received appended) {a : Attribute} :
    (∃ t got max m', a.addTo m = (.error (.sizeOverflow t got max), m') ∧ got ≤ max) ↔
      a.WithinLimit ∧ m.Squeezed a.size := by
  rw [h.squeezed_iff]
  constructor
  · rintro ⟨t, got, max, m', herror, hle⟩
    obtain ⟨-, rfl, ⟨-, hbig⟩ | ⟨hkept, rfl, hbig⟩⟩ := h.overflow_cases herror
    · omega
    · exact ⟨hkept, hbig, hle⟩
  · rintro ⟨hkept, hbig, hle⟩
    obtain ⟨limit, hlimit, hlong, -⟩ | ⟨hsize, -⟩ | ⟨-, v, hv, ha⟩ := h.addTo_sized a
    · exact absurd (hkept limit hlimit) (not_le.mpr hlong)
    · -- a code needs no padding, so it is never squeezed
      have hsqueezed := (h.squeezed_iff.mpr ⟨hbig, hle⟩).2
      rw [hsize] at hsqueezed
      simp [IntegrityKey.codeSize] at hsqueezed
    · rw [← hv] at hbig hle
      refine ⟨a.type, v.length, m.room, m, ?_, hle⟩
      rw [ha]
      exact editAdd_eq_error_iff.mpr ⟨add_eq_error_iff.mpr ⟨hbig, rfl⟩, rfl⟩

/-- **When an overflow is reported of a size that keeps the limit.**  Appending
octets to a message that can be reached does so exactly if the message would
be one octet too long and the value is empty or in need of padding.  So does
putting an attribute of any kind in, unless it is longer than its kind allows;
then that limit is reported, which it exceeds.  The size that is reported is
always that of the value, and the limit that of the kind or the room for an
unpadded value. -/
theorem overflow_untrue_iff {received? : Option Nat} (hm : Reached received? m) :
    (∀ (t : AttributeType) (v : List UInt8),
      (∃ t' got max, m.add t v = .error (.sizeOverflow t' got max) ∧ got ≤ max) ↔
        m.Squeezed v.length) ∧
    (∀ a : Attribute,
      (∃ t got max m', a.addTo m = (.error (.sizeOverflow t got max), m') ∧ got ≤ max) ↔
        a.WithinLimit ∧ m.Squeezed a.size) ∧
    ∀ (a : Attribute) (t : AttributeType) (got max : Nat) (m' : Message),
      a.addTo m = (.error (.sizeOverflow t got max), m') →
        t = a.type ∧ got = a.size ∧
          (a.limit? = some max ∧ max < got ∨
            a.WithinLimit ∧ max = m.room ∧
              lengthLimit < m.length + (attributeHeaderSize + padded got)) := by
  obtain ⟨word, received, appended, h, -, -⟩ := hm.layout
  exact ⟨fun _ _ => h.add_untrue_iff, fun _ => h.addTo_untrue_iff,
    fun _ _ _ _ _ herror => h.overflow_cases herror⟩

/-- A software description of 65530 octets does not fit an empty message, and
one of 65532 octets neither; only the second is reported above its limit. -/
theorem overflow_untrue_odd :
    let m := Message.new ⟨⟨1⟩, .request⟩ .zero
    (∃ t got max, m.add .software (List.replicate 65530 0) = .error (.sizeOverflow t got max) ∧
      got ≤ max) ∧
    ¬ ∃ t got max, m.add .software (List.replicate 65532 0) = .error (.sizeOverflow t got max) ∧
      got ≤ max := by
  intro m
  have h := (overflow_untrue_iff (.new ⟨⟨1⟩, .request⟩ .zero)).1 .software
  rw [h, h, List.length_replicate, List.length_replicate, Squeezed, Squeezed]
  decide

/-- A value is refused though its size is below the limit that is named. -/
theorem overflow_below_limit :
    let m := Message.new ⟨⟨1⟩, .request⟩ .zero
    Reached none m ∧
      m.add .software (List.replicate 65529 0) = .error (.sizeOverflow .software 65529 65531) ∧
      ¬ 65529 > 65531 := by
  refine ⟨.new _ _, ?_, by decide⟩
  rw [add_eq_error_iff, List.length_replicate]
  decide

end Message

end Stun
