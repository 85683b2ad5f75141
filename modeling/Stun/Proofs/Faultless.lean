/-
Stun/Proofs/Faultless.lean

No datagram brings the codec to a fault.

There are three kinds of faults: a cut that reaches beyond the octets, a
difference below zero, and a number that loses digits where it is written on
sixteen bits.  A reader answers the first two with `inconsistent`, an error that
no caller can do anything about; the third goes unnoticed, so it is told from
the octets that are written: they declare the number that was meant
(`Declares`).

All of this hangs on where an attribute lies.  What stands before it, what it
takes and what follows it make up the declared length, which fits its field
(`Layout.exists_of_offset`), so the verifiers cut within the octets and the
lengths they put in place of the declared one are no longer than it.

Main results: no message that can be reached has a fault (`Reached.faultless`),
so none that came with a datagram, whatever is done to it
(`faultless_of_decode`).
-/
import Stun.Proofs.Seal.Fingerprint
import Stun.Proofs.Seal.Integrity
import Stun.Proofs.Wire.Defects

namespace Stun

open Segment

/-! ### Cuts within the octets -/

theorem Octets.exists_slice? {bs : List UInt8} {start stop : Nat} (hs : start ≤ stop)
    (ht : stop ≤ bs.length) : ∃ cut, slice? bs start stop = some cut :=
  ⟨_, slice?_eq_some_iff.mpr ⟨hs, ht, rfl⟩⟩

namespace Message

theorem exists_field {bs : List UInt8} {start stop : Nat} (hs : start ≤ stop)
    (ht : stop ≤ bs.length) : ∃ n, field bs start stop = some n := by
  obtain ⟨cut, hcut⟩ := Octets.exists_slice? hs ht
  exact ⟨Octets.toNat cut, by rw [field, hcut, Option.map_some]⟩

/-- A field holds no more than its octets can. -/
theorem field_lt {bs : List UInt8} {start stop n : Nat} (h : field bs start stop = some n) :
    n < 256 ^ (stop - start) := by
  obtain ⟨cut, hcut, rfl⟩ := Option.map_eq_some_iff.mp h
  obtain ⟨-, hstop, hlength⟩ := Octets.slice?_eq_some_iff.mp hcut
  have hsize : cut.length = stop - start := by
    rw [hlength, List.length_drop, List.length_take, Nat.min_eq_left hstop]
  exact hsize ▸ Octets.toNat_lt cut

/-! ### Lengths on sixteen bits -/

/-- The length field of the octets holds the number, and not what sixteen bits
leave of it. -/
def Declares (bs : List UInt8) (n : Nat) : Prop := field bs 2 4 = some n

/-- A header declares every length that fits. -/
theorem declares_head (word : UInt16) {n : Nat} (h : n ≤ lengthLimit) (id : TransactionId)
    (body : List UInt8) : Declares (head word n id ++ body) n := by
  have hlt : n < 256 ^ 2 := Nat.lt_succ_of_le h
  rw [Declares, field, (slice?_head word n id body).2.1, Option.map_some, Octets.toNat_bigEndian,
    Nat.mod_eq_of_lt hlt]

end Message

/-! ### Readers of values -/

open Message

theorem Endpoint.read_ne_inconsistent (v : List UInt8) : read v ≠ .error .inconsistent := by
  rw [read]
  split
  case isTrue => simp
  case isFalse hlong =>
    have hfour : 4 ≤ v.length := Nat.le_of_not_le hlong
    obtain ⟨family, hfamily⟩ := exists_field (Nat.zero_le 2) (Nat.le_trans (by decide) hfour)
    obtain ⟨port, hport⟩ := exists_field (show 2 ≤ 4 by decide) hfour
    obtain ⟨octets, hoctets⟩ := Octets.exists_slice? hfour (Nat.le_refl _)
    simp only [hfamily, hport, hoctets]
    split
    · simp
    · split <;> simp

theorem Text.read_ne_inconsistent (t : AttributeType) (v : List UInt8) :
    read t v ≠ .error .inconsistent := by
  rw [read]
  split <;> simp

theorem TypeList.read_ne_inconsistent (v : List UInt8) : read v ≠ .error .inconsistent := by
  rw [read]
  split <;> simp

theorem Number.read_ne_inconsistent (t : AttributeType) (size : Nat) (v : List UInt8) :
    read t size v ≠ .error .inconsistent := by
  rw [read]
  split <;> simp

namespace ErrorReply

theorem read_ne_inconsistent (v : List UInt8) : read v ≠ .error .inconsistent := by
  rw [read]
  split
  case isTrue => simp
  case isFalse hshort =>
    have hfour : 4 ≤ v.length := Nat.le_of_not_lt hshort
    have hthree : 3 ≤ v.length := Nat.le_trans (by decide) hfour
    obtain ⟨hundreds, hhundreds⟩ := exists_field (show 2 ≤ 3 by decide) hthree
    obtain ⟨remainder, hremainder⟩ := exists_field (show 3 ≤ 4 by decide) hfour
    obtain ⟨reason, hreason⟩ := Octets.exists_slice? hfour (Nat.le_refl _)
    simp only [hhundreds, hremainder, hreason]
    split <;> simp

/-- **The code of a reply is computed without overflow**, from any two octets. -/
theorem toNat_code_of_read {v : List UInt8} {reply : ErrorReply} (h : read v = .ok reply) :
    ∃ hundreds remainder, field v 2 3 = some hundreds ∧ field v 3 4 = some remainder ∧
      reply.code.code.toNat = hundreds * 100 + remainder := by
  rw [read] at h
  split at h
  case isTrue => cases h
  case isFalse =>
    split at h
    case h_2 => cases h
    case h_1 hundreds remainder reason hhundreds hremainder hreason =>
      split at h
      case h_2 => cases h
      case h_1 =>
        obtain rfl := Except.ok.inj h
        refine ⟨hundreds, remainder, hhundreds, hremainder, ?_⟩
        have hlt := field_lt hhundreds
        have hlt' := field_lt hremainder
        show (UInt16.ofNat (hundreds * 100 + remainder)).toNat = hundreds * 100 + remainder
        rw [UInt16.toNat_ofNat']
        omega

end ErrorReply

namespace Message

variable {m m' : Message} {word : UInt16} {received appended : List Segment}
variable {t : AttributeType} {v : List UInt8}

/-- What a reader of values answers for any octets it answers for a message, or
that there is no such attribute. -/
theorem bind_get_ne_inconsistent {α : Type} {read : List UInt8 → Except Error α}
    (h : ∀ v, read v ≠ .error .inconsistent) (m : Message) (t : AttributeType) :
    (m.get t).bind read ≠ .error .inconsistent := by
  rw [get]
  split
  · exact h _
  · simp [Except.bind]

theorem map_ne_inconsistent {α β : Type} {x : Except Error α} (h : x ≠ .error .inconsistent)
    (f : α → β) : x.map f ≠ .error .inconsistent := by
  cases x with
  | ok a => simp [Except.map]
  | error e =>
    intro hmap
    exact h (congrArg Except.error (Except.error.inj hmap))

/-! ### Verifiers -/

/-- What a code covers is cut within the octets, under a length that fits. -/
theorem Layout.exists_covered (h : m.Layout word received appended) {offset : Nat}
    {after : List RawAttribute} (ho : m.offset? .messageIntegrity = some (offset, after)) :
    wireSize after ≤ m.length ∧
    ∃ bs, IntegrityKey.covered m.raw offset (m.length - wireSize after) = some bs ∧
      Declares bs (m.length - wireSize after) := by
  obtain ⟨front, back, v, hsplit, rfl, -, hlength⟩ := h.exists_of_offset ho
  refine ⟨by omega, _, IntegrityKey.covered_eq h hsplit _, ?_⟩
  exact declares_head word (Nat.le_trans (Nat.sub_le _ _) h.fits) m.id _

theorem Layout.integrity_check_ne (h : m.Layout word received appended) (key : IntegrityKey) :
    key.check m ≠ .error .inconsistent := by
  rw [IntegrityKey.check]
  split
  · simp
  · rename_i offset after ho
    obtain ⟨front, back, v, -, -, hget, -⟩ := h.exists_of_offset ho
    obtain ⟨hle, bs, hbs, -⟩ := h.exists_covered ho
    rw [if_neg (Nat.not_lt.mpr hle), hget, hbs]
    dsimp only
    split <;> simp

/-- What a fingerprint of the right size covers is cut within the octets, under
a length that fits. -/
theorem Layout.exists_expected (h : m.Layout word received appended) {offset : Nat}
    {after : List RawAttribute} (ho : m.offset? .fingerprint = some (offset, after))
    (hget : m.get .fingerprint = .ok v) (hsize : v.length = Fingerprint.size) :
    headerSize ≤ offset ∧
    ∃ bs, Fingerprint.expected m.raw offset
        (offset + attributeHeaderSize + Fingerprint.size - headerSize)
          = some (Fingerprint.value bs) ∧
      Declares bs (offset + attributeHeaderSize + Fingerprint.size - headerSize) := by
  obtain ⟨front, back, v', hsplit, rfl, hget', hlength⟩ := h.exists_of_offset ho
  obtain rfl : v = v' := Except.ok.inj (hget.symm.trans hget')
  refine ⟨Nat.le_add_right _ _, _, Fingerprint.expected_eq h hsplit, ?_⟩
  have hfits := h.fits
  have hpadded : padded Fingerprint.size = Fingerprint.size := rfl
  rw [hsize, hpadded] at hlength
  -- counted from the front, the length is that of all there is up to the attribute's end
  have hcount : headerSize + (row front).length + attributeHeaderSize + Fingerprint.size
      - headerSize = (row front).length + (attributeHeaderSize + Fingerprint.size) := by
    omega
  rw [hcount]
  exact declares_head word (by omega) m.id _

theorem Layout.fingerprint_check_ne (h : m.Layout word received appended) :
    Fingerprint.check m ≠ .error .inconsistent := by
  rw [Fingerprint.check]
  split
  · simp
  · rename_i offset after ho
    obtain ⟨front, back, v, -, -, hget, -⟩ := h.exists_of_offset ho
    rw [hget]
    dsimp only
    split
    case isTrue => simp
    case isFalse hsize =>
      have hsize : v.length = Fingerprint.size := not_not.mp hsize
      obtain ⟨-, bs, hbs, -⟩ := h.exists_expected ho hget hsize
      have hfour : (4 : Nat) ≤ v.length := Nat.le_of_eq hsize.symm
      obtain ⟨actual, hactual⟩ := exists_field (Nat.zero_le 4) hfour
      rw [hactual, hbs]
      dsimp only
      split <;> simp

/-! ### Appending -/

/-- The lengths that were written when `v` was appended under `t` are whole: the
one of the message, and the one of the attribute in the octets and in the
fields. -/
structure WrittenWhole (m : Message) (t : AttributeType) (v : List UInt8) (m' : Message) :
    Prop where
  message : Declares m'.raw m'.length
  octets : field m'.raw (headerSize + m.length + 2) (headerSize + m.length + 4)
    = some v.length
  fields : ∃ n : UInt16, n.toNat = v.length ∧ m'.attributes = m.attributes ++ [⟨t, n, v⟩]

theorem Layout.writtenWhole (h : m.Layout word received appended) (ha : m.add t v = .ok m') :
    m.WrittenWhole t v m' := by
  have hl := h.add ha
  have hv := length_le_of_add ha
  have hlt : v.length < 256 ^ 2 := Nat.lt_succ_of_le hv
  have hattributes := attributes_of_add ha
  have hwhole : (UInt16.ofNat v.length).toNat = v.length := (ofValue t v hv).toNat_length
  constructor
  case message =>
    rw [hl.raw]
    exact declares_head word hl.fits m'.id _
  case octets =>
    -- it lies behind all that was there before
    have hlast : (received ++ (appended ++ [ofValue t v hv]))[m.attributes.length]?
        = some (ofValue t v hv) := by
      simp [h.attributes]
    have hlies := hl.liesAt hlast (.inr rfl)
    rw [hattributes, List.take_left, ← h.length_eq_wireSize] at hlies
    rw [field, hlies.length, Option.map_some, Octets.toNat_bigEndian]
    show some ((UInt16.ofNat v.length).toNat % 256 ^ 2) = some v.length
    rw [hwhole, Nat.mod_eq_of_lt hlt]
  case fields => exact ⟨UInt16.ofNat v.length, hwhole, hattributes⟩

/-- The octets that a seal is computed from declare the length that counts it,
if that fits, and the message comes back as it was. -/
theorem Layout.exists_pretended (h : m.Layout word received appended) {extra : Nat}
    (hfits : m.length + extra ≤ lengthLimit) :
    ∃ bs, m.pretending extra id = (bs, m) ∧ Declares bs (m.length + extra) :=
  ⟨_, h.pretending_eq extra id, declares_head word hfits m.id _⟩

/-! ### Messages without a fault -/

/-- Nothing that is read from the message or done to it runs into a fault. -/
structure Faultless (m : Message) : Prop where
  /-- There is a header to rewrite, and the length was written there as it is. -/
  header : headerSize ≤ m.raw.length ∧ Declares m.raw m.length
  writeHeader : ∀ type id, Declares (Message.writeHeader { m with type, id }).raw m.length
  endpoint : ∀ t, Endpoint.getFrom m t ≠ .error .inconsistent
  maskedEndpoint : ∀ t, Endpoint.getMaskedFrom m t ≠ .error .inconsistent
  text : ∀ t, Text.getFrom m t ≠ .error .inconsistent
  types : TypeList.getFrom m ≠ .error .inconsistent
  priority : Number.priority m ≠ .error .inconsistent
  tieBreaker : ∀ t, Number.tieBreaker m t ≠ .error .inconsistent
  reply : ErrorReply.getFrom m ≠ .error .inconsistent
  /-- The code of a reply is the sum that was meant. -/
  code : ∀ reply, ErrorReply.getFrom m = .ok reply → ∃ v hundreds remainder,
    m.get .errorCode = .ok v ∧ field v 2 3 = some hundreds ∧ field v 3 4 = some remainder ∧
    reply.code.code.toNat = hundreds * 100 + remainder
  integrity : ∀ key : IntegrityKey, key.check m ≠ .error .inconsistent
  /-- The length that is verified is a difference that exists, and fits. -/
  covered : ∀ offset after, m.offset? .messageIntegrity = some (offset, after) →
    wireSize after ≤ m.length ∧
    ∃ bs, IntegrityKey.covered m.raw offset (m.length - wireSize after) = some bs ∧
      Declares bs (m.length - wireSize after)
  fingerprint : Fingerprint.check m ≠ .error .inconsistent
  /-- So does the length that is checked. -/
  expected : ∀ offset after v, m.offset? .fingerprint = some (offset, after) →
    m.get .fingerprint = .ok v → v.length = Fingerprint.size →
    headerSize ≤ offset ∧
    ∃ bs, Fingerprint.expected m.raw offset
        (offset + attributeHeaderSize + Fingerprint.size - headerSize)
          = some (Fingerprint.value bs) ∧
      Declares bs (offset + attributeHeaderSize + Fingerprint.size - headerSize)
  add : ∀ t v m', m.add t v = .ok m' → m.WrittenWhole t v m'
  put : ∀ (a : Attribute) m', a.addTo m = (.ok (), m') → ∃ v, m.WrittenWhole a.type v m'
  /-- A seal that is put in was computed under the length that counts it. -/
  sign : ∀ (key : IntegrityKey) m', key.addTo m = (.ok (), m') →
    ∃ bs, m.pretending (attributeHeaderSize + IntegrityKey.codeSize) id = (bs, m) ∧
      Declares bs (m.length + (attributeHeaderSize + IntegrityKey.codeSize))
  stamp : ∀ m', Fingerprint.addTo m = (.ok (), m') →
    ∃ bs, m.pretending (attributeHeaderSize + Fingerprint.size) id = (bs, m) ∧
      Declares bs (m.length + (attributeHeaderSize + Fingerprint.size))

/-- **A message whose octets lie as its fields say is without a fault.** -/
theorem Layout.faultless (h : m.Layout word received appended) : m.Faultless where
  header := by
    refine ⟨?_, ?_⟩
    · rw [h.length_raw]
      exact Nat.le_add_right _ _
    · rw [h.raw]
      exact declares_head word h.fits m.id _
  writeHeader type id := by
    rw [(h.writeHeader type id).raw]
    exact declares_head _ h.fits id _
  endpoint t := bind_get_ne_inconsistent Endpoint.read_ne_inconsistent m t
  maskedEndpoint t :=
    map_ne_inconsistent (bind_get_ne_inconsistent Endpoint.read_ne_inconsistent m t) _
  text t := bind_get_ne_inconsistent (Text.read_ne_inconsistent t) m t
  types := bind_get_ne_inconsistent TypeList.read_ne_inconsistent m _
  priority :=
    map_ne_inconsistent (bind_get_ne_inconsistent (Number.read_ne_inconsistent _ 4) m _) _
  tieBreaker t :=
    map_ne_inconsistent (bind_get_ne_inconsistent (Number.read_ne_inconsistent t 8) m t) _
  reply := bind_get_ne_inconsistent ErrorReply.read_ne_inconsistent m _
  code reply hreply := by
    rw [ErrorReply.getFrom] at hreply
    cases hv : m.get .errorCode with
    | error e => simp [hv, Except.bind] at hreply
    | ok v =>
      rw [hv] at hreply
      obtain ⟨hundreds, remainder, hcode⟩ := ErrorReply.toNat_code_of_read hreply
      exact ⟨v, hundreds, remainder, rfl, hcode⟩
  integrity key := h.integrity_check_ne key
  covered _ _ ho := h.exists_covered ho
  fingerprint := h.fingerprint_check_ne
  expected _ _ _ ho hget hsize := h.exists_expected ho hget hsize
  add t v m' ha := h.writtenWhole ha
  put a m' ha := by
    obtain ⟨v, hv⟩ := h.exists_add_of_addTo ha
    exact ⟨v, h.writtenWhole hv⟩
  sign key m' ha := by
    have hf : m.contains .fingerprint = false := by
      rw [← Bool.not_eq_true]
      intro hf
      simp [IntegrityKey.addTo, hf] at ha
    exact h.exists_pretended ((IntegrityKey.exists_addTo_iff h hf key).mp ⟨m', ha⟩)
  stamp m' ha := by
    rw [Fingerprint.addTo_eq h] at ha
    have hfits := exists_editAdd_iff.mp ⟨m', ha⟩
    rw [Fingerprint.length_stamp] at hfits
    exact h.exists_pretended hfits

/-- **No message that can be reached has a fault.** -/
theorem Reached.faultless {received? : Option Nat} (hm : Reached received? m) : m.Faultless := by
  obtain ⟨word, received, appended, h, -, -⟩ := hm.layout
  exact h.faultless

/-- Further operations lead from one message that can be reached to another. -/
theorem Reached.after {received? : Option Nat} (hm : Reached received? m) (ops : List Operation) :
    ∃ received?', Reached received?' (Message.after ops m) := by
  induction ops generalizing received? m with
  | nil => exact ⟨received?, hm⟩
  | cons op ops ih => exact ih (hm.step op)

/-- **No datagram brings the codec to a fault.**  Decoding cuts within the
octets, whatever they are; and whatever is done to a message that was decoded,
whether each operation succeeds or is refused, neither reading its attributes
nor verifying its seals nor changing it further runs into a fault. -/
theorem faultless_of_decode (bs : List UInt8) :
    decode bs ≠ .error .inconsistent ∧
    ∀ m, decode bs = .ok m → ∀ ops, (Message.after ops m).Faultless := by
  constructor
  · intro h
    cases defect_of_decode h
  · intro m h ops
    obtain ⟨received?, hm⟩ := (Reached.decode h).after ops
    exact hm.faultless

end Message

end Stun
