/-
Stun/Proofs/Wire/Layout.lean

How the octets of a message lie, whatever was done to it.

`m.Layout word received appended` says that `raw` is a header with the first
word `word`, followed by the segments that came with a datagram and those that
were appended since, and that the fields tell the same.  The two lists are
kept apart because they are read differently: a received segment may carry the
legacy code and any padding, an appended one carries its own code and zeros.

Every operation keeps a layout, refused or not (`Layout.apply`).  Two facts
carry this.  Declaring another length for a while changes nothing in the end
(`Layout.pretending_eq`), and each of the fifteen kinds of attributes either
refuses and leaves the message alone or appends one value under its type
(`Layout.addTo_sized`).  So every message that can be reached has a layout
(`Reached.layout`), and all that is proved of messages is proved of it.
-/
import Stun.Operation
import Stun.Proofs.Value.RoundTrip
import Stun.Proofs.Wire.Segment

namespace Stun

open Segment

/-! ### Sizes of attributes -/

namespace Attribute

/-- How many octets the value of an attribute has. -/
def size : Attribute → Nat
  | mappedAddress e | alternateServer e | xorMappedAddress e | xorPeerAddress e
  | xorRelayedAddress e => 4 + e.address.family.size
  | messageIntegrity _ => IntegrityKey.codeSize
  | fingerprint => Fingerprint.size
  | errorCode reply => 4 + reply.reason.utf8ByteSize
  | text x => x.text.utf8ByteSize
  | unknownAttributes types => 2 * types.types.length
  | priority _ => 4
  | useCandidate => 0
  | iceControlled _ | iceControlling _ => 8
  | raw a => a.value.length

/-- The greatest size of a value that the kind of attribute allows, if it sets one. -/
def limit? : Attribute → Option Nat
  | errorCode _ => some (4 + ErrorReply.reasonLimit)
  | text x => Text.limit? x.type
  | _ => none

/-- The value is no longer than its kind allows. -/
def WithinLimit (a : Attribute) : Prop := ∀ limit, a.limit? = some limit → a.size ≤ limit

end Attribute

namespace Message

/-! ### Layouts -/

/-- The octets of the message are a header and two rows of segments, and its
fields say so. -/
structure Layout (m : Message) (word : UInt16) (received appended : List Segment) : Prop where
  raw : m.raw = head word m.length m.id ++ row (received ++ appended)
  type : MessageType.ofWord word = m.type.low
  length : m.length = (row (received ++ appended)).length
  fits : m.length ≤ lengthLimit
  attributes : m.attributes = received.map asRead ++ appended.map asWritten
  clean : ∀ s ∈ appended, s.padding = List.replicate s.padding.length 0

variable {m m' : Message} {word : UInt16} {received appended : List Segment}
variable {t : AttributeType} {v : List UInt8}

theorem Layout.length_raw (h : m.Layout word received appended) :
    m.raw.length = headerSize + m.length := by
  rw [h.raw, List.length_append, length_head, ← h.length]

/-! ### Rewriting the header -/

/-- Writing a length into a header writes that header. -/
theorem patch_head (word : UInt16) (k n : Nat) (id : TransactionId) (body : List UInt8) :
    (head word k id ++ body).take 2 ++ Octets.bigEndian 2 n ++ (head word k id ++ body).drop 4
      = head word n id ++ body := by
  have hf : (Octets.bigEndian 2 word.toNat ++ Octets.bigEndian 2 k).length = 4 := by simp
  have htake : (head word k id ++ body).take 2 = Octets.bigEndian 2 word.toNat := by
    simp only [head, List.append_assoc]
    exact List.take_left' (Octets.length_bigEndian 2 _)
  have hdrop : (head word k id ++ body).drop 4
      = Octets.bigEndian 4 magicCookie.toNat ++ (id.octets ++ body) := by
    rw [head, List.append_assoc, List.append_assoc]
    exact List.drop_left' hf
  rw [htake, hdrop, head]
  simp only [List.append_assoc]

/-- The length that a message declares can be declared again. -/
theorem Layout.writeLength_eq (h : m.Layout word received appended) : m.writeLength = m := by
  rw [writeLength, h.raw, patch_head, ← h.raw]

/-- **Pretending leaves no trace**: what is computed sees the same octets under
the longer length, also where that length is too great for its field, and the
message comes back as it was. -/
theorem Layout.pretending_eq {α : Type} (h : m.Layout word received appended) (extra : Nat)
    (f : List UInt8 → α) :
    m.pretending extra f
      = (f (head word (m.length + extra) m.id ++ row (received ++ appended)), m) := by
  have hlonger : (writeLength { m with length := m.length + extra }).raw
      = head word (m.length + extra) m.id ++ row (received ++ appended) := by
    rw [writeLength]
    simp only [h.raw, patch_head]
  refine Prod.ext ?_ ?_
  · simp only [pretending, hlonger]
  · -- the length that is restored goes over the longer one
    simp only [pretending, writeLength] at hlonger ⊢
    rw [hlonger, patch_head, ← h.raw]

/-- A header written anew has the packed type as its first word. -/
theorem Layout.writeHeader (h : m.Layout word received appended) (type : MessageType)
    (id : TransactionId) :
    (Message.writeHeader { m with type, id }).Layout type.toWord received appended where
  raw := by
    simp only [Message.writeHeader, h.raw, header_eq_head]
    rw [List.drop_left' (length_head word m.length m.id)]
  type := MessageType.ofWord_toWord type
  length := h.length
  fits := h.fits
  attributes := h.attributes
  clean := h.clean

theorem layout_new (type : MessageType) (id : TransactionId) :
    (new type id).Layout type.toWord [] [] where
  raw := by simp [new, header_eq_head]
  type := MessageType.ofWord_toWord type
  length := rfl
  fits := Nat.zero_le _
  attributes := rfl
  clean := by simp

/-- A message that was emptied is a new one, whatever it held. -/
theorem reset_eq (m : Message) : m.reset = new m.type m.id := by
  have h : (m.raw.take headerSize
      ++ List.replicate (headerSize - (m.raw.take headerSize).length) 0).length = headerSize := by
    simp only [List.length_append, List.length_replicate, List.length_take]
    omega
  simp only [reset, Message.writeHeader, new]
  rw [List.drop_eq_nil_of_le (Nat.le_of_eq h), List.append_nil]

/-- A message as it was decoded: all segments are received ones. -/
theorem layout_of_decode {bs : List UInt8} (h : decode bs = .ok m) :
    ∃ word received, m.raw = bs ∧ m.type = .ofWord word ∧ m.Layout word received [] := by
  obtain ⟨word, id, segments, hfits, hbs, rfl⟩ := decode_eq_ok_iff.mp h
  refine ⟨word, segments, rfl, rfl, ?_⟩
  constructor
  case raw => rw [List.append_nil, hbs]
  case type => exact (MessageType.low_ofWord word).symm
  case length => rw [List.append_nil]
  case fits => exact hfits
  case attributes => rw [List.map_nil, List.append_nil]
  case clean => simp

/-! ### Appending -/

/-- What appending makes of a message. -/
theorem add_eq_ok_iff :
    m.add t v = .ok m' ↔ m.length + (attributeHeaderSize + padded v.length) ≤ lengthLimit ∧
      m' = writeLength
        { m with
          length := m.length + (attributeHeaderSize + padded v.length)
          attributes := m.attributes ++ [⟨t, UInt16.ofNat v.length, v⟩]
          raw := m.raw ++ encodeAttribute t v } := by
  have := le_padded v.length
  rw [add]
  split
  case isTrue hbig =>
    simp only [reduceCtorEq, false_iff, not_and]
    omega
  case isFalse hfits =>
    rw [Except.ok.injEq, eq_comm]
    exact ⟨fun h => ⟨by omega, h⟩, fun h => h.2⟩

/-- As an edit, appending succeeds where it gives a message, and that is the new one. -/
theorem editAdd_eq_ok_iff : Edit.add t v m = (.ok (), m') ↔ m.add t v = .ok m' := by
  rw [Edit.add]
  cases m.add t v with
  | ok m₁ => simp
  | error e => simp

/-- As an edit, appending that is refused gives the message back. -/
theorem editAdd_eq_error_iff {e : Error} :
    Edit.add t v m = (.error e, m') ↔ m.add t v = .error e ∧ m' = m := by
  rw [Edit.add]
  cases m.add t v with
  | ok m₁ => simp
  | error e => simp [eq_comm]

/-- A value that can be appended fits its own length field. -/
theorem length_le_of_add (h : m.add t v = .ok m') : v.length ≤ lengthLimit := by
  have := le_padded v.length
  have := (add_eq_ok_iff.mp h).1
  omega

/-- Appending puts one segment at the end and leaves all octets before it but
the declared length. -/
theorem Layout.add (h : m.Layout word received appended) (ha : m.add t v = .ok m') :
    m'.Layout word received (appended ++ [ofValue t v (length_le_of_add ha)]) := by
  have hv := length_le_of_add ha
  obtain ⟨hfits, rfl⟩ := add_eq_ok_iff.mp ha
  have hraw : m.raw ++ encodeAttribute t v
      = head word m.length m.id ++ row (received ++ (appended ++ [ofValue t v hv])) := by
    simp only [h.raw, row_append, row_cons, row_nil, octets_ofValue, List.append_nil,
      List.append_assoc]
  constructor
  case raw => simp only [writeLength, hraw, patch_head]
  case type => exact h.type
  case length =>
    simp only [writeLength, ← List.append_assoc, row_append, row_cons, row_nil, List.append_nil,
      List.length_append, octets_ofValue, length_encodeAttribute]
    rw [h.length, row_append, List.length_append]
  case fits => exact hfits
  case attributes =>
    simp only [writeLength, h.attributes, List.map_append, List.append_assoc]
    rfl
  case clean =>
    intro s hs
    rcases List.mem_append.mp hs with hs | hs
    · exact h.clean s hs
    · rw [List.mem_singleton.mp hs]
      simp [ofValue]

/-- A code covers what is there, under the length that counts the code. -/
theorem Layout.integrity_addTo (h : m.Layout word received appended) (key : IntegrityKey)
    (hf : m.contains .fingerprint = false) :
    key.addTo m = Edit.add .messageIntegrity
      (key.code (head word (m.length + (attributeHeaderSize + IntegrityKey.codeSize)) m.id
        ++ row (received ++ appended))) m := by
  simp only [IntegrityKey.addTo, hf, h.pretending_eq, Bool.false_eq_true, if_false]

/-- A fingerprint covers what is there, under the length that counts it. -/
theorem Layout.fingerprint_addTo (h : m.Layout word received appended) :
    Fingerprint.addTo m = Edit.add .fingerprint (Octets.bigEndian 4
      (Fingerprint.value (head word (m.length + (attributeHeaderSize + Fingerprint.size)) m.id
        ++ row (received ++ appended))).toNat) m := by
  simp only [Fingerprint.addTo, h.pretending_eq]

/-- **Every kind of attribute is one value under its type**: it is refused by
its own limit, or it is a code that comes after a fingerprint, or it is
appended like octets of its size. -/
theorem Layout.addTo_sized (h : m.Layout word received appended) (a : Attribute) :
    (∃ limit, a.limit? = some limit ∧ limit < a.size ∧
      a.addTo m = (.error (.sizeOverflow a.type a.size limit), m)) ∨
    (a.size = IntegrityKey.codeSize ∧ a.addTo m = (.error .fingerprintFirst, m)) ∨
    a.WithinLimit ∧ ∃ v, v.length = a.size ∧ a.addTo m = Edit.add a.type v m := by
  have hfree : ∀ {a : Attribute}, a.limit? = none → a.WithinLimit := by
    intro a hnone limit hlimit
    simp [hnone] at hlimit
  cases a with
  | mappedAddress e | alternateServer e =>
    exact .inr (.inr ⟨hfree rfl, _, e.length_octets, rfl⟩)
  | xorMappedAddress e | xorPeerAddress e | xorRelayedAddress e =>
    exact .inr (.inr ⟨hfree rfl, _, (e.mask m.id).length_octets, rfl⟩)
  | messageIntegrity key =>
    rcases hf : m.contains .fingerprint with - | -
    · exact .inr (.inr ⟨hfree rfl, _, IntegrityKey.length_code _ _, h.integrity_addTo key hf⟩)
    · exact .inr (.inl ⟨rfl, by simp [Attribute.addTo, IntegrityKey.addTo, hf]⟩)
  | fingerprint =>
    exact .inr (.inr ⟨hfree rfl, _, Octets.length_bigEndian _ _, h.fingerprint_addTo⟩)
  | errorCode reply =>
    by_cases hbig : 4 + ErrorReply.reasonLimit < 4 + reply.reason.utf8ByteSize
    · exact .inl ⟨_, rfl, hbig, by simp only [Attribute.addTo, ErrorReply.addTo, if_pos hbig]; rfl⟩
    · refine .inr (.inr ⟨fun limit hlimit => ?_, reply.octets, ?_, ?_⟩)
      · obtain rfl := Option.some.inj hlimit
        exact Nat.not_lt.mp hbig
      · simp only [ErrorReply.octets, List.length_cons, Octets.length_ofText, Attribute.size]
        omega
      · simp only [Attribute.addTo, ErrorReply.addTo, if_neg hbig, Attribute.type]
  | text x =>
    simp only [Attribute.addTo, Text.addTo, Attribute.limit?, Attribute.WithinLimit,
      Attribute.size, Attribute.type]
    rcases Text.limit? x.type with - | limit
    · exact .inr (.inr ⟨by simp, Octets.ofText x.text, rfl, rfl⟩)
    · by_cases hbig : limit < x.text.utf8ByteSize
      · exact .inl ⟨limit, rfl, hbig, by simp [hbig]⟩
      · exact .inr (.inr ⟨by simpa using hbig, Octets.ofText x.text, rfl, by simp [hbig]⟩)
  | unknownAttributes types => exact .inr (.inr ⟨hfree rfl, _, types.length_octets, rfl⟩)
  | priority | iceControlled | iceControlling =>
    exact .inr (.inr ⟨hfree rfl, _, Octets.length_bigEndian _ _, rfl⟩)
  | useCandidate | raw => exact .inr (.inr ⟨hfree rfl, _, rfl, rfl⟩)

/-- An attribute is refused and the message stays as it is, or it is appended
like octets. -/
theorem Layout.addTo_cases (h : m.Layout word received appended) (a : Attribute) :
    (∃ e, a.addTo m = (.error e, m)) ∨ ∃ v, a.addTo m = Edit.add a.type v m := by
  obtain ⟨limit, -, -, ha⟩ | ⟨-, ha⟩ | ⟨-, v, -, ha⟩ := h.addTo_sized a
  · exact .inl ⟨_, ha⟩
  · exact .inl ⟨_, ha⟩
  · exact .inr ⟨v, ha⟩

/-- An attribute that was put in is the value of its type, appended. -/
theorem Layout.exists_add_of_addTo (h : m.Layout word received appended) {a : Attribute}
    (ha : a.addTo m = (.ok (), m')) : ∃ v, m.add a.type v = .ok m' := by
  rcases h.addTo_cases a with ⟨e, he⟩ | ⟨v, hv⟩
  · simp [he] at ha
  · rw [hv] at ha
    exact ⟨v, editAdd_eq_ok_iff.mp ha⟩

/-- What is refused leaves the message as it was. -/
theorem Layout.eq_of_addTo_error (h : m.Layout word received appended) {a : Attribute} {e : Error}
    (ha : a.addTo m = (.error e, m')) : m' = m := by
  rcases h.addTo_cases a with ⟨e, he⟩ | ⟨v, hv⟩
  · rw [he] at ha
    exact (Prod.mk.inj ha).2.symm
  · rw [hv] at ha
    exact (editAdd_eq_error_iff.mp ha).2

theorem type_of_add (h : m.add t v = .ok m') : m'.type = m.type := by
  rw [(add_eq_ok_iff.mp h).2]
  rfl

theorem id_of_add (h : m.add t v = .ok m') : m'.id = m.id := by
  rw [(add_eq_ok_iff.mp h).2]
  rfl

theorem length_of_add (h : m.add t v = .ok m') :
    m'.length = m.length + (attributeHeaderSize + padded v.length) := by
  rw [(add_eq_ok_iff.mp h).2]
  rfl

theorem attributes_of_add (h : m.add t v = .ok m') :
    m'.attributes = m.attributes ++ [⟨t, UInt16.ofNat v.length, v⟩] := by
  rw [(add_eq_ok_iff.mp h).2]
  rfl

/-! ### Histories -/

/-- `m'` is `m` with attributes appended, none of which was refused. -/
inductive Appended (m : Message) : Message → Prop
  | refl : Appended m m
  | add {m' m'' t v} : Appended m m' → m'.add t v = .ok m'' → Appended m m''
  | put {m' m''} {a : Attribute} : Appended m m' → a.addTo m' = (.ok (), m'') → Appended m m''

/-- Appending more puts more segments at the end. -/
theorem Appended.layout (hm : Appended m m') (h : m.Layout word received appended) :
    ∃ more, m'.Layout word received (appended ++ more) ∧ m'.type = m.type ∧ m'.id = m.id := by
  induction hm with
  | refl => exact ⟨[], by rwa [List.append_nil], rfl, rfl⟩
  | @add m₁ m₂ t v _ ha ih =>
    obtain ⟨more, hl, htype, hid⟩ := ih
    refine ⟨more ++ [ofValue t v (length_le_of_add ha)], ?_, (type_of_add ha).trans htype,
      (id_of_add ha).trans hid⟩
    rw [← List.append_assoc]
    exact hl.add ha
  | @put m₁ m₂ a _ hp ih =>
    obtain ⟨more, hl, htype, hid⟩ := ih
    obtain ⟨v, ha⟩ := hl.exists_add_of_addTo hp
    refine ⟨more ++ [ofValue a.type v (length_le_of_add ha)], ?_, (type_of_add ha).trans htype,
      (id_of_add ha).trans hid⟩
    rw [← List.append_assoc]
    exact hl.add ha

/-- Attributes put in one after the other, up to one that is refused, are
attributes appended. -/
theorem Layout.appended_all (attributes : List Attribute) (h : m.Layout word received appended) :
    Appended m (Attempt.all (attributes.map Attribute.addTo) m).2 := by
  have aux : ∀ {m₁}, Appended m m₁ →
      Appended m (Attempt.all (attributes.map Attribute.addTo) m₁).2 := by
    induction attributes with
    | nil => exact id
    | cons a as ih =>
      intro m₁ hm
      obtain ⟨more, hl, -⟩ := hm.layout h
      rcases ha : a.addTo m₁ with ⟨e | ⟨⟩, m₂⟩
      · obtain rfl := hl.eq_of_addTo_error ha
        simpa [Attempt.all, ha] using hm
      · simpa [Attempt.all, ha] using ih (hm.put ha)
  exact aux .refl

end Message

/-- The operation drops all attributes before it does anything else. -/
def Operation.clears : Operation → Bool
  | reset | build _ => true
  | _ => false

namespace Message

/-- Operations lead to the message, whether each succeeds or is refused: from
a new message (`none`), the default one among them, or from one that was
decoded, of whose attributes the first `n` are still there (`some n`). -/
inductive Reached : Option Nat → Message → Prop
  | new (type id) : Reached none (.new type id)
  | decode {bs m} : decode bs = .ok m → Reached (some m.attributes.length) m
  | step {received? m} (op : Operation) : Reached received? m →
      Reached (if op.clears then received?.map fun _ => 0 else received?) (op.apply m).2

/-- **One step**: an operation keeps a layout.  Once the first word is that of
the type it stays so. -/
theorem Layout.apply (h : m.Layout word received appended) (op : Operation) :
    ∃ word' appended',
      (op.apply m).2.Layout word' (if op.clears then [] else received) appended' ∧
      (word = m.type.toWord → word' = (op.apply m).2.type.toWord) := by
  cases op with
  | reset =>
    refine ⟨m.type.toWord, [], ?_, fun _ => rfl⟩
    simp only [Operation.apply, reset_eq]
    exact layout_new m.type m.id
  | build attributes =>
    have hl := layout_new m.type m.id
    obtain ⟨more, hl', htype, -⟩ := (hl.appended_all attributes).layout hl
    refine ⟨m.type.toWord, more, ?_, ?_⟩
    · simp only [Operation.apply, Message.build, reset_eq]
      exact hl'
    · intro _
      simp only [Operation.apply, Message.build, reset_eq, htype]
      rfl
  | setType type => exact ⟨type.toWord, appended, h.writeHeader type m.id, fun _ => rfl⟩
  | setId id => exact ⟨m.type.toWord, appended, h.writeHeader m.type id, fun _ => rfl⟩
  | writeHeader => exact ⟨m.type.toWord, appended, h.writeHeader m.type m.id, fun _ => rfl⟩
  | writeLength =>
    refine ⟨word, appended, ?_, id⟩
    simp only [Operation.apply, h.writeLength_eq]
    exact h
  | add t v =>
    simp only [Operation.apply]
    rcases ha : Edit.add t v m with ⟨e | ⟨⟩, m₁⟩
    · obtain rfl := (editAdd_eq_error_iff.mp ha).2
      exact ⟨word, appended, h, id⟩
    · have ha := editAdd_eq_ok_iff.mp ha
      exact ⟨word, _, h.add ha, fun hw => hw.trans (by rw [type_of_add ha])⟩
  | put a =>
    simp only [Operation.apply]
    rcases ha : a.addTo m with ⟨e | ⟨⟩, m₁⟩
    · obtain rfl := h.eq_of_addTo_error ha
      exact ⟨word, appended, h, id⟩
    · obtain ⟨v, hv⟩ := h.exists_add_of_addTo ha
      exact ⟨word, _, h.add hv, fun hw => hw.trans (by rw [type_of_add hv])⟩

/-- **Every message that can be reached has a layout.** -/
theorem Reached.layout {received? : Option Nat} (hm : Reached received? m) :
    ∃ word received appended, m.Layout word received appended ∧
      received.length = received?.getD 0 ∧ (received? = none → word = m.type.toWord) := by
  induction hm with
  | new type id => exact ⟨_, [], [], layout_new type id, rfl, fun _ => rfl⟩
  | decode h =>
    obtain ⟨word, received, -, -, hl⟩ := layout_of_decode h
    refine ⟨word, received, [], hl, ?_, by simp⟩
    simp [hl.attributes]
  | step op _ ih =>
    obtain ⟨word, received, appended, hl, hn, hw⟩ := ih
    obtain ⟨word', appended', hl', hw'⟩ := hl.apply op
    refine ⟨word', _, appended', hl', ?_, ?_⟩
    · rcases op.clears with - | -
      · exact hn
      · rename_i received? _ _
        cases received? <;> rfl
    · intro hnone
      refine hw' (hw ?_)
      split at hnone
      · simpa using hnone
      · exact hnone

end Message

end Stun
