/-
Stun/Proofs/Value/Getters.lean

What is put into a message is found in it.

A lookup takes the first attribute of a type.  An attribute that was put into
a message without its type is that one: what was there before is of other
types, and what is appended later comes behind it (`Added.get_eq`).  At a
receiver this could fail for one type only, since the legacy alias is read as
XOR-MAPPED-ADDRESS; so under that type there must have been no alias before
(`Added.get_unaliased`).  What a getter makes of the octets is the round trip
of its kind, for a masked address under the same id.

Main result: every kind of attribute is found as it was put in, there, behind
all that is appended later, and at any receiver (`found_of_addTo`).
-/
import Stun.Attribute
import Stun.Proofs.Value.RoundTrip
import Stun.Proofs.Wire.Lookup
import Stun.Proofs.Wire.RoundTrip

namespace Stun

open Segment

namespace Message

variable {m m' m'' : Message} {word : UInt16} {received appended : List Segment}
variable {t : AttributeType} {v : List UInt8}

/-! ### The first attribute of a type -/

/-- A type that has a value is there. -/
theorem contains_of_get (h : m.get t = .ok v) : m.contains t = true := by
  rw [get] at h
  rw [contains]
  cases hf : m.find? t with
  | none => simp [hf] at h
  | some a => rfl

/-- `n` holds what `m` holds, behind it `v` under `t`, and then perhaps more. -/
structure Added (m : Message) (t : AttributeType) (v : List UInt8) (n : Message) : Prop where
  id : n.id = m.id
  attributes : ∃ more, n.attributes = m.attributes ++ ⟨t, UInt16.ofNat v.length, v⟩ :: more

/-- What is appended later comes behind. -/
theorem Layout.added (h : m.Layout word received appended) (ha : m.add t v = .ok m')
    (happ : Appended m' m'') : m.Added t v m'' := by
  obtain ⟨more, hl, -, hid⟩ := happ.layout (h.add ha)
  refine ⟨hid.trans (id_of_add ha), more.map asWritten, ?_⟩
  rw [hl.attributes, h.attributes]
  simp only [List.map_append, List.map_cons, List.append_assoc, List.cons_append, List.nil_append]
  rfl

/-- The value is what is found, if the type was not there before. -/
theorem Added.get_eq (h : m.Added t v m'') (hnew : m.contains t = false) : m''.get t = .ok v := by
  obtain ⟨more, hmore⟩ := h.attributes
  exact get_append hmore (contains_eq_false_iff.mp hnew) rfl

/-- It is also what a receiver finds, if the alias of the type was not there
either. -/
theorem Added.get_unaliased {d : Message} (h : m.Added t v m'') (hnew : m.contains t = false)
    (hcode : t.code ≠ 0x8020) (hlegacy : t.code = 0x0020 → m.contains ⟨0x8020⟩ = false)
    (hd : d.attributes = m''.attributes.map RawAttribute.unaliased) : d.get t = .ok v := by
  obtain ⟨more, hmore⟩ := h.attributes
  rw [hmore, List.map_append, List.map_cons, RawAttribute.unaliased_eq_self_iff.mpr hcode] at hd
  refine get_append hd ?_ rfl
  intro b hb
  obtain ⟨a, ha, rfl⟩ := List.mem_map.mp hb
  have hother : a.type ≠ t := contains_eq_false_iff.mp hnew a ha
  by_cases halias : a.type.code = 0x8020
  · -- an alias would be read under the new type, but then there was none
    have hread : a.unaliased.type = ⟨0x0020⟩ := by
      rw [RawAttribute.unaliased, if_pos halias]
    intro htype
    have hnone := contains_eq_false_iff.mp (hlegacy (by rw [← htype, hread])) a ha
    exact hnone (congrArg AttributeType.mk halias)
  · rwa [RawAttribute.unaliased_eq_self_iff.mpr halias]

/-- **What holds wherever a value is found lasts**: it holds behind all that is
appended later, and at any receiver. -/
theorem Layout.lasts_of_add {P : Message → Prop} (h : m.Layout word received appended)
    (hP : ∀ n : Message, n.get t = .ok v → n.id = m.id → P n) (hnew : m.contains t = false)
    (hcode : t.code ≠ 0x8020) (hlegacy : t.code = 0x0020 → m.contains ⟨0x8020⟩ = false)
    (ha : m.add t v = .ok m') (happ : Appended m' m'') :
    P m'' ∧ ∃ d, decode m''.encode = .ok d ∧ P d := by
  have hadded := h.added ha happ
  obtain ⟨more, hl, -, -⟩ := happ.layout (h.add ha)
  refine ⟨hP _ (hadded.get_eq hnew) hadded.id, _, hl.decode_encode, hP _ ?_ hadded.id⟩
  exact hadded.get_unaliased hnew hcode hlegacy rfl

end Message

/-! ### Getters -/

section Getters

variable {n : Message} {t : AttributeType}

theorem Endpoint.getFrom_of_get {e : Endpoint} (h : n.get t = .ok e.octets) :
    getFrom n t = .ok e := by
  rw [getFrom, h]
  exact e.read_octets

/-- The mask that was put on is taken off, under the same id. -/
theorem Endpoint.getMaskedFrom_of_get {e : Endpoint} {id : TransactionId}
    (h : n.get t = .ok (mask id e).octets) (hid : n.id = id) : getMaskedFrom n t = .ok e := by
  have hread : (n.get t).bind read = .ok (mask id e) := getFrom_of_get h
  rw [getMaskedFrom, hread, hid]
  show Except.ok (mask id (mask id e)) = Except.ok e
  rw [mask_mask]

theorem Text.getFrom_of_get {s : String} (h : n.get t = .ok (Octets.ofText s)) :
    getFrom n t = .ok ⟨t, s⟩ := by
  rw [getFrom, h]
  exact Text.read_ofText t s

theorem Number.getFrom_of_get {size k : Nat} (hk : k < 256 ^ size)
    (h : n.get t = .ok (Octets.bigEndian size k)) : getFrom n t size = .ok k := by
  rw [getFrom, h]
  exact Number.read_bigEndian t hk

theorem Number.priority_of_get {k : UInt32}
    (h : n.get .priority = .ok (Octets.bigEndian 4 k.toNat)) : priority n = .ok k := by
  rw [priority, getFrom_of_get k.toNat_lt h]
  exact congrArg Except.ok UInt32.ofNat_toNat

theorem Number.tieBreaker_of_get {k : UInt64} (h : n.get t = .ok (Octets.bigEndian 8 k.toNat)) :
    tieBreaker n t = .ok k := by
  rw [tieBreaker, getFrom_of_get k.toNat_lt h]
  exact congrArg Except.ok UInt64.ofNat_toNat

theorem TypeList.getFrom_of_get {l : TypeList} (h : n.get .unknownAttributes = .ok l.octets) :
    getFrom n = .ok l := by
  rw [getFrom, h]
  exact l.read_octets

end Getters

namespace Attribute

/-- The getter of its kind finds the attribute in the message.  For the two
seals, whose value depends on what stands before them, only that there is one;
an error code is found modulo 25600. -/
def FoundIn (n : Message) : Attribute → Prop
  | mappedAddress e => Endpoint.getFrom n .mappedAddress = .ok e
  | alternateServer e => Endpoint.getFrom n .alternateServer = .ok e
  | xorMappedAddress e => Endpoint.getMaskedFrom n .xorMappedAddress = .ok e
  | xorPeerAddress e => Endpoint.getMaskedFrom n .xorPeerAddress = .ok e
  | xorRelayedAddress e => Endpoint.getMaskedFrom n .xorRelayedAddress = .ok e
  | messageIntegrity _ => n.contains .messageIntegrity = true
  | fingerprint => n.contains .fingerprint = true
  | errorCode reply => ∃ found, ErrorReply.getFrom n = .ok found ∧ found.reason = reply.reason ∧
      found.code.code.toNat = reply.code.code.toNat % 25600 ∧
      (found = reply ↔ reply.code.code.toNat < 25600)
  | text x => Text.getFrom n x.type = .ok x
  | unknownAttributes types => TypeList.getFrom n = .ok types
  | priority k => Number.priority n = .ok k
  | useCandidate => Number.useCandidate n = true
  | iceControlled k => Number.tieBreaker n .iceControlled = .ok k
  | iceControlling k => Number.tieBreaker n .iceControlling = .ok k
  | raw a => n.get a.type = .ok a.value

end Attribute

namespace Message

variable {m m' m'' : Message} {word : UInt16} {received appended : List Segment}

/-- A reply is found modulo 25600. -/
theorem foundIn_errorCode {reply : ErrorReply} {n : Message}
    (h : n.get .errorCode = .ok reply.octets) : (Attribute.errorCode reply).FoundIn n := by
  refine ⟨⟨⟨UInt16.ofNat (reply.code.code.toNat % 25600)⟩, reply.reason⟩, ?_, rfl, ?_,
    reply.reduced_eq_self_iff⟩
  · rw [ErrorReply.getFrom, h]
    exact reply.read_octets
  · show (UInt16.ofNat (reply.code.code.toNat % 25600)).toNat = reply.code.code.toNat % 25600
    rw [UInt16.toNat_ofNat']
    omega

/-- **Every kind is one value that its getter takes for the attribute**: where
the attribute was put in, a value was appended, and wherever that value is
found under the same id, so is the attribute. -/
theorem Layout.exists_found (h : m.Layout word received appended) {a : Attribute}
    (ha : a.addTo m = (.ok (), m')) :
    ∃ v, m.add a.type v = .ok m' ∧
      ∀ n : Message, n.get a.type = .ok v → n.id = m.id → a.FoundIn n := by
  cases a with
  | mappedAddress e | alternateServer e =>
    exact ⟨e.octets, editAdd_eq_ok_iff.mp ha, fun n hn _ => Endpoint.getFrom_of_get hn⟩
  | xorMappedAddress e | xorPeerAddress e | xorRelayedAddress e =>
    exact ⟨(Endpoint.mask m.id e).octets, editAdd_eq_ok_iff.mp ha,
      fun n hn hid => Endpoint.getMaskedFrom_of_get hn hid⟩
  | messageIntegrity key =>
    obtain ⟨v, hv⟩ := h.exists_add_of_addTo ha
    exact ⟨v, hv, fun n hn _ => contains_of_get hn⟩
  | fingerprint =>
    obtain ⟨v, hv⟩ := h.exists_add_of_addTo ha
    exact ⟨v, hv, fun n hn _ => contains_of_get hn⟩
  | errorCode reply =>
    refine ⟨reply.octets, ?_, fun n hn _ => foundIn_errorCode hn⟩
    simp only [Attribute.addTo, ErrorReply.addTo] at ha
    split at ha
    · cases ha
    · exact editAdd_eq_ok_iff.mp ha
  | text x =>
    refine ⟨Octets.ofText x.text, ?_, fun n hn _ => Text.getFrom_of_get hn⟩
    -- bounded or not, what is not refused is the text
    simp only [Attribute.addTo, Text.addTo] at ha
    split at ha
    · split at ha
      · cases ha
      · exact editAdd_eq_ok_iff.mp ha
    · exact editAdd_eq_ok_iff.mp ha
  | unknownAttributes types =>
    exact ⟨types.octets, editAdd_eq_ok_iff.mp ha, fun n hn _ => TypeList.getFrom_of_get hn⟩
  | priority k =>
    exact ⟨Octets.bigEndian 4 k.toNat, editAdd_eq_ok_iff.mp ha,
      fun n hn _ => Number.priority_of_get hn⟩
  | useCandidate => exact ⟨[], editAdd_eq_ok_iff.mp ha, fun n hn _ => contains_of_get hn⟩
  | iceControlled k | iceControlling k =>
    exact ⟨Octets.bigEndian 8 k.toNat, editAdd_eq_ok_iff.mp ha,
      fun n hn _ => Number.tieBreaker_of_get hn⟩
  | raw a => exact ⟨a.value, editAdd_eq_ok_iff.mp ha, fun n hn _ => hn⟩

/-- **What is put into a message is found in it**, by the getter of its kind:
there, behind all that is appended later, and at any receiver of either.  The
message must not have had the type before, and for the type that has an alias
not the alias; only what is put in under the alias itself is not found again. -/
theorem found_of_addTo {received? : Option Nat} (hm : Reached received? m) {a : Attribute}
    (hnew : m.contains a.type = false) (hcode : a.type.code ≠ 0x8020)
    (hlegacy : a.type.code = 0x0020 → m.contains ⟨0x8020⟩ = false)
    (ha : a.addTo m = (.ok (), m')) (happ : Appended m' m'') :
    a.FoundIn m'' ∧ ∃ d, decode m''.encode = .ok d ∧ a.FoundIn d := by
  obtain ⟨word, received, appended, h, -, -⟩ := hm.layout
  obtain ⟨v, hadd, hfound⟩ := h.exists_found ha
  exact h.lasts_of_add hfound hnew hcode hlegacy hadd happ

/-- A masked address of the longer family, put in behind a name and followed by
octets under the alias of its type, is found there and at a receiver, who takes
the alias for a second one. -/
theorem found_of_addTo_masked :
    let e : Endpoint := ⟨⟨.v6, [32, 1, 13, 184, 0, 0, 0, 0, 0, 0, 0, 0, 0, 0, 0, 1], rfl⟩, 8080⟩
    let m := Message.after [.add .username [0x75, 0x73, 0x65, 0x72, 0x31]]
      (.new ⟨⟨1⟩, .request⟩ .zero)
    ∃ m', (Attribute.xorMappedAddress e).addTo m = (.ok (), m') ∧
      ∃ m'', m'.add ⟨0x8020⟩ [7] = .ok m'' ∧
        Endpoint.getMaskedFrom m'' .xorMappedAddress = .ok e ∧
        ∃ d, decode m''.encode = .ok d ∧ Endpoint.getMaskedFrom d .xorMappedAddress = .ok e := by
  intro e m
  have hm : Reached none m :=
    .step (.add .username [0x75, 0x73, 0x65, 0x72, 0x31]) (.new ⟨⟨1⟩, .request⟩ .zero)
  obtain ⟨m', hput⟩ : ∃ m', (Attribute.xorMappedAddress e).addTo m = (.ok (), m') :=
    ⟨_, editAdd_eq_ok_iff.mpr (add_eq_ok_iff.mpr ⟨by decide, rfl⟩)⟩
  have hlength : m'.length = 36 := by
    rw [length_of_add (editAdd_eq_ok_iff.mp hput)]
    decide
  obtain ⟨m'', hmore⟩ : ∃ m'', m'.add ⟨0x8020⟩ [7] = .ok m'' := by
    refine ⟨_, add_eq_ok_iff.mpr ⟨?_, rfl⟩⟩
    rw [hlength]
    decide
  have hfound := found_of_addTo hm (by decide) (by decide) (by decide) hput (.add .refl hmore)
  exact ⟨m', hput, m'', hmore, hfound⟩

end Message

end Stun
