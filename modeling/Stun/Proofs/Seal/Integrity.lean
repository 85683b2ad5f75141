/-
Stun/Proofs/Seal/Integrity.lean

Signing and verifying an authentication code agree.

The signer covers the octets it has, under a length that counts its own
attribute; the verifier covers the octets before the first such attribute,
under the length less all that follows.  If the code has the size of a digest
that is the length up to its end, so what the verifier hashes is what a seal in
its place covers (`covered_eq_coveredAt`), and a code that seals a message
verifies (`check_of_sealed`).  Main result: `check_of_addTo`.
-/
import Stun.Proofs.Seal.Cover

namespace Stun

open Segment Message

theorem AttributeType.hasNoAlias_messageIntegrity :
    AttributeType.messageIntegrity.HasNoAlias := by
  unfold HasNoAlias
  decide

namespace IntegrityKey

variable {m : Message} {word : UInt16} {received appended front back : List Segment}
variable {key : IntegrityKey} {v : List UInt8} {offset : Nat} {after : List RawAttribute}

/-! ### Verifying -/

/-- The octets a verifier puts together are a header and a row. -/
theorem covered_eq (h : m.Layout word received appended)
    (hsplit : received ++ appended = front ++ back) (length : Nat) :
    covered m.raw (headerSize + (row front).length) length
      = some (head word length m.id ++ row front) := by
  obtain ⟨hword, hbody⟩ := h.slice?_front hsplit
  simp only [covered, hword, hbody, head, List.append_assoc]

/-- **What the verifier hashes**, if the first code has the size of a digest:
whatever follows it, the length is that up to its end. -/
theorem covered_eq_coveredAt (h : m.Layout word received appended)
    (hoffset : m.offset? .messageIntegrity = some (offset, after))
    (hget : m.get .messageIntegrity = .ok v) (hsize : v.length = codeSize) :
    wireSize after ≤ m.length ∧
    covered m.raw offset (m.length - wireSize after) = some (coveredAt codeSize m.raw offset) := by
  obtain ⟨front, back, v', hsplit, rfl, hget', hlength⟩ := h.exists_of_offset hoffset
  obtain rfl : v' = v := Except.ok.inj (hget'.symm.trans hget)
  have hpadded : padded codeSize = codeSize := rfl
  rw [hsize, hpadded] at hlength
  have hcounted : m.length - wireSize after
      = (row front).length + (attributeHeaderSize + codeSize) := by
    omega
  refine ⟨by omega, ?_⟩
  rw [covered_eq h hsplit, hcounted, h.coveredAt_eq hsplit, beforeSeal]

/-- **The key that gave the first code verifies it.** -/
theorem check_of_sealed (m : Message) (h : m.Sealed .messageIntegrity key.code codeSize) :
    key.check m = .ok () := by
  obtain ⟨word, received, appended, front, s, back, hl, hsplit, hs⟩ := h
  obtain ⟨hget, after, hoffset, -⟩ :=
    hl.lookup_first AttributeType.hasNoAlias_messageIntegrity hsplit hs.code hs.first
  have hsize : s.value.length = codeSize := by rw [hs.value, length_code]
  obtain ⟨hle, hcovered⟩ := covered_eq_coveredAt hl hoffset hget hsize
  rw [hl.coveredAt_eq hsplit] at hcovered
  simp only [check, hoffset, Nat.not_lt.mpr hle, if_false, hget, hcovered, hs.value, if_true]

/-! ### Signing -/

/-- What is appended is the code of what there is. -/
theorem addTo_eq (h : m.Layout word received appended) (hf : m.contains .fingerprint = false)
    (key : IntegrityKey) :
    key.addTo m = Edit.add .messageIntegrity
      (key.code (beforeSeal codeSize word m.id (received ++ appended))) m := by
  rw [h.integrity_addTo key hf, h.length]
  rfl

/-- A code can be appended as long as the length field can count it. -/
theorem exists_addTo_iff (h : m.Layout word received appended)
    (hf : m.contains .fingerprint = false) (key : IntegrityKey) :
    (∃ m', key.addTo m = (.ok (), m')) ↔ m.length + 24 ≤ lengthLimit := by
  rw [addTo_eq h hf key, exists_editAdd_iff, length_code]
  rfl

/-- **Signing and verifying agree, whatever follows the code.**  A message that
has neither a code nor a fingerprint takes a code as long as its length can
count it; the code is the keyed digest of the octets before it as they stand
then, and verifies there, behind all that is appended later, and at any
receiver. -/
theorem check_of_addTo {received? : Option Nat} (hm : Reached received? m)
    (hi : m.contains .messageIntegrity = false) (hf : m.contains .fingerprint = false)
    (key : IntegrityKey) :
    ((∃ m', key.addTo m = (.ok (), m')) ↔ m.length + 24 ≤ 65535) ∧
    ∀ m', key.addTo m = (.ok (), m') →
      m'.length = m.length + 24 ∧
      Octets.slice? m'.raw 2 4 = some (Octets.bigEndian 2 (m.length + 24)) ∧
      m'.attributes = m.attributes
        ++ [⟨.messageIntegrity, 20, Hash.hmacSha1 key.octets (m'.raw.take (20 + m.length))⟩] ∧
      ∀ m'', Appended m' m'' →
        key.check m'' = .ok () ∧ ∃ d, Message.decode m''.encode = .ok d ∧ key.check d = .ok () := by
  obtain ⟨word, received, appended, h, -, -⟩ := hm.layout
  refine ⟨exists_addTo_iff h hf key, ?_⟩
  intro m' ha
  rw [addTo_eq h hf key] at ha
  have hadd := editAdd_eq_ok_iff.mp ha
  obtain ⟨hlength, hfield, hattributes⟩ := h.added_seal key.length_code rfl hadd
  have hsealed := h.sealed_of_add AttributeType.hasNoAlias_messageIntegrity hi hadd
  exact ⟨hlength, hfield, hattributes, fun m'' happ => hsealed.lasts check_of_sealed happ⟩

/-- A request with a name is signed, and still verifies at the receiver when
another attribute follows the code. -/
theorem check_of_addTo_software :
    let key : IntegrityKey := ⟨[0x6B, 0x65, 0x79]⟩
    let m := Message.after [.add .username [0x75, 0x73, 0x65, 0x72, 0x31]]
      (.new ⟨⟨1⟩, .request⟩ .zero)
    ∃ m', key.addTo m = (.ok (), m') ∧ m'.length = 36 ∧
      ∃ m'', m'.add .software [0x78] = .ok m'' ∧ key.check m'' = .ok () ∧
        ∃ d, Message.decode m''.encode = .ok d ∧ key.check d = .ok () := by
  intro key m
  have hm : Reached none m :=
    .step (.add .username [0x75, 0x73, 0x65, 0x72, 0x31]) (.new ⟨⟨1⟩, .request⟩ .zero)
  obtain ⟨hiff, hall⟩ := check_of_addTo hm (by decide) (by decide) key
  obtain ⟨m', hput⟩ := hiff.mpr (by decide)
  obtain ⟨hlength, -, -, hkept⟩ := hall m' hput
  have hfits : m'.length + (attributeHeaderSize + padded 1) ≤ lengthLimit := by
    rw [hlength]
    decide
  have hmore := add_eq_ok_iff (t := .software) (v := [0x78]).mpr ⟨hfits, rfl⟩
  exact ⟨m', hput, hlength, _, hmore, hkept _ (.add .refl hmore)⟩

end IntegrityKey

end Stun
