/-
Stun/Proofs/Seal/Burst.lean

A fingerprint finds every short burst of damage.

The verifier puts the length that the place of the fingerprint gives over the
declared one and checks the rest of what stands before it (`check_eq`).  So each
octet it looks at keeps its place (`getElem?_coveredAt`), and damage that lies
within four octets in a row of a datagram does so in what is checked
(`agreeOutside_covered`), where the redundancy check sees it.

Main result: of two datagrams that carry one fingerprint in one place, and
differ before it within four octets, at most one verifies (`burst_detected`).
-/
import Stun.Proofs.Hash.Crc32
import Stun.Proofs.Seal.Fingerprint

namespace Stun.Fingerprint

open Segment Message Hash.Crc32

variable {bs bs' v : List UInt8} {m : Message} {offset start : Nat}
variable {word : UInt16} {received appended : List Segment}

/-- **The value of a string tells a burst of up to four octets in it.** -/
theorem value_ne_of_burst (h : AgreeOutside start bs bs') (hlength : bs.length = bs'.length)
    (hne : bs ≠ bs') : value bs ≠ value bs' := fun hvalue =>
  checksum_ne_of_burst h hlength hne ((UInt32.xor_left_inj mask).mp hvalue)

/-! ### What is checked -/

/-- What a fingerprint at `offset` covers. -/
abbrev covered (bs : List UInt8) (offset : Nat) : List UInt8 := coveredAt size bs offset

/-- Damage before the fingerprint is damage in what is covered. -/
theorem agreeOutside_covered (hlong : 4 ≤ bs.length) (hlong' : 4 ≤ bs'.length)
    (hoffset : 2 ≤ offset)
    (h : ∀ i, i < offset → bs[i]? ≠ bs'[i]? → start ≤ i ∧ i < start + 4) :
    AgreeOutside start (covered bs offset) (covered bs' offset) := by
  have hsame : ∀ i, i < start ∨ start + 4 ≤ i → i < offset → bs[i]? = bs'[i]? := by
    intro i hi hbefore
    by_contra hne
    have := h i hbefore hne
    omega
  intro i hi
  rw [getElem?_coveredAt hlong, getElem?_coveredAt hlong']
  by_cases hword : i < 2
  · rw [if_pos hword, if_pos hword, hsame i hi (by omega)]
  by_cases hlength : i < 4
  · rw [if_neg hword, if_neg hword, if_pos hlength, if_pos hlength]
  by_cases hbefore : i < offset
  · rw [if_neg hword, if_neg hword, if_neg hlength, if_neg hlength, if_pos hbefore,
      if_pos hbefore, hsame i hi hbefore]
  · rw [if_neg hword, if_neg hword, if_neg hlength, if_neg hlength, if_neg hbefore, if_neg hbefore]

/-- Damage that is covered shows. -/
theorem covered_ne (hlong : 4 ≤ bs.length) (hlong' : 4 ≤ bs'.length) {i : Nat}
    (hi : i < 2 ∨ 4 ≤ i ∧ i < offset) (hne : bs[i]? ≠ bs'[i]?) :
    covered bs offset ≠ covered bs' offset := by
  intro heq
  have hplace := congrArg (·[i]?) heq
  simp only [getElem?_coveredAt hlong, getElem?_coveredAt hlong'] at hplace
  rcases hi with hi | ⟨hi, hbefore⟩
  · rw [if_pos hi, if_pos hi] at hplace
    exact hne hplace
  · have hword : ¬ i < 2 := by omega
    have hlength : ¬ i < 4 := by omega
    rw [if_neg hword, if_neg hword, if_neg hlength, if_neg hlength, if_pos hbefore,
      if_pos hbefore] at hplace
    exact hne hplace

theorem length_covered_congr (h : bs.length = bs'.length) (offset : Nat) :
    (covered bs offset).length = (covered bs' offset).length := by
  simp only [coveredAt, List.length_append, List.length_drop, List.length_take, h]

/-! ### The verdict -/

/-- **What the verifier says**, of a message whose first fingerprint is known. -/
theorem check_eq (hl : m.Layout word received appended) (h : m.FirstAt .fingerprint offset v) :
    check m = if v.length ≠ size then .error (.sizeMismatch .fingerprint v.length size)
      else if value (covered m.raw offset) = UInt32.ofNat (Octets.toNat v) then .ok ()
      else .error (.fingerprintMismatch (value (covered m.raw offset))
        (UInt32.ofNat (Octets.toNat v))) := by
  obtain ⟨after, hoffset⟩ := h.exists_offset?
  obtain ⟨front, back, -, hsplit, rfl, -, -⟩ := hl.exists_of_offset hoffset
  rw [check, hoffset]
  simp only [h.get_eq]
  split
  · rfl
  · rename_i hsize
    have hfield : Message.field v 0 4 = some (Octets.toNat v) := by
      have hread := field_front (Decidable.not_not.mp hsize) []
      rwa [List.append_nil] at hread
    simp only [hfield, expected_eq hl hsplit, hl.coveredAt_eq hsplit]

theorem check_eq_ok_iff (hl : m.Layout word received appended)
    (h : m.FirstAt .fingerprint offset v) :
    check m = .ok () ↔
      v.length = size ∧ value (covered m.raw offset) = UInt32.ofNat (Octets.toNat v) := by
  rw [check_eq hl h]
  by_cases hsize : v.length = size
  · by_cases hvalue : value (covered m.raw offset) = UInt32.ofNat (Octets.toNat v) <;>
      simp [hsize, hvalue]
  · simp [hsize]

/-- **A burst of up to four octets is found.**  The value of a string tells any
two apart that differ only within four octets in a row.  So of two datagrams of
one length, both read as messages, whose first fingerprints have one place and
one value, and which differ somewhere that is covered, but before the
fingerprint only within four octets in a row: if the one verifies, the other is
refused, for the value that its own octets have. -/
theorem burst_detected :
    (∀ (start : Nat) (bs bs' : List UInt8), bs.length = bs'.length → AgreeOutside start bs bs' →
      bs ≠ bs' → value bs ≠ value bs') ∧
    ∀ (bs bs' : List UInt8) (m m' : Message) (offset start : Nat) (v : List UInt8),
      bs.length = bs'.length → decode bs = .ok m → decode bs' = .ok m' →
      m.FirstAt .fingerprint offset v → m'.FirstAt .fingerprint offset v →
      (∃ i, (i < 2 ∨ 4 ≤ i ∧ i < offset) ∧ bs[i]? ≠ bs'[i]?) →
      (∀ i, i < offset → bs[i]? ≠ bs'[i]? → start ≤ i ∧ i < start + 4) →
      check m = .ok () →
      check m' = .error (.fingerprintMismatch (value (covered bs' offset))
        (UInt32.ofNat (Octets.toNat v))) := by
  refine ⟨fun start bs bs' hlength h hne => value_ne_of_burst h hlength hne, ?_⟩
  intro bs bs' m m' offset start v hlength hd hd' hfirst hfirst' hdamage hburst hcheck
  obtain ⟨_, _, hraw, -, hl⟩ := layout_of_decode hd
  obtain ⟨_, _, hraw', -, hl'⟩ := layout_of_decode hd'
  have hlong : 4 ≤ bs.length := by
    rw [← hraw, hl.length_raw, headerSize]
    omega
  have hoffset : 2 ≤ offset := Nat.le_trans (by decide) hfirst.headerSize_le
  -- the one verifies, so its value is the one that both carry
  obtain ⟨hsize, hvalue⟩ := (check_eq_ok_iff hl hfirst).mp hcheck
  rw [hraw] at hvalue
  obtain ⟨i, hi, hne⟩ := hdamage
  have hdiffers : value (covered bs offset) ≠ value (covered bs' offset) :=
    value_ne_of_burst (agreeOutside_covered hlong (hlength ▸ hlong) hoffset hburst)
      (length_covered_congr hlength offset) (covered_ne hlong (hlength ▸ hlong) hi hne)
  have hother : ¬ value (covered bs' offset) = UInt32.ofNat (Octets.toNat v) :=
    fun h => hdiffers (hvalue.trans h.symm)
  rw [check_eq hl' hfirst', hraw', if_neg (not_not.mpr hsize), if_neg hother]

/-- Two octets of a name are damaged on the way, and the fingerprint finds it. -/
theorem burst_detected_software :
    let m := Message.after
      [.add .software [0x72, 0x6F, 0x6F, 0x6D, 0x72, 0x74, 0x63], .put .fingerprint]
      (.new ⟨⟨1⟩, .request⟩ .zero)
    let m' := Message.after
      [.add .software [0x72, 0x90, 0x6F, 0x6D, 0x8D, 0x74, 0x63],
        .add .fingerprint [0xF0, 0x75, 0x97, 0x12]] (.new ⟨⟨1⟩, .request⟩ .zero)
    decode m.encode = .ok m ∧ decode m'.encode = .ok m' ∧ value m.encode ≠ value m'.encode ∧
      check m = .ok () ∧
      check m' = .error (.fingerprintMismatch (value (covered m'.encode 32)) 0xF0759712) := by
  intro m m'
  have hm : Reached none m := .step (.put .fingerprint)
    (.step (.add .software [0x72, 0x6F, 0x6F, 0x6D, 0x72, 0x74, 0x63]) (.new _ _))
  have hm' : Reached none m' := .step (.add .fingerprint [0xF0, 0x75, 0x97, 0x12])
    (.step (.add .software [0x72, 0x90, 0x6F, 0x6D, 0x8D, 0x74, 0x63]) (.new _ _))
  obtain ⟨_, _, _, hl, -⟩ := hm.layout
  obtain ⟨_, _, _, hl', -⟩ := hm'.layout
  have hd : decode m.encode = .ok m := hl.decode_encode.trans (by decide +kernel)
  have hd' : decode m'.encode = .ok m' := hl'.decode_encode.trans (by decide +kernel)
  have hfirst : m.FirstAt .fingerprint 32 [0xF0, 0x75, 0x97, 0x12] :=
    ⟨[⟨.software, 7, [0x72, 0x6F, 0x6F, 0x6D, 0x72, 0x74, 0x63]⟩],
      ⟨.fingerprint, 4, [0xF0, 0x75, 0x97, 0x12]⟩, [], by decide +kernel, by decide, rfl, rfl, rfl⟩
  have hfirst' : m'.FirstAt .fingerprint 32 [0xF0, 0x75, 0x97, 0x12] :=
    ⟨[⟨.software, 7, [0x72, 0x90, 0x6F, 0x6D, 0x8D, 0x74, 0x63]⟩],
      ⟨.fingerprint, 4, [0xF0, 0x75, 0x97, 0x12]⟩, [], by decide +kernel, by decide, rfl, rfl, rfl⟩
  have hagree : AgreeOutside 25 m.encode m'.encode := by
    intro i hi
    rcases Nat.lt_or_ge i 40 with hshort | hlong
    · have hall : ∀ i < 40, i < 25 ∨ 25 + 4 ≤ i → m.encode[i]? = m'.encode[i]? := by
        decide +kernel
      exact hall i hshort hi
    · have hlength : m.encode.length = 40 ∧ m'.encode.length = 40 := by decide +kernel
      rw [List.getElem?_eq_none (hlength.1 ▸ hlong), List.getElem?_eq_none (hlength.2 ▸ hlong)]
  have hburst : ∀ i < 32, m.encode[i]? ≠ m'.encode[i]? → 25 ≤ i ∧ i < 25 + 4 := by decide +kernel
  have hcheck : check m = .ok () := by decide +kernel
  have hlength : m.encode.length = m'.encode.length := by decide +kernel
  refine ⟨hd, hd', burst_detected.1 25 _ _ hlength hagree (by decide +kernel), hcheck, ?_⟩
  exact burst_detected.2 _ _ m m' 32 25 _ hlength hd hd' hfirst hfirst'
    ⟨25, by decide, by decide +kernel⟩ hburst hcheck

end Stun.Fingerprint
