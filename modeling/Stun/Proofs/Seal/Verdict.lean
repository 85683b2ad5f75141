/-
Stun/Proofs/Seal/Verdict.lean

The verdict on an authentication code hangs on what the code covers.

What is hashed is given by the place of the code and the octets before it
(`covered_eq_coveredAt`), so the declared length, the attributes behind the
code, their sizes and their padding drop out of the verdict.  A code of another
size than a digest is refused, and there the length that is hashed does not
matter (`check_eq_of_firstAt`).

Main result: two datagrams with the first code in one place, which agree on what
a code there covers and on the code, get one verdict, and it is favourable
exactly if the code is the keyed digest of what it covers (`check_eq_of_agree`).
-/
import Stun.Proofs.Seal.Integrity

namespace Stun

/-- Strings that agree in all places of a cut have the same cut. -/
theorem Octets.slice_congr {bs bs' : List UInt8} {start stop : Nat}
    (h : ∀ i, start ≤ i → i < stop → bs[i]? = bs'[i]?) :
    (bs.take stop).drop start = (bs'.take stop).drop start := by
  refine List.ext_getElem? fun i => ?_
  rw [List.getElem?_drop, List.getElem?_drop, List.getElem?_take, List.getElem?_take]
  by_cases hi : start + i < stop
  · rw [if_pos hi, if_pos hi, h _ (Nat.le_add_right _ _) hi]
  · rw [if_neg hi, if_neg hi]

/-- So a piece that is cut out of both is one piece. -/
theorem Octets.slice?_inj {bs bs' cut cut' : List UInt8} {start stop : Nat}
    (hcut : slice? bs start stop = some cut) (hcut' : slice? bs' start stop = some cut')
    (h : ∀ i, start ≤ i → i < stop → i < bs.length → i < bs'.length → bs[i]? = bs'[i]?) :
    cut = cut' := by
  obtain ⟨-, hlong, rfl⟩ := slice?_eq_some_iff.mp hcut
  obtain ⟨-, hlong', rfl⟩ := slice?_eq_some_iff.mp hcut'
  exact slice_congr fun i hi hi' => h i hi hi' (by omega) (by omega)

namespace Message

variable {m : Message} {word : UInt16} {received appended : List Segment}
variable {t : AttributeType} {offset : Nat} {v : List UInt8}

/-- The first attribute of a type lies where it is said to begin, under the
length of its value. -/
theorem FirstAt.lies (h : m.FirstAt t offset v) (hl : m.Layout word received appended) :
    v.length < 256 ^ 2 ∧
    Octets.slice? m.raw (offset + 2) (offset + 4) = some (Octets.bigEndian 2 v.length) ∧
    Octets.slice? m.raw (offset + 4) (offset + 4 + v.length) = some v := by
  obtain ⟨before, a, after, hm, -, -, rfl, rfl⟩ := h
  have ha : m.attributes[before.length]? = some a := by simp [hm]
  obtain ⟨s, hs, hcase⟩ := hl.exists_segment ha
  have hlies := hl.liesAt hs (hcase.imp And.right fun hc => hc.2.1)
  rw [hm, List.take_left] at hlies
  have hdeclared : a.length.toNat = a.value.length := hl.toNat_length (by simp [hm])
  have hlength := hlies.length
  rw [hdeclared] at hlength
  refine ⟨?_, hlength, hlies.value⟩
  rw [← hdeclared]
  exact a.length.toNat_lt

end Message

namespace IntegrityKey

open Segment Message

variable {key : IntegrityKey} {m m' : Message} {word : UInt16} {received appended : List Segment}
variable {bs bs' v v' : List UInt8} {offset : Nat}

/-! ### The verdict -/

/-- No digest has another size, whatever is hashed. -/
theorem code_ne (h : v.length ≠ codeSize) (bs : List UInt8) : key.code bs ≠ v := by
  rintro rfl
  exact h (key.length_code bs)

/-- **What the verifier says**, of a message whose first code is known. -/
theorem check_eq_of_firstAt (h : m.Layout word received appended)
    (hfirst : m.FirstAt .messageIntegrity offset v) (key : IntegrityKey) :
    key.check m
      = if key.code (coveredAt codeSize m.raw offset) = v then .ok ()
        else .error .integrityMismatch := by
  obtain ⟨after, hoffset⟩ := hfirst.exists_offset?
  by_cases hsize : v.length = codeSize
  · obtain ⟨hle, hcovered⟩ := covered_eq_coveredAt h hoffset hfirst.get_eq hsize
    simp only [check, hoffset, Nat.not_lt.mpr hle, if_false, hfirst.get_eq, hcovered]
  · obtain ⟨front, back, _, hsplit, rfl, -, hlength⟩ := h.exists_of_offset hoffset
    have hle : ¬ m.length < wireSize after := by omega
    simp only [check, hoffset, hle, if_false, hfirst.get_eq, covered_eq h hsplit,
      code_ne hsize]

/-! ### Datagrams that agree -/

/-- Two strings agree up to `stop` but for the length field, as far as both extend. -/
def AgreeUpTo (stop : Nat) (bs bs' : List UInt8) : Prop :=
  ∀ i, i < 2 ∨ 4 ≤ i ∧ i < stop → i < bs.length → i < bs'.length → bs[i]? = bs'[i]?

/-- What is covered does not depend on the length field, nor on what follows. -/
theorem coveredAt_congr {size stop : Nat} (h : AgreeUpTo stop bs bs') (hstop : offset ≤ stop)
    (htwo : 2 ≤ offset) (hlong : offset ≤ bs.length) (hlong' : offset ≤ bs'.length) :
    coveredAt size bs offset = coveredAt size bs' offset := by
  have hword : (bs.take 2).drop 0 = (bs'.take 2).drop 0 :=
    Octets.slice_congr fun i _ hi => h i (.inl hi) (by omega) (by omega)
  have hbody : (bs.take offset).drop 4 = (bs'.take offset).drop 4 :=
    Octets.slice_congr fun i hi hi' => h i (.inr ⟨hi, by omega⟩) (by omega) (by omega)
  rw [List.drop_zero, List.drop_zero] at hword
  rw [coveredAt, coveredAt, hword, hbody]

/-- The first codes of datagrams that agree have one size, and are one code if
that is the size of a digest. -/
theorem value_eq_of_agree {received' appended' : List Segment} {word' : UInt16}
    (hl : m.Layout word received appended) (hl' : m'.Layout word' received' appended')
    (hfirst : m.FirstAt .messageIntegrity offset v)
    (hfirst' : m'.FirstAt .messageIntegrity offset v')
    (hagree : AgreeUpTo (offset + attributeHeaderSize + codeSize) m.raw m'.raw) :
    v'.length = v.length ∧ (v.length = codeSize → v' = v) := by
  have hlow : 4 ≤ offset := Nat.le_trans (by decide) hfirst.headerSize_le
  obtain ⟨hfits, hlength, hvalue⟩ := hfirst.lies hl
  obtain ⟨hfits', hlength', hvalue'⟩ := hfirst'.lies hl'
  have hsize : v'.length = v.length := by
    have hfield := Octets.slice?_inj hlength' hlength fun i hi hi' h h' =>
      (hagree i (.inr ⟨by omega, by rw [attributeHeaderSize, codeSize]; omega⟩) h' h).symm
    have hnumber := congrArg Octets.toNat hfield
    rwa [Octets.toNat_bigEndian, Octets.toNat_bigEndian,
      Nat.mod_eq_of_lt hfits', Nat.mod_eq_of_lt hfits] at hnumber
  refine ⟨hsize, fun hcode => ?_⟩
  rw [hsize] at hvalue'
  exact Octets.slice?_inj hvalue' hvalue fun i hi hi' h h' =>
    (hagree i (.inr ⟨by omega, by rw [attributeHeaderSize]; omega⟩) h' h).symm

/-- **The verdict hangs on what the code covers.**  Take two datagrams that are
read as messages and have the first code in one place.  If they agree up to the
end of a code there, but for the length field and as far as both extend, every
key gives one verdict on both, whatever follows and however much; and the
verdict is favourable exactly if the code is the keyed digest of the octets
before it, under the length that ends with the code. -/
theorem check_eq_of_agree (hd : decode bs = .ok m) (hd' : decode bs' = .ok m')
    (hfirst : m.FirstAt .messageIntegrity offset v)
    (hfirst' : m'.FirstAt .messageIntegrity offset v') (hagree : AgreeUpTo (offset + 24) bs bs')
    (key : IntegrityKey) :
    key.check m = key.check m' ∧
    (key.check m = .ok () ↔ v = Hash.hmacSha1 key.octets
      (bs.take 2 ++ Octets.bigEndian 2 (offset + 24 - 20) ++ (bs.take offset).drop 4)) := by
  obtain ⟨word, received, rfl, -, hl⟩ := layout_of_decode hd
  obtain ⟨word', received', rfl, -, hl'⟩ := layout_of_decode hd'
  obtain ⟨hsize, hvalue⟩ := value_eq_of_agree hl hl' hfirst hfirst' hagree
  have hlong : offset ≤ m.raw.length := by
    have := (Octets.slice?_eq_some_iff.mp (hfirst.lies hl).2.1).2.1
    omega
  have hlong' : offset ≤ m'.raw.length := by
    have := (Octets.slice?_eq_some_iff.mp (hfirst'.lies hl').2.1).2.1
    omega
  have hcovered : coveredAt codeSize m.raw offset = coveredAt codeSize m'.raw offset :=
    coveredAt_congr hagree (Nat.le_add_right _ _)
      (Nat.le_trans (by decide) hfirst.headerSize_le) hlong hlong'
  have hverdict := check_eq_of_firstAt hl hfirst key
  constructor
  · rw [hverdict, check_eq_of_firstAt hl' hfirst' key, hcovered]
    by_cases hcode : v.length = codeSize
    · rw [hvalue hcode]
    · rw [if_neg (code_ne hcode _), if_neg (code_ne (hsize ▸ hcode) _)]
  · rw [hverdict]
    change _ ↔ v = key.code (coveredAt codeSize m.raw offset)
    by_cases hcode : key.code (coveredAt codeSize m.raw offset) = v
    · simp [hcode]
    · simp [hcode, Ne.symm hcode]

/-- Another code, which is no digest, and a name follow a code, and it verifies
as it does where it comes last. -/
theorem check_eq_of_agree_trailing :
    let key : IntegrityKey := ⟨[0x6B, 0x65, 0x79]⟩
    let code := [180, 137, 16, 211, 220, 47, 46, 95, 137, 221, 78, 20, 4, 87, 238, 103, 24, 59, 239,
      29]
    let signed := [.add .username [0x75, 0x73, 0x65, 0x72, 0x31], .add .messageIntegrity code]
    let m := Message.after signed (.new ⟨⟨1⟩, .request⟩ .zero)
    let m' := Message.after (signed ++ [.add .messageIntegrity [1], .add .software [0x78, 0x79]])
      (.new ⟨⟨1⟩, .request⟩ .zero)
    m.encode.length = 56 ∧ m'.encode.length = 72 ∧ AgreeUpTo (32 + 24) m.encode m'.encode ∧
      key.check m = .ok () ∧ key.check m' = .ok () := by
  intro key code signed m m'
  have hm : Reached none m :=
    .step (.add .messageIntegrity code) (.step (.add .username _) (.new _ _))
  have hm' : Reached none m' := .step (.add .software [0x78, 0x79])
    (.step (.add .messageIntegrity [1]) hm)
  obtain ⟨_, _, _, hl, -⟩ := hm.layout
  obtain ⟨_, _, _, hl', -⟩ := hm'.layout
  have hd : decode m.encode = .ok m := hl.decode_encode.trans (by decide +kernel)
  have hd' : decode m'.encode = .ok m' := hl'.decode_encode.trans (by decide +kernel)
  have hfirst : m.FirstAt .messageIntegrity 32 code :=
    ⟨[⟨.username, 5, [0x75, 0x73, 0x65, 0x72, 0x31]⟩], ⟨.messageIntegrity, 20, code⟩, [],
      by decide +kernel, by decide, rfl, rfl, rfl⟩
  have hfirst' : m'.FirstAt .messageIntegrity 32 code :=
    ⟨[⟨.username, 5, [0x75, 0x73, 0x65, 0x72, 0x31]⟩], ⟨.messageIntegrity, 20, code⟩,
      m'.attributes.drop 2, by decide +kernel, by decide, rfl, rfl, rfl⟩
  have hlength : m.encode.length = 56 ∧ m'.encode.length = 72 := by decide +kernel
  have hagree : AgreeUpTo (32 + 24) m.encode m'.encode := by
    have hall : ∀ i < 56, i < 2 ∨ 4 ≤ i → m.encode[i]? = m'.encode[i]? := by decide +kernel
    intro i hi hshort _
    exact hall i (hlength.1 ▸ hshort) (hi.imp_right And.left)
  obtain ⟨hsame, hverdict⟩ := check_eq_of_agree hd hd' hfirst hfirst' hagree key
  have hcheck : key.check m = .ok () := hverdict.mpr (by decide +kernel)
  exact ⟨hlength.1, hlength.2, hagree, hcheck, hsame ▸ hcheck⟩

end IntegrityKey

end Stun
