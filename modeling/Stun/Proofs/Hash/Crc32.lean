/-
Stun/Proofs/Hash/Crc32.lean

The redundancy check sees every short burst of damage.

One bit of division is linear in exclusive or (`shift_xor`) and has no kernel,
since the polynomial has its highest bit (`shift_injective`).  So a register is
never lost: strings that end alike leave one register only if they had one
before that end (`feed_injective`).

Up to four octets fit into the register.  What they do to it is what their
number, the first octet lowest, does at once (`feed_eq_iterate`), because octets
that come later would only have moved down on their way through
(`iterate_shift_of_mul`).  Different octets have different numbers, so they leave
different registers.

Main result: strings of one length that differ, and only within four octets in
a row, have different check values (`checksum_ne_of_burst`).
-/
import Mathlib.Data.Nat.Bitwise
import Mathlib.Logic.Function.Iterate
import Stun.Hash.Crc32
import Stun.Proofs.Octets

namespace Stun.Hash.Crc32

/-! ### One bit -/

/-- The lowest bit says whether a register is odd. -/
theorem and_one_eq_one_iff (r : UInt32) : r &&& 1 = 1 ↔ r.toNat % 2 = 1 := by
  rw [← UInt32.toNat_inj, UInt32.toNat_and, ← Nat.and_one_is_mod]
  rfl

theorem shift_of_even {r : UInt32} (h : r.toNat % 2 = 0) : shift r = r >>> 1 := by
  rw [shift, if_neg (by rw [and_one_eq_one_iff]; omega)]

theorem shift_of_odd {r : UInt32} (h : r.toNat % 2 = 1) : shift r = (r >>> 1) ^^^ 0xEDB88320 := by
  rw [shift, if_pos ((and_one_eq_one_iff r).mpr h)]

theorem toNat_shiftRight_one (r : UInt32) : (r >>> 1).toNat = r.toNat / 2 := by
  rw [UInt32.toNat_shiftRight, ← Nat.shiftRight_one]
  rfl

/-- **Division is linear.** -/
theorem shift_xor (a b : UInt32) : shift (a ^^^ b) = shift a ^^^ shift b := by
  have hodd : (a ^^^ b).toNat % 2 = (a.toNat + b.toNat) % 2 := by
    rw [UInt32.toNat_xor, Nat.xor_mod_two_eq]
  -- the polynomial is subtracted where a one falls out
  rcases Nat.mod_two_eq_zero_or_one a.toNat with ha | ha <;>
    rcases Nat.mod_two_eq_zero_or_one b.toNat with hb | hb
  · rw [shift_of_even (by omega), shift_of_even ha, shift_of_even hb, UInt32.shiftRight_xor]
  · rw [shift_of_odd (by omega), shift_of_even ha, shift_of_odd hb, UInt32.shiftRight_xor,
      UInt32.xor_assoc]
  · rw [shift_of_odd (by omega), shift_of_odd ha, shift_of_even hb, UInt32.shiftRight_xor]
    ac_rfl
  · have hcancel (x y p : UInt32) : (x ^^^ p) ^^^ (y ^^^ p) = (x ^^^ y) ^^^ (p ^^^ p) := by
      ac_rfl
    rw [shift_of_even (by omega), shift_of_odd ha, shift_of_odd hb, UInt32.shiftRight_xor,
      hcancel, UInt32.xor_self, UInt32.xor_zero]

/-- Only nothing is divided down to nothing: the polynomial is too great to be
what is left of a register. -/
theorem eq_zero_of_shift {r : UInt32} (h : shift r = 0) : r = 0 := by
  have hlt : r.toNat < 2 ^ 32 := r.toNat_lt
  apply UInt32.toNat_inj.mp
  rcases Nat.mod_two_eq_zero_or_one r.toNat with hr | hr
  · rw [shift_of_even hr] at h
    have hhalf : r.toNat / 2 = 0 := by rw [← toNat_shiftRight_one, h]; rfl
    show r.toNat = 0
    omega
  · rw [shift_of_odd hr, UInt32.xor_eq_zero_iff] at h
    have hhalf : r.toNat / 2 = 0xEDB88320 := by rw [← toNat_shiftRight_one, h]; rfl
    omega

/-- **No register is lost.** -/
theorem shift_injective : Function.Injective shift := by
  intro a b h
  have hxor : shift (a ^^^ b) = 0 := by rw [shift_xor, h, UInt32.xor_self]
  exact UInt32.xor_eq_zero_iff.mp (eq_zero_of_shift hxor)

/-! ### Many bits -/

theorem iterate_shift_xor (n : Nat) (a b : UInt32) :
    shift^[n] (a ^^^ b) = shift^[n] a ^^^ shift^[n] b := by
  induction n generalizing a b with
  | zero => rfl
  | succ n ih => rw [Function.iterate_succ_apply, shift_xor, ih]; rfl

/-- A number above `n` empty bits only moves down through `n` of them. -/
theorem iterate_shift_of_mul {n k : Nat} {r : UInt32} (h : r.toNat = k * 2 ^ n) :
    (shift^[n] r).toNat = k := by
  induction n generalizing r with
  | zero => rw [Function.iterate_zero_apply, h, pow_zero, Nat.mul_one]
  | succ n ih =>
    rw [pow_succ, ← Nat.mul_assoc] at h
    have heven : r.toNat % 2 = 0 := by omega
    have hhalf : (shift r).toNat = k * 2 ^ n := by
      rw [shift_of_even heven, toNat_shiftRight_one]
      omega
    rw [Function.iterate_succ_apply, ih hhalf]

/-- The register after an octet is eight bits on. -/
theorem step_eq_iterate (r : UInt32) (b : UInt8) : step r b = shift^[8] (r ^^^ b.toUInt32) := rfl

/-- **Strings that end alike leave one register only if they had one before.** -/
theorem feed_injective (bs : List UInt8) : Function.Injective (feed · bs) := by
  induction bs with
  | nil => exact fun r r' h => h
  | cons b bs ih =>
    intro r r' h
    have hstep : step r b = step r' b := ih h
    exact (UInt32.xor_left_inj b.toUInt32).mp (shift_injective.iterate 8 hstep)

/-! ### Four octets -/

/-- The number of some octets, the first one lowest. -/
def number (bs : List UInt8) : Nat := Octets.toNat bs.reverse

theorem number_cons (b : UInt8) (bs : List UInt8) :
    number (b :: bs) = number bs * 256 + b.toNat := by
  rw [number, List.reverse_cons, Octets.toNat_concat, number]

theorem number_lt {bs : List UInt8} {k : Nat} (h : bs.length ≤ k) : number bs < 256 ^ k := by
  have hlt := Octets.toNat_lt bs.reverse
  rw [List.length_reverse] at hlt
  exact Nat.lt_of_lt_of_le hlt (Nat.pow_le_pow_right (by decide) h)

/-- Octets of one length are told apart by their numbers. -/
theorem eq_of_number_eq {bs bs' : List UInt8} (hlength : bs.length = bs'.length)
    (h : number bs = number bs') : bs = bs' := by
  have hback := Octets.bigEndian_toNat bs.reverse
  rw [← number, h, number, List.length_reverse, hlength, ← List.length_reverse,
    Octets.bigEndian_toNat] at hback
  exact List.reverse_inj.mp hback.symm

/-- An octet below a number does not touch it. -/
theorem mul_add_eq_xor (n : Nat) (b : UInt8) : n * 256 + b.toNat = b.toNat ^^^ n * 256 := by
  have hb : b.toNat < 2 ^ 8 := b.toNat_lt
  apply Nat.eq_of_testBit_eq
  intro j
  rw [show n * 256 = 2 ^ 8 * n by omega, Nat.testBit_two_pow_mul_add n hb, Nat.testBit_xor,
    Nat.testBit_two_pow_mul]
  by_cases hj : j < 8
  · have hhigh : ¬ 8 ≤ j := Nat.not_le.mpr hj
    simp [hj, hhigh]
  · have hhigh : 2 ^ 8 ≤ 2 ^ j := Nat.pow_le_pow_right (by decide) (Nat.not_lt.mp hj)
    have hlow : b.toNat.testBit j = false :=
      Nat.testBit_lt_two_pow (Nat.lt_of_lt_of_le hb hhigh)
    simp [hj, hlow, Nat.not_lt.mp hj]

/-- **What up to four octets do to a register, their number does at once.** -/
theorem feed_eq_iterate (r : UInt32) {bs : List UInt8} (h : bs.length ≤ 4) :
    feed r bs = shift^[8 * bs.length] (r ^^^ UInt32.ofNat (number bs)) := by
  induction bs generalizing r with
  | nil => exact UInt32.xor_zero.symm
  | cons b bs ih =>
    rw [List.length_cons] at h
    have hn : number bs < 256 ^ 3 := number_lt (by omega)
    have hb : b.toNat < 2 ^ 8 := b.toNat_lt
    -- eight bits on, the later octets stand where they are fed in
    have hdown : shift^[8] (UInt32.ofNat (number bs * 256)) = UInt32.ofNat (number bs) := by
      have hword : (UInt32.ofNat (number bs * 256)).toNat = number bs * 2 ^ 8 := by
        exact Nat.mod_eq_of_lt (by omega)
      apply UInt32.toNat_inj.mp
      rw [iterate_shift_of_mul hword, UInt32.toNat_ofNat', Nat.mod_eq_of_lt (by omega)]
    have hsum : UInt32.ofNat (number (b :: bs))
        = b.toUInt32 ^^^ UInt32.ofNat (number bs * 256) := by
      apply UInt32.toNat_inj.mp
      rw [number_cons, UInt32.toNat_xor, UInt8.toNat_toUInt32, UInt32.toNat_ofNat',
        UInt32.toNat_ofNat', Nat.mod_eq_of_lt (by omega), Nat.mod_eq_of_lt (by omega),
        mul_add_eq_xor]
    have hcount : 8 * (b :: bs).length = 8 * bs.length + 8 := by
      rw [List.length_cons]
      omega
    calc feed r (b :: bs)
        = shift^[8 * bs.length] (step r b ^^^ UInt32.ofNat (number bs)) := by
          rw [feed_cons, ih _ (by omega)]
      _ = shift^[8 * bs.length]
            (shift^[8] (r ^^^ b.toUInt32 ^^^ UInt32.ofNat (number bs * 256))) := by
          rw [step_eq_iterate, ← hdown, ← iterate_shift_xor]
      _ = shift^[8 * (b :: bs).length] (r ^^^ UInt32.ofNat (number (b :: bs))) := by
          rw [hsum, ← UInt32.xor_assoc, hcount, Function.iterate_add_apply]

/-- **Up to four octets can be told from the register they leave.** -/
theorem eq_of_feed_eq {r : UInt32} {bs bs' : List UInt8} (hlength : bs.length = bs'.length)
    (h : bs.length ≤ 4) (hfeed : feed r bs = feed r bs') : bs = bs' := by
  rw [feed_eq_iterate r h, feed_eq_iterate r (hlength ▸ h), ← hlength] at hfeed
  have hword := (UInt32.xor_right_inj r).mp (shift_injective.iterate _ hfeed)
  have hnumber := congrArg UInt32.toNat hword
  have hlt : number bs < 2 ^ 32 := number_lt (k := 4) h
  have hlt' : number bs' < 2 ^ 32 := number_lt (k := 4) (hlength ▸ h)
  rw [UInt32.toNat_ofNat', UInt32.toNat_ofNat', Nat.mod_eq_of_lt hlt,
    Nat.mod_eq_of_lt hlt'] at hnumber
  exact eq_of_number_eq hlength hnumber

/-! ### Bursts -/

/-- Two strings tell the same but in the four octets from `start` on. -/
def AgreeOutside (start : Nat) (bs bs' : List UInt8) : Prop :=
  ∀ i, i < start ∨ start + 4 ≤ i → bs[i]? = bs'[i]?

/-- Strings that agree outside a burst have it between a common front and a
common back. -/
theorem AgreeOutside.exists_split {start : Nat} {bs bs' : List UInt8}
    (h : AgreeOutside start bs bs') (hlength : bs.length = bs'.length) :
    ∃ front burst burst' back, bs = front ++ (burst ++ back) ∧ bs' = front ++ (burst' ++ back) ∧
      burst.length = burst'.length ∧ burst.length ≤ 4 := by
  have hfront : bs'.take start = bs.take start := by
    apply List.ext_getElem?
    intro i
    rw [List.getElem?_take, List.getElem?_take]
    split
    · rename_i hi
      exact (h i (.inl hi)).symm
    · rfl
  have hback : (bs'.drop start).drop 4 = (bs.drop start).drop 4 := by
    apply List.ext_getElem?
    intro i
    rw [List.drop_drop, List.drop_drop, List.getElem?_drop, List.getElem?_drop]
    exact (h _ (.inr (by omega))).symm
  refine ⟨bs.take start, (bs.drop start).take 4, (bs'.drop start).take 4, (bs.drop start).drop 4,
    ?_, ?_, ?_, ?_⟩
  · rw [List.take_append_drop, List.take_append_drop]
  · rw [← hfront, ← hback, List.take_append_drop, List.take_append_drop]
  · simp only [List.length_take, List.length_drop, hlength]
  · rw [List.length_take]
    exact Nat.min_le_left _ _

/-- **A burst of up to four octets does not go unseen**: strings of one length
that differ there, and nowhere else, have different check values. -/
theorem checksum_ne_of_burst {start : Nat} {bs bs' : List UInt8}
    (h : AgreeOutside start bs bs') (hlength : bs.length = bs'.length) (hne : bs ≠ bs') :
    checksum bs ≠ checksum bs' := by
  obtain ⟨front, burst, burst', back, rfl, rfl, hsame, hshort⟩ := h.exists_split hlength
  intro hsum
  rw [checksum, checksum, UInt32.not_inj] at hsum
  simp only [feed_append] at hsum
  have hburst : burst = burst' := eq_of_feed_eq hsame hshort (feed_injective back hsum)
  exact hne (by rw [hburst])

end Stun.Hash.Crc32
