/-
Stun/Proofs/Octets.lean

Numbers survive the wire.

Reading and writing both go by the lowest octet, which is the last one, so all
is by induction on a string from its end.  Main results: a number returns
reduced modulo `256 ^ width` (`toNat_bigEndian`), and a string returns as it
was (`bigEndian_toNat`).
-/
import Mathlib.Algebra.Order.Ring.Nat
import Mathlib.Data.List.Induction
import Stun.Octets

namespace Stun.Octets

theorem toNat_concat (bs : List UInt8) (b : UInt8) :
    toNat (bs ++ [b]) = toNat bs * 256 + b.toNat := by
  rw [toNat, List.foldl_append]
  rfl

/-- A string is one of as many numbers as it has octets for. -/
theorem toNat_lt (bs : List UInt8) : toNat bs < 256 ^ bs.length := by
  induction bs using List.reverseRecOn with
  | nil => exact Nat.one_pos
  | append_singleton bs b ih =>
    have hb : b.toNat < 256 := b.toNat_lt
    rw [toNat_concat, List.length_append, List.length_singleton, pow_succ]
    omega

/-- A number survives the wire up to the width it was written on. -/
@[simp] theorem toNat_bigEndian (w n : Nat) : toNat (bigEndian w n) = n % 256 ^ w := by
  induction w generalizing n with
  | zero => exact (Nat.mod_one n).symm
  | succ w ih =>
    have hlow : (UInt8.ofNat n).toNat = n % 256 := UInt8.toNat_ofNat'
    rw [bigEndian, toNat_concat, ih, hlow, pow_succ', Nat.mod_mul]
    omega

/-- An octet string is the writing of the number it stands for. -/
theorem bigEndian_toNat (bs : List UInt8) : bigEndian bs.length (toNat bs) = bs := by
  induction bs using List.reverseRecOn with
  | nil => rfl
  | append_singleton bs b ih =>
    have hb : b.toNat < 256 := b.toNat_lt
    have hrest : (toNat bs * 256 + b.toNat) / 256 = toNat bs := by omega
    have hlow : UInt8.ofNat (toNat bs * 256 + b.toNat) = b := by
      apply UInt8.toNat_inj.mp
      rw [UInt8.toNat_ofNat']
      omega
    rw [List.length_append, List.length_singleton, toNat_concat, bigEndian, hrest, hlow, ih]

/-- A word of sixteen bits survives the wire. -/
@[simp] theorem ofNat_toNat_bigEndian (w : UInt16) :
    UInt16.ofNat (toNat (bigEndian 2 w.toNat)) = w := by
  have hlt : w.toNat < 256 ^ 2 := w.toNat_lt
  rw [toNat_bigEndian, Nat.mod_eq_of_lt hlt, UInt16.ofNat_toNat]

/-- Two octets are the writing of the word they stand for. -/
theorem bigEndian_ofNat_toNat {bs : List UInt8} (h : bs.length = 2) :
    bigEndian 2 (UInt16.ofNat (toNat bs)).toNat = bs := by
  have hlt := toNat_lt bs
  rw [h] at hlt
  have hmod : toNat bs % 2 ^ 16 = toNat bs := Nat.mod_eq_of_lt hlt
  rw [UInt16.toNat_ofNat', hmod, ← h, bigEndian_toNat]

end Stun.Octets
