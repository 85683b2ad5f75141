/-
Stun/Wire/MessageType.lean

A message is one of four classes of one method, and both share the first
header word:

    bit    13 12 11 10  9   8   7  6  5   4   3  2  1  0
          M11 .. .. .. M7  C1  M6 .. M4  C0  M3 .. .. M0

Packing is written in arithmetic on these groups, so that the two directions
can be compared by counting: `ofWord_toWord` says that packing loses only the
bits of the method above the twelfth, `toWord_ofWord` that unpacking loses
only the two top bits of the word.
-/
import Stun.Octets

namespace Stun

/-! ### Methods and classes -/

/-- What a message is about.  Twelve bits travel; the others are never sent. -/
structure Method where
  code : UInt16
deriving DecidableEq, Repr

/-- The methods that have a name. -/
def Method.registry : List (UInt16 × String) :=
  [(0x001, "Binding"), (0x003, "Allocate"), (0x004, "Refresh"), (0x006, "Send"), (0x007, "Data"),
   (0x008, "CreatePermission"), (0x009, "ChannelBind"), (0x00A, "Connect"),
   (0x00B, "ConnectionBind"), (0x00C, "ConnectionAttempt")]

/-- A method is shown by its name, and without one in hexadecimal. -/
def Method.text (m : Method) : String :=
  (registry.lookup m.code).getD ("0x" ++ Octets.upperHex 0 m.code.toNat)

/-- The part of a method that fits into a header. -/
def Method.low (m : Method) : Method := ⟨UInt16.ofNat (m.code.toNat % 4096)⟩

/-- The role of a message in an exchange. -/
inductive MessageClass where
  | request
  | indication
  | successResponse
  | errorResponse
deriving DecidableEq, Repr

namespace MessageClass

/-- The two class bits as a number. -/
def bits : MessageClass → Nat
  | request => 0
  | indication => 1
  | successResponse => 2
  | errorResponse => 3

/-- The class of two bits, of which only the lowest two count. -/
def ofBits (n : Nat) : MessageClass :=
  if n % 4 = 0 then request
  else if n % 4 = 1 then indication
  else if n % 4 = 2 then successResponse
  else errorResponse

/-- The class in words. -/
def text : MessageClass → String
  | request => "request"
  | indication => "indication"
  | successResponse => "success response"
  | errorResponse => "error response"

theorem bits_lt (c : MessageClass) : c.bits < 4 := by cases c <;> decide

@[simp] theorem ofBits_bits (c : MessageClass) : ofBits c.bits = c := by cases c <;> rfl

theorem bits_ofBits (n : Nat) : (ofBits n).bits = n % 4 := by
  unfold ofBits
  repeat' split
  all_goals simp only [bits]; omega

end MessageClass

/-! ### The packed word -/

/-- A method and a class. -/
structure MessageType where
  method : Method
  cls : MessageClass
deriving DecidableEq, Repr

namespace MessageType

/-- The first header word: the class bits lie between the groups of the method. -/
def toWord (t : MessageType) : UInt16 :=
  let m := t.method.code.toNat
  let c := t.cls.bits
  UInt16.ofNat
    (m % 16 + 16 * (c % 2) + 32 * (m / 16 % 8) + 256 * (c / 2) + 512 * (m / 128 % 32))

/-- The method and class of a header word, whose two top bits do not count. -/
def ofWord (w : UInt16) : MessageType :=
  let n := w.toNat
  { method := ⟨UInt16.ofNat (n % 16 + 16 * (n / 32 % 8) + 128 * (n / 512 % 32))⟩
    cls := .ofBits (n / 16 % 2 + 2 * (n / 256 % 2)) }

/-- Method and class in words. -/
def text (t : MessageType) : String := t.method.text ++ " " ++ t.cls.text

/-- The type without the method bits that do not travel. -/
def low (t : MessageType) : MessageType := { t with method := t.method.low }

/-- The groups of a packed word, read off the sum that packs them. -/
theorem groups_of_sum {a c₀ b c₁ d : Nat} (ha : a < 16) (h₀ : c₀ < 2) (hb : b < 8) (h₁ : c₁ < 2)
    (hd : d < 32) :
    let n := a + 16 * c₀ + 32 * b + 256 * c₁ + 512 * d
    n < 16384 ∧ n % 16 = a ∧ n / 16 % 2 = c₀ ∧ n / 32 % 8 = b ∧ n / 256 % 2 = c₁ ∧
      n / 512 % 32 = d := by
  refine ⟨?_, ?_, ?_, ?_, ?_, ?_⟩ <;> omega

/-- A number below `16384` is the sum of its groups. -/
theorem sum_of_groups (n : Nat) :
    n % 16384 = n % 16 + 16 * (n / 16 % 2) + 32 * (n / 32 % 8) + 256 * (n / 256 % 2) +
      512 * (n / 512 % 32) := by
  have h₁ : n % 16384 = n % 512 + 512 * (n / 512 % 32) := @Nat.mod_mul 512 32 n
  have h₂ : n % 512 = n % 256 + 256 * (n / 256 % 2) := @Nat.mod_mul 256 2 n
  have h₃ : n % 256 = n % 32 + 32 * (n / 32 % 8) := @Nat.mod_mul 32 8 n
  have h₄ : n % 32 = n % 16 + 16 * (n / 16 % 2) := @Nat.mod_mul 16 2 n
  rw [h₁, h₂, h₃, h₄]

/-- The groups of a method, read off the sum that makes it up. -/
theorem method_of_sum {a b d : Nat} (ha : a < 16) (hb : b < 8) (hd : d < 32) :
    let m := a + 16 * b + 128 * d
    m < 4096 ∧ m % 16 = a ∧ m / 16 % 8 = b ∧ m / 128 % 32 = d := by
  refine ⟨?_, ?_, ?_, ?_⟩ <;> omega

/-- The three groups of a method make up its low twelve bits. -/
theorem method_of_groups (m : Nat) :
    m % 16 + 16 * (m / 16 % 8) + 128 * (m / 128 % 32) = m % 4096 := by
  have h₁ : m % 4096 = m % 128 + 128 * (m / 128 % 32) := @Nat.mod_mul 128 32 m
  have h₂ : m % 128 = m % 16 + 16 * (m / 16 % 8) := @Nat.mod_mul 16 8 m
  rw [h₁, h₂]

theorem toNat_toWord (t : MessageType) :
    t.toWord.toNat = t.method.code.toNat % 16 + 16 * (t.cls.bits % 2) +
      32 * (t.method.code.toNat / 16 % 8) + 256 * (t.cls.bits / 2) +
      512 * (t.method.code.toNat / 128 % 32) := by
  have hc := t.cls.bits_lt
  have h := (groups_of_sum (Nat.mod_lt t.method.code.toNat (show 16 > 0 by decide))
    (Nat.mod_lt t.cls.bits (show 2 > 0 by decide))
    (Nat.mod_lt (t.method.code.toNat / 16) (show 8 > 0 by decide))
    (show t.cls.bits / 2 < 2 by omega)
    (Nat.mod_lt (t.method.code.toNat / 128) (show 32 > 0 by decide))).1
  rw [toWord, UInt16.toNat_ofNat', Nat.mod_eq_of_lt (Nat.lt_trans h (by decide))]

/-- What is packed comes back, less the bits of the method that do not travel. -/
theorem ofWord_toWord (t : MessageType) : ofWord t.toWord = t.low := by
  have hc := t.cls.bits_lt
  obtain ⟨-, ha, h₀, hb, h₁, hd⟩ :=
    groups_of_sum (Nat.mod_lt t.method.code.toNat (show 16 > 0 by decide))
      (Nat.mod_lt t.cls.bits (show 2 > 0 by decide))
      (Nat.mod_lt (t.method.code.toNat / 16) (show 8 > 0 by decide))
      (show t.cls.bits / 2 < 2 by omega)
      (Nat.mod_lt (t.method.code.toNat / 128) (show 32 > 0 by decide))
  simp only [ofWord, toNat_toWord, ha, h₀, hb, h₁, hd, low, Method.low, method_of_groups]
  congr 1
  rw [Nat.mod_add_div, MessageClass.ofBits_bits]

/-- What is unpacked packs again to the word without its two top bits. -/
theorem toWord_ofWord (w : UInt16) : (ofWord w).toWord.toNat = w.toNat % 16384 := by
  obtain ⟨hm, ha, hb, hd⟩ :=
    method_of_sum (Nat.mod_lt w.toNat (show 16 > 0 by decide))
      (Nat.mod_lt (w.toNat / 32) (show 8 > 0 by decide))
      (Nat.mod_lt (w.toNat / 512) (show 32 > 0 by decide))
  have h₀ : (w.toNat / 16 % 2 + 2 * (w.toNat / 256 % 2)) % 4 =
      w.toNat / 16 % 2 + 2 * (w.toNat / 256 % 2) := Nat.mod_eq_of_lt (by omega)
  rw [sum_of_groups, toNat_toWord]
  simp only [ofWord, UInt16.toNat_ofNat', MessageClass.bits_ofBits,
    Nat.mod_eq_of_lt (Nat.lt_trans hm (show 4096 < 2 ^ 16 by decide)), ha, hb, hd, h₀]
  congr 2
  · congr 2
    omega
  · omega

/-- A type is its travelling part exactly if its method fits into twelve bits. -/
theorem low_eq_self_iff {t : MessageType} : t.low = t ↔ t.method.code.toNat < 4096 := by
  obtain ⟨⟨n⟩, c⟩ := t
  have h : (UInt16.ofNat (n.toNat % 4096)).toNat = n.toNat % 4096 := by
    rw [UInt16.toNat_ofNat']
    omega
  simp only [low, Method.low, MessageType.mk.injEq, Method.mk.injEq, and_true,
    ← UInt16.toNat_inj, h]
  omega

/-- Unpacking gives types that travel whole. -/
theorem low_ofWord (w : UInt16) : (ofWord w).low = ofWord w := by
  have hm := (method_of_sum (Nat.mod_lt w.toNat (show 16 > 0 by decide))
    (Nat.mod_lt (w.toNat / 32) (show 8 > 0 by decide))
    (Nat.mod_lt (w.toNat / 512) (show 32 > 0 by decide))).1
  rw [low_eq_self_iff]
  simp only [ofWord, UInt16.toNat_ofNat']
  omega

end MessageType

end Stun
