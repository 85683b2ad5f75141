/-
Stun/Octets.lean

Octet strings, as lists of 8-bit words: the alphabet of everything that
travels on the wire.

A number is written on a chosen count of octets, most significant first
(`bigEndian`), and read back from any string (`toNat`).  The two are inverse
up to the width: of a number that needs more octets the lowest ones are kept.

Cutting is checked.  `take?` and `slice?` answer `none` where the string is
too short, so a cut that is out of range is a value one can reason about and
never a shorter string (`take?_eq_some_iff`, `slice?_eq_some_iff`).
-/

namespace Stun.Octets

/-! ### Numbers, most significant octet first -/

/-- The lowest `width` octets of `n`, most significant first. -/
def bigEndian : (width n : Nat) → List UInt8
  | 0, _ => []
  | w + 1, n => bigEndian w (n / 256) ++ [UInt8.ofNat n]

/-- The number an octet string stands for, most significant octet first. -/
def toNat (bs : List UInt8) : Nat :=
  bs.foldl (fun n b => n * 256 + b.toNat) 0

@[simp] theorem length_bigEndian (w n : Nat) : (bigEndian w n).length = w := by
  induction w generalizing n with
  | zero => rfl
  | succ w ih => simp [bigEndian, ih]

/-! ### Checked cuts -/

/-- The first `n` octets and the rest, if there are as many.  The front is
measured, not the whole string, so that reading a long string piece by piece
stays linear. -/
def take? (n : Nat) (bs : List UInt8) : Option (List UInt8 × List UInt8) :=
  let front := bs.take n
  if front.length = n then some (front, bs.drop n) else none

theorem take?_eq_some_iff {n : Nat} {bs front rest : List UInt8} :
    take? n bs = some (front, rest) ↔ bs = front ++ rest ∧ front.length = n := by
  simp only [take?, Option.ite_none_right_eq_some, Option.some.injEq, Prod.mk.injEq]
  constructor
  · rintro ⟨h, rfl, rfl⟩
    exact ⟨(List.take_append_drop n bs).symm, h⟩
  · rintro ⟨rfl, rfl⟩
    simp

theorem take?_eq_none_iff {n : Nat} {bs : List UInt8} : take? n bs = none ↔ bs.length < n := by
  simp only [take?, List.length_take]
  split <;> simp <;> omega

/-- The octets from `start` up to `stop`, exclusive, if the string reaches that far. -/
def slice? (bs : List UInt8) (start stop : Nat) : Option (List UInt8) :=
  let front := bs.take stop
  if start ≤ stop ∧ front.length = stop then some (front.drop start) else none

theorem slice?_eq_some_iff {bs cut : List UInt8} {start stop : Nat} :
    slice? bs start stop = some cut ↔
      start ≤ stop ∧ stop ≤ bs.length ∧ cut = (bs.take stop).drop start := by
  simp only [slice?, List.length_take, Option.ite_none_right_eq_some, Option.some.injEq]
  constructor
  · rintro ⟨⟨h, hl⟩, rfl⟩
    exact ⟨h, by omega, rfl⟩
  · rintro ⟨h, hl, rfl⟩
    exact ⟨⟨h, by omega⟩, rfl⟩

/-- A front of the right size is cut off, whatever follows it. -/
theorem take?_append {n : Nat} {front : List UInt8} (h : front.length = n) (rest : List UInt8) :
    take? n (front ++ rest) = some (front, rest) :=
  take?_eq_some_iff.mpr ⟨rfl, h⟩

/-- A piece is cut out where the octets before it say it lies. -/
theorem slice?_append {before cut : List UInt8} {start stop : Nat} (hs : before.length = start)
    (ht : start + cut.length = stop) (after : List UInt8) :
    slice? (before ++ (cut ++ after)) start stop = some cut := by
  subst hs ht
  refine slice?_eq_some_iff.mpr ⟨Nat.le_add_right _ _, ?_, ?_⟩
  · simp only [List.length_append]
    omega
  · rw [List.take_append, List.drop_append]
    simp

/-- The first piece is cut out from the beginning. -/
theorem slice?_front {cut : List UInt8} {stop : Nat} (h : cut.length = stop)
    (after : List UInt8) : slice? (cut ++ after) 0 stop = some cut :=
  slice?_append (List.length_nil (α := UInt8)) (by omega) after

/-- The last piece is cut out up to the end. -/
theorem slice?_back {before cut : List UInt8} {start stop : Nat} (hs : before.length = start)
    (ht : start + cut.length = stop) : slice? (before ++ cut) start stop = some cut := by
  have := slice?_append hs ht []
  rwa [List.append_nil] at this

/-! ### Text of octets -/

/-- Two lowercase hexadecimal digits for each octet. -/
def hex (bs : List UInt8) : String :=
  String.ofList (bs.flatMap fun b => [Nat.digitChar (b.toNat / 16), Nat.digitChar (b.toNat % 16)])

/-- The digits of `n` in base sixteen, uppercase, filled with zeros to `width`. -/
def upperHex (width n : Nat) : String :=
  let digits := (Nat.toDigits 16 n).map Char.toUpper
  String.ofList (List.replicate (width - digits.length) '0' ++ digits)

/-- The text an octet string encodes in UTF-8, if it is well-formed. -/
def text? (bs : List UInt8) : Option String := String.fromUTF8? ⟨bs.toArray⟩

/-- The UTF-8 octets of a text. -/
def ofText (s : String) : List UInt8 := s.toUTF8.data.toList

end Stun.Octets
