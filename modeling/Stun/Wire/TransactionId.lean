/-
Stun/Wire/TransactionId.lean

The twelve octets that tie a response to its request.  Ids are ordered octet
by octet, the order in which simultaneous outcomes are reported.
-/
import Stun.Octets

namespace Stun

/-- An identifier of twelve octets. -/
structure TransactionId where
  octets : List UInt8
  length_octets : octets.length = 12
deriving DecidableEq

namespace TransactionId

/-- How many octets an id has. -/
def size : Nat := 12

/-- The id of these octets, if there are twelve. -/
def ofOctets? (bs : List UInt8) : Option TransactionId :=
  if h : bs.length = 12 then some ⟨bs, h⟩ else none

theorem ofOctets?_eq_some_iff {bs : List UInt8} {id : TransactionId} :
    ofOctets? bs = some id ↔ bs = id.octets := by
  simp only [ofOctets?]
  constructor
  · intro h
    split at h
    · obtain rfl := Option.some.inj h
      rfl
    · simp at h
  · rintro rfl
    simp [id.length_octets]

/-- The id of twelve zeros. -/
def zero : TransactionId := ⟨List.replicate 12 0, rfl⟩

instance : Inhabited TransactionId := ⟨zero⟩

/-- The first octet in which two ids differ decides their order. -/
def le (a b : TransactionId) : Bool := decide (a.octets ≤ b.octets)

/-- An id is shown as twenty-four lowercase hexadecimal digits. -/
def text (id : TransactionId) : String := Octets.hex id.octets

/-! ### Fresh ids -/

/-- `n` octets drawn from a source of random numbers. -/
def drawOctets {γ : Type} [RandomGen γ] : (n : Nat) → γ → List UInt8 × γ
  | 0, g => ([], g)
  | n + 1, g =>
    let (k, g) := randNat g 0 255
    let (bs, g) := drawOctets n g
    (UInt8.ofNat k :: bs, g)

theorem length_drawOctets {γ : Type} [RandomGen γ] (n : Nat) (g : γ) :
    (drawOctets n g).1.length = n := by
  induction n generalizing g with
  | zero => rfl
  | succ n ih => simp [drawOctets, ih]

/-- An id drawn from a source of random numbers. -/
def draw {γ : Type} [RandomGen γ] (g : γ) : TransactionId × γ :=
  (⟨(drawOctets 12 g).1, length_drawOctets 12 g⟩, (drawOctets 12 g).2)

end TransactionId

end Stun
