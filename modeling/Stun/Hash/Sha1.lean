/-
Stun/Hash/Sha1.lean

The SHA-1 digest: five words of state, eighty rounds for each block, words and
length written most significant octet first.
-/
import Stun.Hash.Block

namespace Stun.Hash

namespace Sha1

/-! ### State -/

/-- The five chaining words. -/
structure State where
  a : UInt32
  b : UInt32
  c : UInt32
  d : UInt32
  e : UInt32
deriving DecidableEq, Repr

/-- The chaining words before the first block. -/
def State.initial : State :=
  ⟨0x67452301, 0xEFCDAB89, 0x98BADCFE, 0x10325476, 0xC3D2E1F0⟩

/-- Word by word sum, modulo `2 ^ 32`. -/
def State.add (s t : State) : State :=
  ⟨s.a + t.a, s.b + t.b, s.c + t.c, s.d + t.d, s.e + t.e⟩

/-- The twenty octets of a state. -/
def State.octets (s : State) : List UInt8 :=
  [s.a, s.b, s.c, s.d, s.e].flatMap fun w => Octets.bigEndian 4 w.toNat

theorem State.length_octets (s : State) : s.octets.length = 20 := by
  simp [State.octets]

/-! ### Message schedule -/

/-- The next word of the schedule, from the words so far with the last one first. -/
def nextWord (latest : List UInt32) : UInt32 :=
  rotateLeft 1
    (latest.getD 2 0 ^^^ latest.getD 7 0 ^^^ latest.getD 13 0 ^^^ latest.getD 15 0)

/-- `n` more words in front of the words so far. -/
def extend : (n : Nat) → List UInt32 → List UInt32
  | 0, latest => latest
  | n + 1, latest => extend n (nextWord latest :: latest)

/-- The eighty words that the rounds of one block take, in order. -/
def schedule (block : List UInt8) : List UInt32 :=
  (extend 64 (words (fun w => UInt32.ofNat (Octets.toNat w)) block).reverse).reverse

/-! ### Rounds -/

/-- The round function and constant of round `t`. -/
def mix (t : Nat) (b c d : UInt32) : UInt32 :=
  if t < 20 then ((b &&& c) ||| (~~~b &&& d)) + 0x5A827999
  else if t < 40 then (b ^^^ c ^^^ d) + 0x6ED9EBA1
  else if t < 60 then ((b &&& c) ||| (b &&& d) ||| (c &&& d)) + 0x8F1BBCDC
  else (b ^^^ c ^^^ d) + 0xCA62C1D6

/-- Round `t`, which takes the word `w`. -/
def round (s : State) (t : Nat) (w : UInt32) : State :=
  ⟨rotateLeft 5 s.a + mix t s.b s.c s.d + s.e + w, s.a, rotateLeft 30 s.b, s.c, s.d⟩

/-- The state after one more block. -/
def compress (s : State) (block : List UInt8) : State :=
  s.add <| (schedule block).zipIdx.foldl (fun s (w, t) => round s t w) s

/-- The state after all blocks of the padded message. -/
def run (message : List UInt8) : State :=
  (blocks (pad (Octets.bigEndian 8) message)).foldl compress State.initial

end Sha1

/-- The SHA-1 digest, twenty octets. -/
def sha1 (message : List UInt8) : List UInt8 := (Sha1.run message).octets

@[simp] theorem length_sha1 (message : List UInt8) : (sha1 message).length = 20 :=
  Sha1.State.length_octets _

end Stun.Hash
