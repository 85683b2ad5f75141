/-
Stun/Value/ErrorCode.lean

The code and reason of a refused request.  A code travels as a hundreds digit
and a remainder, each on one octet, so what comes back is the code modulo
25600; every registered code is far below.
-/
import Stun.Wire.Frame

namespace Stun

/-! ### Codes -/

/-- The number of an error, such as 401. -/
structure ErrorCode where
  code : UInt16
deriving DecidableEq, Repr

namespace ErrorCode

/-- The hundreds of a code, on one octet. -/
def hundreds (c : ErrorCode) : UInt8 := UInt8.ofNat (c.code.toNat / 100)

/-- What a code has beyond its hundreds. -/
def remainder (c : ErrorCode) : UInt8 := UInt8.ofNat (c.code.toNat % 100)

/-- The code of a hundreds digit and a remainder. -/
def join (hundreds remainder : Nat) : ErrorCode := ⟨UInt16.ofNat (hundreds * 100 + remainder)⟩

/-- The registered codes with their reasons. -/
def registry : List (UInt16 × String) :=
  [(300, "Try Alternate"), (400, "Bad Request"), (401, "Unauthorized"), (403, "Forbidden"),
   (420, "Unknown Attribute"), (437, "Allocation Mismatch"), (438, "Stale Nonce"),
   (440, "Address Family not Supported"), (441, "Wrong Credentials"),
   (442, "Unsupported Transport Protocol"), (486, "Allocation Quota Reached"),
   (487, "Role Conflict"), (500, "Server Error"), (508, "Insufficient Capacity")]

/-- The registered reason of a code. -/
def reason? (c : ErrorCode) : Option String := registry.lookup c.code

/-- A code is shown as a decimal number. -/
def text (c : ErrorCode) : String := toString c.code.toNat

end ErrorCode

/-! ### Replies -/

/-- A code with a reason for people. -/
structure ErrorReply where
  code : ErrorCode
  reason : String
deriving DecidableEq, Repr

namespace ErrorReply

/-- The reply with the registered reason, or with none. -/
def ofCode (c : ErrorCode) : ErrorReply := ⟨c, c.reason?.getD ""⟩

/-- The greatest size of a reason in UTF-8. -/
def reasonLimit : Nat := 763

/-- Code and reason in one line. -/
def text (r : ErrorReply) : String := r.code.text ++ ": " ++ r.reason

/-- The value of the attribute: two reserved octets, the code, the reason. -/
def octets (r : ErrorReply) : List UInt8 :=
  0 :: 0 :: r.code.hundreds :: r.code.remainder :: Octets.ofText r.reason

/-- The reply of a value. -/
def read (v : List UInt8) : Except Error ErrorReply :=
  if v.length < 4 then
    .error .truncated
  else
    match Message.field v 2 3, Message.field v 3 4, Octets.slice? v 4 v.length with
    | some hundreds, some remainder, some reason =>
      match Octets.text? reason with
      | some reason => .ok ⟨.join hundreds remainder, reason⟩
      | none => .error (.badText .errorCode)
    | _, _, _ => .error .inconsistent

/-- Appends the reply, unless its reason is too long. -/
def addTo (r : ErrorReply) : Edit := fun m =>
  let size := 4 + r.reason.utf8ByteSize
  let limit := 4 + reasonLimit
  if limit < size then
    (.error (.sizeOverflow .errorCode size limit), m)
  else
    Edit.add .errorCode r.octets m

/-- The reply in a message. -/
def getFrom (m : Message) : Except Error ErrorReply := (m.get .errorCode).bind read

end ErrorReply

end Stun
