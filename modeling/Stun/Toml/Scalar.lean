/-
Stun/Toml/Scalar.lean

Numbers, booleans and dates.

An integer must fit 64 bits with a sign.  A float is read for its form only,
since no setting takes one; but one that is too large for double precision is
refused, and whether it is can be told exactly from its decimal digits and its
exponent (`overflows`).  An exponent grows digit by digit until it is full
(`exponentValue`); only a number with tens of thousands of digits can tell.
Dates and times are read for their form and their calendar.
-/
import Stun.Toml.Lexeme

namespace Stun.Toml

/-! ### Digits -/

/-- Digits after the first, each possibly behind one underscore. -/
def moreDigits (isDigit : Char → Bool) : (before : List Char) → List Char → List Char × List Char
  | before, '_' :: c :: r =>
    if isDigit c then moreDigits isDigit (c :: before) r else (before.reverse, '_' :: c :: r)
  | before, c :: r => if isDigit c then moreDigits isDigit (c :: before) r else (before.reverse, c :: r)
  | before, [] => (before.reverse, [])

/-- One or more digits. -/
def readDigits (isDigit : Char → Bool) : Reader (List Char)
  | c :: r => if isDigit c then some (moreDigits isDigit [c] r) else none
  | [] => none

/-- The number of a list of digits. -/
def digitsValue (base : Nat) (ds : List Char) : Nat :=
  ds.foldl (fun n c => n * base + (hexValue? c).getD 0) 0

/-- A sign, of which plus may be left out. -/
def readSign : List Char → Bool × List Char
  | '-' :: r => (true, r)
  | '+' :: r => (false, r)
  | cs => (false, cs)

/-- The digits of a decimal number, which has no zero in front. -/
def readDecimal : Reader (List Char)
  | '0' :: r => some (['0'], r)
  | cs => readDigits Char.isDigit cs

/-! ### Integers -/

/-- The number of some digits with a sign, if it fits 64 bits.  More digits
than bits, zeros in front apart, are too many in any base. -/
def fit? (base : Nat) (negative : Bool) (ds : List Char) : Option Int :=
  let ds := ds.dropWhile (· = '0')
  if 64 < ds.length then
    none
  else
    let n : Int := if negative then -(digitsValue base ds : Int) else digitsValue base ds
    if -9223372036854775808 ≤ n ∧ n ≤ 9223372036854775807 then some n else none

/-- An integer in a base other than ten, after its mark. -/
def readBased (base : Nat) (isDigit : Char → Bool) (cs : List Char) : Option (Int × List Char) := do
  let (ds, r) ← readDigits isDigit cs
  let n ← fit? base false ds
  pure (n, r)

/-- An integer. -/
def readInteger : Reader Int
  | '0' :: 'x' :: r => readBased 16 (fun c => (hexValue? c).isSome) r
  | '0' :: 'o' :: r => readBased 8 (fun c => '0' ≤ c && c ≤ '7') r
  | '0' :: 'b' :: r => readBased 2 (fun c => c == '0' || c == '1') r
  | cs => do
    let (negative, r) := readSign cs
    let (ds, r) ← readDecimal r
    let n ← fit? 10 negative ds
    pure (n, r)

/-! ### Floats -/

/-- The least number that rounds past the greatest in double precision. -/
def floatBound : Nat := (1 <<< 1024) - (1 <<< 970)

/-- The digits times ten to the power `e` are too large for double precision.
The place of the first digit settles all but the numbers with as many digits
before the point as the bound.  For these it is enough to compare the whole
part, since the bound is a whole number. -/
def overflows (ds : List Char) (e : Int) : Bool :=
  let ds := ds.dropWhile (· = '0')
  let place : Int := ds.length + e
  if ds.isEmpty ∨ place < 309 then false
  else if 309 < place then true
  else floatBound ≤ digitsValue 10 (ds.take 309 ++ List.replicate (309 - ds.length) '0')

/-- The value at which an exponent is full. -/
def fullExponent : Nat := 65536

/-- The size of an exponent.  Once it is full, the digits that follow it do not
count. -/
def exponentValue (ds : List Char) : Nat :=
  ds.foldl (fun n c => if n < fullExponent then n * 10 + (hexValue? c).getD 0 else n) 0

/-- An exponent, after its letter. -/
def readExponent (cs : List Char) : Option (Int × List Char) := do
  let (negative, r) := readSign cs
  let (ds, r) ← readDigits Char.isDigit r
  let n : Int := exponentValue ds
  pure (if negative then -n else n, r)

/-- An exponent with its letter, or none. -/
def readExponent? : List Char → Option (Int × List Char)
  | 'e' :: r => readExponent r
  | 'E' :: r => readExponent r
  | cs => some (0, cs)

/-- The words for what is no number and for infinity. -/
def readSpecialFloat (cs : List Char) : Option (List Char) :=
  match (readSign cs).2 with
  | 'i' :: 'n' :: 'f' :: r => some r
  | 'n' :: 'a' :: 'n' :: r => some r
  | _ => none

/-- A float with a point or an exponent.  Only what is not negative can be too
large. -/
def readFloat (cs : List Char) : Option (List Char) := do
  let (negative, r) := readSign cs
  let (whole, r) ← readDecimal r
  let (fraction, r') ← match r with
    | '.' :: r => readDigits Char.isDigit r
    | r => some ([], r)
  let (exponent, rest) ← readExponent? r'
  let isFloat := match r with
    | '.' :: _ => true
    | 'e' :: _ => true
    | 'E' :: _ => true
    | _ => false
  let large := overflows (whole ++ fraction) (exponent - fraction.length)
  if isFloat && (negative || !large) then pure rest else none

/-! ### Dates and times -/

/-- The number of exactly `n` digits. -/
def readFixed (n : Nat) (cs : List Char) : Option (Nat × List Char) :=
  let ds := cs.take n
  if ds.length = n ∧ ds.all Char.isDigit then some (digitsValue 10 ds, cs.drop n) else none

/-- The text after a character that must be there. -/
def expect (c : Char) : List Char → Option (List Char)
  | d :: r => if d = c then some r else none
  | [] => none

/-- How many days a month has. -/
def daysIn (year month : Nat) : Nat :=
  if month = 2 then
    if year % 4 = 0 ∧ (year % 100 ≠ 0 ∨ year % 400 = 0) then 29 else 28
  else if month = 4 ∨ month = 6 ∨ month = 9 ∨ month = 11 then 30
  else 31

/-- A date of the calendar. -/
def readDate (cs : List Char) : Option (List Char) := do
  let (year, r) ← readFixed 4 cs
  let r ← expect '-' r
  let (month, r) ← readFixed 2 r
  let r ← expect '-' r
  let (day, r) ← readFixed 2 r
  if 1 ≤ month ∧ month ≤ 12 ∧ 1 ≤ day ∧ day ≤ daysIn year month then pure r else none

/-- Hours and minutes. -/
def readHourMinute (cs : List Char) : Option (List Char) := do
  let (hour, r) ← readFixed 2 cs
  let r ← expect ':' r
  let (minute, r) ← readFixed 2 r
  if hour ≤ 23 ∧ minute ≤ 59 then pure r else none

/-- The text after a fraction of a second, if there is one. -/
def skipFraction : List Char → List Char
  | '.' :: c :: r => if c.isDigit then r.dropWhile Char.isDigit else '.' :: c :: r
  | cs => cs

/-- A time of the day; a minute may have a leap second. -/
def readTime (cs : List Char) : Option (List Char) := do
  let r ← readHourMinute cs
  let r ← expect ':' r
  let (second, r) ← readFixed 2 r
  if second ≤ 60 then pure (skipFraction r) else none

/-- The text after the distance from universal time, if it is told. -/
def skipOffset : List Char → List Char
  | 'Z' :: r => r
  | 'z' :: r => r
  | '+' :: r => (readHourMinute r).getD ('+' :: r)
  | '-' :: r => (readHourMinute r).getD ('-' :: r)
  | cs => cs

/-- A date, a time, or both, in which case the distance from universal time
may follow. -/
def readMoment (cs : List Char) : Option (List Char) :=
  match readDate cs with
  | some r =>
    match r with
    | c :: r' =>
      if c = 'T' ∨ c = 't' ∨ c = ' ' then
        match readTime r' with
        | some r'' => some (skipOffset r'')
        | none => some r
      else
        some r
    | [] => some []
  | none => readTime cs

/-! ### Booleans -/

/-- A boolean. -/
def readBoolean : Reader Bool
  | 't' :: 'r' :: 'u' :: 'e' :: r => some (true, r)
  | 'f' :: 'a' :: 'l' :: 's' :: 'e' :: r => some (false, r)
  | _ => none

end Stun.Toml
