/-
Stun/Toml/Lexeme.lean

The smallest pieces of a TOML document: blanks, ends of lines, comments,
strings and keys.

A reader takes a list of characters and answers what it read and the rest, or
`none`.  Strings are walked character by character in a mode that says where
in an escape the walk is, so every reader here recurses on the text itself.
-/

namespace Stun.Toml

/-- Reads something off the front of a text. -/
abbrev Reader (α : Type) := List Char → Option (α × List Char)

/-! ### Characters -/

/-- A blank within a line. -/
def isBlank (c : Char) : Bool := c == ' ' || c == '\t'

/-- Any character beyond ASCII. -/
def isForeign (c : Char) : Bool := 0x80 ≤ c.toNat

/-- What may stand as it is: all but the controls, of which only the tab may.
In strings their quotes and backslashes are apart. -/
def isPlainChar (c : Char) : Bool := c == '\t' || (0x20 ≤ c.toNat && c.toNat ≤ 0x7E) || isForeign c

/-- What a key without quotes may hold. -/
def isBareChar (c : Char) : Bool := c.isAlphanum || c == '-' || c == '_'

/-- The value of a hexadecimal digit. -/
def hexValue? (c : Char) : Option Nat :=
  if '0' ≤ c ∧ c ≤ '9' then some (c.toNat - 48)
  else if 'a' ≤ c ∧ c ≤ 'f' then some (c.toNat - 87)
  else if 'A' ≤ c ∧ c ≤ 'F' then some (c.toNat - 55)
  else none

/-! ### Blanks, comments, ends of lines -/

/-- The text after the blanks at its front. -/
def skipBlanks (cs : List Char) : List Char := cs.dropWhile isBlank

/-- The text after a comment at its front, if there is one. -/
def skipComment : List Char → List Char
  | '#' :: r => r.dropWhile isPlainChar
  | cs => cs

/-- The text after the end of a line at its front. -/
def endOfLine? : List Char → Option (List Char)
  | '\n' :: r => some r
  | '\r' :: '\n' :: r => some r
  | _ => none

/-- What may follow a key and its value, or a header, on the same line. -/
def restOfLine? (cs : List Char) : Option (List Char) :=
  match skipComment (skipBlanks cs) with
  | [] => some []
  | r => endOfLine? r

/-- Where a walk over blank lines stands. -/
inductive Gap where
  | between
  | comment

/-- The text after blanks, ends of lines and comments, as they may stand
between the items of an array. -/
def skipGaps : Gap → List Char → List Char
  | .between, '#' :: r => skipGaps .comment r
  | .between, '\r' :: '\n' :: r => skipGaps .between r
  | .between, c :: r => if isBlank c || c == '\n' then skipGaps .between r else c :: r
  | .comment, '\r' :: '\n' :: r => skipGaps .between r
  | .comment, '\n' :: r => skipGaps .between r
  | .comment, c :: r => if isPlainChar c then skipGaps .comment r else c :: r
  | _, [] => []

/-! ### Escapes -/

/-- The character a backslash and one letter stand for. -/
def shortEscape? (c : Char) : Option Char :=
  match c with
  | 'b' => some '\x08'
  | 't' => some '\t'
  | 'n' => some '\n'
  | 'f' => some '\x0C'
  | 'r' => some '\r'
  | '"' => some '"'
  | '\\' => some '\\'
  | _ => none

/-- The character with a number, if a character has it. -/
def charOf? (n : Nat) : Option Char :=
  if n.isValidChar then some (Char.ofNat n) else none

/-- Where the walk over a string stands. -/
inductive Mode where
  /-- Between characters. -/
  | text
  /-- After a backslash. -/
  | escape
  /-- Within a number, with digits to come and the value so far. -/
  | digits (left value : Nat)
  /-- After a backslash and blanks that must end the line. -/
  | lineEnd
  /-- After such an end of a line, where blanks do not count. -/
  | indent

/-- The walk after one more character of an escape, and the character that
the escape stands for if this completes it. -/
def Mode.advance : Mode → Char → Option (Mode × Option Char)
  | escape, 'u' => some (digits 4 0, none)
  | escape, 'U' => some (digits 8 0, none)
  | escape, c => (shortEscape? c).map fun x => (text, some x)
  | digits (left + 1) value, c =>
    match hexValue? c with
    | none => none
    | some d =>
      if left = 0 then (charOf? (value * 16 + d)).map fun x => (text, some x)
      else some (digits left (value * 16 + d), none)
  | _, _ => none

/-! ### Strings -/

/-- The rest of a string in double quotes, after `before` in reverse. -/
def basicBody : Mode → (before : List Char) → Reader String
  | _, _, [] => none
  | .text, before, '"' :: r => some (String.ofList before.reverse, r)
  | .text, before, '\\' :: r => basicBody .escape before r
  | .text, before, c :: r => if isPlainChar c then basicBody .text (c :: before) r else none
  | mode, before, c :: r =>
    match mode.advance c with
    | some (mode, some x) => basicBody mode (x :: before) r
    | some (mode, none) => basicBody mode before r
    | none => none

/-- The rest of a string in single quotes, which knows no escapes. -/
def literalBody : (before : List Char) → Reader String
  | _, [] => none
  | before, '\'' :: r => some (String.ofList before.reverse, r)
  | before, c :: r => if isPlainChar c then literalBody (c :: before) r else none

/-- Up to two more quotes belong to the string that three quotes end. -/
def closeQuotes (quote : Char) (before : List Char) (r : List Char) : String × List Char :=
  match r with
  | a :: b :: r' =>
    if a = quote ∧ b = quote then (String.ofList (quote :: quote :: before).reverse, r')
    else if a = quote then (String.ofList (quote :: before).reverse, b :: r')
    else (String.ofList before.reverse, r)
  | [a] => if a = quote then (String.ofList (quote :: before).reverse, []) else (String.ofList before.reverse, r)
  | [] => (String.ofList before.reverse, [])

/-- The rest of a string in three double quotes.  A backslash at the end of a
line takes away the end of the line and the blanks after it. -/
def longBasicBody : Mode → (before : List Char) → Reader String
  | _, _, [] => none
  | .lineEnd, before, '\n' :: r => longBasicBody .indent before r
  | .lineEnd, before, '\r' :: '\n' :: r => longBasicBody .indent before r
  | .lineEnd, before, c :: r => if isBlank c then longBasicBody .lineEnd before r else none
  | .indent, before, '\n' :: r => longBasicBody .indent before r
  | .indent, before, '\r' :: '\n' :: r => longBasicBody .indent before r
  | .indent, before, ' ' :: r => longBasicBody .indent before r
  | .indent, before, '\t' :: r => longBasicBody .indent before r
  | .escape, before, ' ' :: r => longBasicBody .lineEnd before r
  | .escape, before, '\t' :: r => longBasicBody .lineEnd before r
  | .escape, before, '\n' :: r => longBasicBody .indent before r
  | .escape, before, '\r' :: '\n' :: r => longBasicBody .indent before r
  | .escape, before, c :: r =>
    match Mode.escape.advance c with
    | some (mode, some x) => longBasicBody mode (x :: before) r
    | some (mode, none) => longBasicBody mode before r
    | none => none
  | .digits left value, before, c :: r =>
    match (Mode.digits left value).advance c with
    | some (mode, some x) => longBasicBody mode (x :: before) r
    | some (mode, none) => longBasicBody mode before r
    | none => none
  | _, before, '"' :: '"' :: '"' :: r => some (closeQuotes '"' before r)
  | _, before, '\\' :: r => longBasicBody .escape before r
  | _, before, '\r' :: '\n' :: r => longBasicBody .text ('\n' :: before) r
  | _, before, '\n' :: r => longBasicBody .text ('\n' :: before) r
  | _, before, c :: r => if isPlainChar c then longBasicBody .text (c :: before) r else none

/-- The rest of a string in three single quotes. -/
def longLiteralBody : (before : List Char) → Reader String
  | _, [] => none
  | before, '\'' :: '\'' :: '\'' :: r => some (closeQuotes '\'' before r)
  | before, '\r' :: '\n' :: r => longLiteralBody ('\n' :: before) r
  | before, '\n' :: r => longLiteralBody ('\n' :: before) r
  | before, c :: r => if isPlainChar c then longLiteralBody (c :: before) r else none

/-- A long string does not hold the end of the line its quotes stand on. -/
def skipFirstLine (cs : List Char) : List Char := (endOfLine? cs).getD cs

/-- A string in any of the four kinds of quotes. -/
def readString : Reader String
  | '"' :: '"' :: '"' :: r => longBasicBody .text [] (skipFirstLine r)
  | '"' :: r => basicBody .text [] r
  | '\'' :: '\'' :: '\'' :: r => longLiteralBody [] (skipFirstLine r)
  | '\'' :: r => literalBody [] r
  | _ => none

/-! ### Keys -/

/-- One part of a key. -/
def readSimpleKey : Reader String
  | '"' :: r => basicBody .text [] r
  | '\'' :: r => literalBody [] r
  | cs =>
    let bare := cs.takeWhile isBareChar
    if bare.isEmpty then none else some (String.ofList bare, cs.dropWhile isBareChar)

/-- The parts of a key after the first, each behind a dot.  At most `fuel` of
them are read. -/
def readKeyTail : (fuel : Nat) → Reader (List String)
  | 0, _ => none
  | fuel + 1, cs =>
    match skipBlanks cs with
    | '.' :: r => do
      let (part, r) ← readSimpleKey (skipBlanks r)
      let (parts, r) ← readKeyTail fuel r
      pure (part :: parts, r)
    | r => some ([], r)

/-- The greatest depth of keys and of values. -/
def depthLimit : Nat := 80

/-- A key: one or more parts between dots, and fewer than `depthLimit`.
Blanks before and after it are taken along. -/
def readKey (cs : List Char) : Option ((String × List String) × List Char) := do
  let (first, r) ← readSimpleKey (skipBlanks cs)
  let (others, r) ← readKeyTail depthLimit r
  if others.length + 1 < depthLimit then pure ((first, others), r) else none

end Stun.Toml
