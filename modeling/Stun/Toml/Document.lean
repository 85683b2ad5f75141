/-
Stun/Toml/Document.lean

Reading a TOML document into its root table.

Values nest to a bounded depth, on which their reader recurses.  A document is
read line by line: a line is blank, a comment, a header that says to which
table the next lines belong, or a key with its value.
-/
import Stun.Toml.Tree

namespace Stun.Toml

/-! ### Values -/

/-- The items of an array, after its bracket.  At most `fuel` of them are
read. -/
def readItems (item : Reader Node) : (fuel : Nat) → (before : List Node) → Reader Node
  | 0, _, _ => none
  | fuel + 1, before, cs =>
    match skipGaps .between cs with
    | ']' :: r => some (.array before.reverse, r)
    | r => do
      let (n, r) ← item r
      match skipGaps .between r with
      | ',' :: r => readItems item fuel (n :: before) r
      | ']' :: r => pure (.array (n :: before).reverse, r)
      | _ => none

/-- The parts of a dotted key, as the path to its last part and that part. -/
def splitKey (first : String) (others : List String) : List String × String :=
  ((first :: others).dropLast, (first :: others).getLast (by simp))

/-- The entries of a table inside braces, after the first brace or a comma.
At most `fuel` of them are read. -/
def readEntries (item : Reader Node) : (fuel : Nat) → Table → Reader Table
  | 0, _, _ => none
  | fuel + 1, t, cs => do
    let ((first, others), r) ← readKey cs
    let r ← expect '=' r
    let (n, r) ← item (skipBlanks r)
    let (path, key) := splitKey first others
    let t ← t.insert path key n
    match skipBlanks r with
    | ',' :: r => readEntries item fuel t r
    | '}' :: r => pure (t, r)
    | _ => none

/-- Tables inside braces are complete once the brace is closed. -/
def readBraces (item : Reader Node) (cs : List Char) : Option (Node × List Char) :=
  match skipBlanks cs with
  | '}' :: r => some (.braces [], r)
  | r => (readEntries item (r.length + 1) .empty r).map fun (t, r) => (.braces t.entries, r)

/-- A number, a date or a time. -/
def readQuantity (cs : List Char) : Option (Node × List Char) :=
  ((readMoment cs).map fun r => (Node.moment, r)) <|>
    ((readFloat cs).map fun r => (Node.float, r)) <|>
    ((readSpecialFloat cs).map fun r => (Node.float, r)) <|>
    ((readInteger cs).map fun (n, r) => (Node.integer n, r))

/-- A value.  Arrays and tables nest less than `depth` deep. -/
def readValue : (depth : Nat) → Reader Node
  | 0, _ => none
  | depth + 1, cs =>
    match cs with
    | '[' :: r => if depth = 0 then none else readItems (readValue depth) (r.length + 1) [] r
    | '{' :: r => if depth = 0 then none else readBraces (readValue depth) r
    | '"' :: _ => (readString cs).map fun (s, r) => (.text s, r)
    | '\'' :: _ => (readString cs).map fun (s, r) => (.text s, r)
    | 't' :: _ => (readBoolean cs).map fun (b, r) => (.boolean b, r)
    | 'f' :: _ => (readBoolean cs).map fun (b, r) => (.boolean b, r)
    | _ => readQuantity cs

/-! ### Lines -/

/-- The root table and the table to which lines belong, as a path from it. -/
structure Document where
  root : Table
  current : List String

namespace Document

/-- A document before its first line. -/
def empty : Document := ⟨.empty, []⟩

/-- A header, after its first bracket, and the rest after its line. -/
def readHeader (d : Document) (cs : List Char) : Option (Document × List Char) :=
  match cs with
  | '[' :: r => do
    let ((first, others), r) ← readKey r
    let r ← (expect ']' r).bind (expect ']')
    let r ← restOfLine? r
    let (path, key) := splitKey first others
    let root ← d.root.openElement path key
    pure (⟨root, first :: others⟩, r)
  | r => do
    let ((first, others), r) ← readKey r
    let r ← expect ']' r
    let r ← restOfLine? r
    let (path, key) := splitKey first others
    let root ← d.root.openTable path key
    pure (⟨root, first :: others⟩, r)

/-- A key with its value, and the rest after its line. -/
def readEntry (d : Document) (cs : List Char) : Option (Document × List Char) := do
  let ((first, others), r) ← readKey cs
  let r ← expect '=' r
  let (n, r) ← readValue depthLimit (skipBlanks r)
  let r ← restOfLine? r
  let (path, key) := splitKey first others
  let root ← Table.alter false (Table.insert path key n) d.current d.root
  pure ({ d with root }, r)

/-- One line. -/
def readLine (d : Document) (cs : List Char) : Option (Document × List Char) :=
  match cs with
  | '#' :: _ => (restOfLine? cs).map fun r => (d, r)
  | '\n' :: r => some (d, r)
  | '\r' :: r => (expect '\n' r).map fun r => (d, r)
  | '[' :: r => d.readHeader r
  | r => d.readEntry r

/-- The lines of a text, at most `fuel` of them. -/
def readLines : (fuel : Nat) → Document → List Char → Option Document
  | 0, _, _ => none
  | fuel + 1, d, cs =>
    match skipBlanks cs with
    | [] => some d
    | r =>
      match d.readLine r with
      | some (d, r) => readLines fuel d r
      | none => none

end Document

/-- The root table of a document; a mark of the byte order at its front does
not count. -/
def parse? (s : String) : Option Table :=
  let cs := match s.toList with
    | '\uFEFF' :: r => r
    | cs => cs
  (Document.readLines (cs.length + 1) .empty cs).map (·.root)

end Stun.Toml
