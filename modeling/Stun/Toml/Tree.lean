/-
Stun/Toml/Tree.lean

What a TOML document says: tables of named values, in the order they were
given, and the rules by which a table may be extended.

A table remembers how it came about.  One with a header of its own, or written
inside braces, is complete.  One that only lies on the way to another may
still get its header, and one that dotted keys made may still get further
dotted keys.  `Table.alter` walks along a path under these rules.
-/
import Stun.Toml.Scalar

namespace Stun.Toml

/-- How a table came about. -/
inductive Origin where
  /-- It has a header, or is written inside braces. -/
  | explicit
  /-- It lies on the way to the table of a header. -/
  | onTheWay
  /-- Dotted keys made it. -/
  | dotted
deriving DecidableEq, Repr

/-- A value.  Floats and moments are told apart from other values, and no
more. -/
inductive Node where
  | text (s : String)
  | integer (n : Int)
  | float
  | boolean (b : Bool)
  | moment
  | array (items : List Node)
  /-- A table inside braces. -/
  | braces (entries : List (String × Node))
  | table (origin : Origin) (entries : List (String × Node))
  /-- The tables under repeated headers in double brackets, the last one first. -/
  | tables (last : Origin × List (String × Node)) (before : List (List (String × Node)))

/-- The entries of a table and how it came about. -/
structure Table where
  origin : Origin
  entries : List (String × Node)

namespace Table

/-- The table of a document before its first line. -/
def empty : Table := ⟨.explicit, []⟩

/-- The value under a key. -/
def find? (t : Table) (key : String) : Option Node := t.entries.lookup key

/-- Puts a value under a key, in place of the one that is there. -/
def set (t : Table) (key : String) (n : Node) : Table :=
  if t.entries.any (·.1 == key) then
    { t with entries := t.entries.map fun (k, old) => if k == key then (k, n) else (k, old) }
  else
    { t with entries := t.entries ++ [(key, n)] }

/-- Changes the table at the end of a path, and makes the tables on the way
that are missing.  Dotted keys do not enter tables that are complete; headers
enter any table, and of repeated ones the last. -/
def alter (dotted : Bool) (f : Table → Option Table) : List String → Table → Option Table
  | [], t => f t
  | key :: path, t =>
    match t.find? key with
    | none => do
      let inner ← alter dotted f path ⟨if dotted then .dotted else .onTheWay, []⟩
      pure (t.set key (.table inner.origin inner.entries))
    | some (.table origin entries) =>
      if dotted ∧ origin = .explicit then
        none
      else do
        let inner ← alter dotted f path ⟨origin, entries⟩
        pure (t.set key (.table inner.origin inner.entries))
    | some (.tables (origin, entries) before) => do
      let inner ← alter dotted f path ⟨origin, entries⟩
      pure (t.set key (.tables (inner.origin, inner.entries) before))
    | some _ => none

/-- Puts a value under a dotted key.  The table it comes to must be the one at
hand, or one that dotted keys made. -/
def insert (path : List String) (key : String) (n : Node) (t : Table) : Option Table :=
  alter true
    (fun inner =>
      if !path.isEmpty && inner.origin != .dotted then none
      else if (inner.find? key).isSome then none
      else some (inner.set key n))
    path t

/-- Begins the table of a header. -/
def openTable (path : List String) (key : String) (t : Table) : Option Table :=
  alter false
    (fun inner =>
      match inner.find? key with
      | none => some (inner.set key (.table .explicit []))
      | some (.table .onTheWay entries) => some (inner.set key (.table .explicit entries))
      | some _ => none)
    path t

/-- Begins one more table under a header in double brackets. -/
def openElement (path : List String) (key : String) (t : Table) : Option Table :=
  alter false
    (fun inner =>
      match inner.find? key with
      | none => some (inner.set key (.tables (.explicit, []) []))
      | some (.tables (_, last) before) =>
        some (inner.set key (.tables (.explicit, []) (last :: before)))
      | some _ => none)
    path t

end Table

end Stun.Toml
