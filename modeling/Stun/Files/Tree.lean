/-
Stun/Files/Tree.lean

Files and directories below a root, and how a path finds its way among them.

A path is walked part by part, from the root if it begins with a slash and
from the working directory if it does not.  An empty part or a single dot
stays where it is, two dots go up, and the root is above itself.  Each of these
needs a directory to stand in, as a name does: so a slash after the name of a
file leads nowhere, and a missing directory cannot be left by two dots.

Only the entries that were put into a tree are known, and the directories on
the way to them and to the working directory.
-/
import Stun.Octets

namespace Stun.Files

/-! ### Paths -/

/-- A name inside a directory; a name from the root stands for itself. -/
def join (directory name : String) : String :=
  if name.startsWith "/" then name
  else if directory.isEmpty || directory.endsWith "/" then directory ++ name
  else directory ++ "/" ++ name

/-- The parts between the slashes of a path. -/
def parts (path : String) : List String := path.splitOn "/"

/-- The parts of a path without the empty ones behind its last name. -/
def partsBeforeSlashes (path : String) : List String :=
  ((parts path).reverse.dropWhile (· = "")).reverse

/-! ### Refusals -/

/-- The system's words for a directory in place of a file. -/
def isDirectory : String := "Is a directory (os error 21)"

/-- The system's words for a path that leads nowhere. -/
def noSuchFile : String := "No such file or directory (os error 2)"

/-- The system's words for a file in place of a directory. -/
def notDirectory : String := "Not a directory (os error 20)"

/-- The system's words for a name or a path that is too long. -/
def nameTooLong : String := "File name too long (os error 36)"

/-- The words for a path that no system can have. -/
def nulInName : String := "file name contained an unexpected NUL byte"

/-- The longest name of an entry in octets. -/
def nameLimit : Nat := 255

/-- The longest path in octets. -/
def pathLimit : Nat := 4095

/-- The words for a name that is not in its directory. -/
def missing (name : String) : String :=
  if nameLimit < name.utf8ByteSize then nameTooLong else noSuchFile

/-- Why a path is refused before its first part is looked at, if it is. -/
def refusal? (path : String) : Option String :=
  if path.toList.contains '\x00' then some nulInName
  else if path.isEmpty then some noSuchFile
  else if pathLimit < path.utf8ByteSize then some nameTooLong
  else none

/-! ### Trees -/

/-- What a path can lead to. -/
inductive Entry where
  | directory
  | file (content : List UInt8)
deriving DecidableEq, Repr

/-- Files and directories by the names on the way to them from the root. -/
structure Tree where
  /-- The names on the way to the working directory. -/
  home : List String := []
  entries : List (List String × Entry) := []
deriving DecidableEq, Repr

namespace Tree

/-- The entry at the end of a way of names. -/
def entry? (t : Tree) (names : List String) : Option Entry :=
  match t.entries.lookup names with
  | some e => some e
  | none =>
    if names.isPrefixOf t.home || t.entries.any (fun e => names.isPrefixOf e.1) then
      some .directory
    else
      none

/-- The path of the working directory. -/
def homePath (t : Tree) : String := "/" ++ "/".intercalate t.home

/-- Where the walk along a path begins. -/
def origin (t : Tree) (path : String) : List String :=
  if path.startsWith "/" then [] else t.home

/-! ### Making entries -/

/-- Puts an entry at the end of a way of names, in place of the one that is there. -/
def put (t : Tree) (names : List String) (e : Entry) : Tree :=
  { t with entries := t.entries.filter (·.1 ≠ names) ++ [(names, e)] }

/-- The way after one more part of a path, with the directory that the part
names made where there is nothing. -/
def enter : Tree × List String → String → Tree × List String
  | (t, names), part =>
    if part = "" ∨ part = "." then (t, names)
    else if part = ".." then (t, names.dropLast)
    else
      let names := names ++ [part]
      (if (t.entry? names).isSome then t else t.put names .directory, names)

/-- Makes the directory of a path and every directory that the path enters. -/
def addDirectory (t : Tree) (path : String) : Tree :=
  ((parts path).foldl enter (t, t.origin path)).1

/-- Makes the file of a path and every directory that the path enters. -/
def addFile (t : Tree) (path : String) (content : List UInt8) : Tree :=
  let (t, names) := (parts path).dropLast.foldl enter (t, t.origin path)
  t.put (names ++ [(parts path).getLastD ""]) (.file content)

/-! ### Walking -/

/-- Where a walk stands: the names on the way there, and what is there. -/
structure Position where
  names : List String
  entry : Entry
deriving DecidableEq, Repr

/-- One part of a path further. -/
def step (t : Tree) (p : Position) (part : String) : Except String Position :=
  match p.entry with
  | .file _ => .error notDirectory
  | .directory =>
    if part = "" ∨ part = "." then .ok p
    else if part = ".." then .ok ⟨p.names.dropLast, .directory⟩
    else
      match t.entry? (p.names ++ [part]) with
      | some e => .ok ⟨p.names ++ [part], e⟩
      | none => .error (missing part)

/-- Where some parts lead from the beginning of a path, or why nowhere. -/
def walk (t : Tree) (path : String) (ps : List String) : Except String Position :=
  ps.foldlM t.step ⟨t.origin path, .directory⟩

/-- Where a path leads, or why it leads nowhere. -/
def resolve (t : Tree) (path : String) : Except String Position :=
  match refusal? path with
  | some reason => .error reason
  | none => t.walk path (parts path)

/-- The path leads somewhere. -/
def exists? (t : Tree) (path : String) : Bool := (t.resolve path).isOk

/-! ### Opening -/

/-- The octets of the file at a path, or why there are none. -/
def read (t : Tree) (path : String) : Except String (List UInt8) :=
  match t.resolve path with
  | .ok ⟨_, .file content⟩ => .ok content
  | .ok ⟨_, .directory⟩ => .error isDirectory
  | .error e => .error e

/-- What opening the last part of a path for appending finds in its directory.
A file that is not there is made. -/
def openLast (t : Tree) (p : Position) (part : String) : Except String (List UInt8) :=
  match t.step p part with
  | .ok ⟨_, .file content⟩ => .ok content
  | .ok ⟨_, .directory⟩ => .error isDirectory
  | .error e => if e = noSuchFile then .ok [] else .error e

/-- The octets that a file opened for appending holds already, or why it
cannot be opened.  A slash at the end asks for a directory, whether or not
there is one. -/
def openForAppend (t : Tree) (path : String) : Except String (List UInt8) :=
  match refusal? path with
  | some reason => .error reason
  | none =>
    let ps := partsBeforeSlashes path
    match t.walk path ps.dropLast with
    | .error e => .error e
    | .ok ⟨_, .file _⟩ => .error notDirectory
    | .ok p => if path.endsWith "/" then .error isDirectory else t.openLast p (ps.getLastD "")

end Tree

end Stun.Files
