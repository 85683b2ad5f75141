/-
Stun/Files/Lookup.lean

Finding a configuration file and reading it.

A path in the environment comes first, if it leads anywhere; then the
directory for configurations; then the working directory.  What is found is
read as text and not interpreted.
-/
import Stun.Client.Settings
import Stun.Files.Tree

namespace Stun.Files

/-- Why a configuration file is not at hand. -/
inductive Error where
  /-- Nothing is found there. -/
  | notFound (path : String)
  /-- It cannot be read, with the system's reason. -/
  | unreadable (reason : String)
deriving DecidableEq, Repr

/-- The sentence that reports a cause. -/
def Error.message : Error → String
  | notFound path => "Configuration file not found: " ++ path
  | unreadable reason => "Failed to read configuration file: " ++ reason

/-- What a missing file means for one who needs its settings. -/
def Error.toError (e : Error) : Stun.Error := .configuration e.message

/-- Where configurations are looked for: the working directory with a path
from the environment, which may be unset. -/
structure Place where
  tree : Tree
  environment? : Option String

namespace Place

/-- The text of the file at a path. -/
def load (p : Place) (path : String) : Except Error String :=
  if p.tree.exists? path then
    match p.tree.read path with
    | .ok content =>
      match Octets.text? content with
      | some s => .ok s
      | none => .error (.unreadable "stream did not contain valid UTF-8")
    | .error reason => .error (.unreadable reason)
  else
    .error (.notFound path)

/-- The paths at which a file is looked for, in order. -/
def candidates (p : Place) (name : String) : List String :=
  p.environment?.toList ++ [join "./config" name, join "./" name]

/-- The first path that leads anywhere. -/
def find (p : Place) (name : String) : Except Error String :=
  match (p.candidates name).find? p.tree.exists? with
  | some path => .ok path
  | none =>
    .error (.notFound
      (s!"'{name}' not found. Searched: CONFIG_PATH env var, ./config/{name}, ./{name}"))

/-- The text of the file that is found. -/
def findAndLoad (p : Place) (name : String) : Except Error String :=
  (p.find name).bind p.load

/-- The settings in the file at a path. -/
def settings (p : Place) (path : String) : Except Stun.Error Settings :=
  match p.load path with
  | .ok document => Settings.ofToml document
  | .error e => .error e.toError

end Place

end Stun.Files
