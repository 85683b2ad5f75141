/-
Stun/Log/Record.lean

What is logged.  A program part notes an `Entry`, a level and a text; a logger
that lets it pass makes a `Record` of it, with the time and its own component,
and a record is shown on one line.
-/
import Stun.Log.Level

namespace Stun.Log

/-- Something worth noting. -/
structure Entry where
  level : Level
  text : String
deriving DecidableEq, Repr

/-- An entry with the time it was accepted and the component it came through. -/
structure Record where
  /-- The local time, as it is shown. -/
  stamp : String
  level : Level
  component? : Option String
  text : String
deriving DecidableEq, Repr

/-- The line of a record, without the end of the line. -/
def Record.line (r : Record) : String :=
  match r.component? with
  | some component => s!"[{r.stamp}] {r.level.name} [{component}]: {r.text}"
  | none => s!"[{r.stamp}] {r.level.name}: {r.text}"

end Stun.Log
