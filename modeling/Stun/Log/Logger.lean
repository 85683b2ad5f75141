/-
Stun/Log/Logger.lean

Loggers, and where their records go.

A logger is a handle with a threshold and a component; handles made from one
another share one sink.  In memory a record is captured as its line, on a
console it is printed.  A file is written by a writer of its own: an accepted
record is queued, and the writer takes the records in the order they were
queued and appends a line for each.  When nothing waits and no handle is left
it ends, and could take no record any more.  `Family.settle` lets it do all
that is left to do.
-/
import Stun.Log.Record

namespace Stun.Log

/-! ### Handles -/

/-- A handle: what it lets pass, and the component it speaks for. -/
structure Logger where
  level : Level
  component? : Option String := none
deriving DecidableEq, Repr

namespace Logger

/-- The handle of a component, with the same threshold. -/
def forComponent (l : Logger) (component : String) : Logger :=
  { l with component? := some component }

/-- The handle lets records of this level pass. -/
def isEnabled (l : Logger) (level : Level) : Bool := level.atLeast l.level

/-- The record of an entry, if the handle lets it pass. -/
def accept (l : Logger) (stamp : String) (e : Entry) : Option Record :=
  if l.isEnabled e.level then some ⟨stamp, e.level, l.component?, e.text⟩ else none

end Logger

/-! ### Sinks -/

/-- What the writer of a file is doing. -/
inductive Writer where
  /-- It waits for a record. -/
  | idle
  /-- It has taken a record, whose line is not in the file yet. -/
  | holding (r : Record)
  /-- It has ended, and its queue with it. -/
  | ended
deriving DecidableEq, Repr

/-- Where records go. -/
inductive Sink where
  /-- The lines captured so far. -/
  | memory (lines : List String)
  /-- What was printed so far. -/
  | console (printed : String)
  /-- The records that wait for the writer, what the file holds, and the writer. -/
  | file (queue : List Record) (content : String) (writer : Writer := .idle)
deriving DecidableEq, Repr

namespace Sink

/-- Hands a record to the sink.  A queue without a writer drops it. -/
def write : Sink → Record → Sink
  | memory lines, r => memory (lines ++ [r.line])
  | console printed, r => console (printed ++ r.line ++ "\n")
  | file queue content .ended, _ => file queue content .ended
  | file queue content writer, r => file (queue ++ [r]) content writer

/-- One turn of the writer of a file: the record it holds becomes a line, or it
takes the oldest record that waits.  If none waits it stays idle while a handle
is left that could send one, and else it ends. -/
def advance (live : Bool) : Sink → Sink
  | file queue content (.holding r) => file queue (content ++ r.line ++ "\n") .idle
  | file (r :: queue) content .idle => file queue content (.holding r)
  | file [] content .idle => file [] content (if live then .idle else .ended)
  | s => s

/-- How many turns the writer can take before it waits or has ended: two for a
record, one for the end. -/
def turns : Sink → Nat
  | file queue _ .idle => 2 * queue.length + 1
  | file queue _ (.holding _) => 2 * queue.length + 2
  | _ => 0

/-- The lines that were captured. -/
def captured : Sink → List String
  | memory lines => lines
  | _ => []

/-- The lines of a text, without an empty one at the end. -/
def splitLines (s : String) : List String :=
  match (s.splitOn "\n").reverse with
  | "" :: r => r.reverse
  | all => all.reverse

/-- What the sink shows, line by line. -/
def lines : Sink → List String
  | memory lines => lines
  | console printed => splitLines printed
  | file _ content _ => splitLines content

end Sink

/-! ### Families of handles -/

/-- Handles that share a sink, in the order they were made.  A handle that was
given up leaves its place empty. -/
structure Family where
  handles : List (Option Logger)
  sink : Sink
deriving DecidableEq, Repr

namespace Family

/-- One handle on a sink. -/
def ofSink (level : Level) (sink : Sink) : Family := ⟨[some { level }], sink⟩

/-- The handle with a number. -/
def handle? (f : Family) (n : Nat) : Option Logger := (f.handles[n]?).join

/-- Makes one more handle on the sink. -/
def insert (f : Family) (l : Logger) : Family := { f with handles := f.handles ++ [some l] }

/-- A second handle like the one with a number. -/
def clone (f : Family) (n : Nat) : Family :=
  match f.handle? n with
  | some l => f.insert l
  | none => f

/-- A handle for a component, made from the one with a number. -/
def component (f : Family) (n : Nat) (name : String) : Family :=
  match f.handle? n with
  | some l => f.insert (l.forComponent name)
  | none => f

/-- Gives a handle up. -/
def drop (f : Family) (n : Nat) : Family := { f with handles := f.handles.set n none }

/-- Logs an entry through a handle. -/
def log (f : Family) (n : Nat) (stamp : String) (e : Entry) : Family :=
  match (f.handle? n).bind (·.accept stamp e) with
  | some r => { f with sink := f.sink.write r }
  | none => f

/-- A handle is left. -/
def isLive (f : Family) : Bool := f.handles.any Option.isSome

/-- One turn of the writer. -/
def advance (f : Family) : Family := { f with sink := f.sink.advance f.isLive }

/-- The writer takes all the turns it can. -/
def settle (f : Family) : Family := f.sink.turns.repeat advance f

/-- What can happen to a family: a call of a handle, or a turn of the writer. -/
inductive Action where
  | clone (n : Nat)
  | component (n : Nat) (name : String)
  | drop (n : Nat)
  | log (n : Nat) (stamp : String) (e : Entry)
  | advance
deriving DecidableEq, Repr

/-- The family after one more action. -/
def perform (f : Family) : Action → Family
  | .clone n => f.clone n
  | .component n name => f.component n name
  | .drop n => f.drop n
  | .log n stamp e => f.log n stamp e
  | .advance => f.advance

/-- The family after actions in any interleaving. -/
def run (f : Family) (actions : List Action) : Family := actions.foldl perform f

end Family

end Stun.Log
