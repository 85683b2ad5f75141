/-
Stun/Transaction/Agent.lean

The agent keeps the transactions that are under way, each with its deadline,
and ends every one of them exactly once: by an answer, by the caller, by its
deadline, or because the agent is closed.  An end is an event, and events wait
in a queue until they are taken.

The agent has no clock and sends nothing; the caller says what time it is.
Where several transactions end at once, the events come in the order of
deadline and id, so the order in which they were started does not show.  What
the agent does is noted in a journal, the oldest entry first.
-/
import Stun.Log.Record
import Stun.Time
import Stun.Wire.Message

namespace Stun

/-! ### Events -/

/-- How a transaction ended. -/
inductive Outcome where
  | answered (m : Message)
  | failed (e : Error)
deriving DecidableEq

/-- The end of a transaction. -/
structure Event where
  id : TransactionId
  outcome : Outcome
deriving DecidableEq

/-- A transaction under way. -/
structure Tracked where
  id : TransactionId
  deadline : Instant
deriving DecidableEq

/-- The order of deadlines, and among equal ones that of the ids. -/
def Tracked.le (a b : Tracked) : Bool :=
  a.deadline < b.deadline || (a.deadline == b.deadline && a.id.le b.id)

/-! ### Agents -/

/-- Transactions under way, and the events of those that ended. -/
structure Agent where
  tracked : List Tracked := []
  events : List Event := []
  closed : Bool := false
  journal : List Log.Entry := []
deriving DecidableEq

namespace Agent

/-- The agent before any call. -/
def empty : Agent := {}

/-- Notes something in the journal. -/
def note (a : Agent) (level : Log.Level) (text : String) : Agent :=
  { a with journal := a.journal ++ [⟨level, text⟩] }

/-- Notes something the agent did. -/
def report (a : Agent) (level : Log.Level) (text : String) : Agent :=
  a.note level ("[STUN Agent] " ++ text)

/-- Puts an event at the end of the queue. -/
def emit (a : Agent) (id : TransactionId) (outcome : Outcome) : Agent :=
  { a with events := a.events ++ [⟨id, outcome⟩] }

/-- A transaction with this id is under way. -/
def isTracking (a : Agent) (id : TransactionId) : Bool := a.tracked.any (·.id = id)

/-- Strikes the transaction with this id off. -/
def drop (a : Agent) (id : TransactionId) : Agent :=
  { a with tracked := a.tracked.filter (·.id ≠ id) }

/-! ### Calls -/

/-- Begins a transaction. -/
def start (id : TransactionId) (deadline : Instant) : Attempt Agent := fun a =>
  if a.closed then
    (.error .agentClosed, a)
  else if a.isTracking id then
    (.error .transactionExists, a)
  else
    let a : Agent := { a with tracked := a.tracked ++ [⟨id, deadline⟩] }
    (.ok (), a.report .debug s!"Transaction {id.text} started")

/-- Gives a transaction up. -/
def stop (id : TransactionId) : Attempt Agent := fun a =>
  if a.closed then
    (.error .agentClosed, a)
  else if a.isTracking id then
    let a := (a.drop id).report .debug s!"Transaction {id.text} stopped"
    (.ok (), a.emit id (.failed .transactionStopped))
  else
    (.error .transactionUnknown, a)

/-- Ends the transaction that a message answers.  A message that answers none
is dropped; late copies of an answer come to this. -/
def process (m : Message) : Attempt Agent := fun a =>
  if a.closed then
    (.error .agentClosed, a)
  else if a.isTracking m.id then
    let a := (a.drop m.id).report .debug s!"Transaction {m.id.text} completed"
    (.ok (), a.emit m.id (.answered m))
  else
    (.ok (), a.report .trace s!"Dropping unmatched message {m.text}")

/-- Ends one transaction whose deadline passed. -/
def expire (a : Agent) (t : Tracked) : Agent :=
  ((a.drop t.id).report .debug s!"Transaction {t.id.text} timed out").emit t.id
    (.failed .transactionTimedOut)

/-- The transactions whose deadline is before `now`, in the order they end. -/
def due (a : Agent) (now : Instant) : List Tracked :=
  (a.tracked.filter (·.deadline < now)).mergeSort Tracked.le

/-- Ends the transactions whose deadline is before `now`. -/
def collect (now : Instant) : Attempt Agent := fun a =>
  if a.closed then
    (.error .agentClosed, a)
  else
    (.ok (), (a.due now).foldl expire a)

/-- Ends every transaction, and refuses any call from then on. -/
def close : Attempt Agent := fun a =>
  if a.closed then
    (.error .agentClosed, a)
  else
    let pending := a.tracked.mergeSort Tracked.le
    let a : Agent := { a with tracked := [] }
    let a :=
      if pending.isEmpty then a
      else a.report .info s!"Closing with {pending.length} pending transactions"
    let a := pending.foldl (fun a t => a.emit t.id (.failed .agentClosed)) a
    (.ok (), { a with closed := true })

/-! ### Looking in -/

/-- Takes the oldest event. -/
def pollEvent (a : Agent) : Option Event × Agent :=
  match a.events with
  | [] => (none, a)
  | e :: rest => (some e, { a with events := rest })

/-- The earliest deadline. -/
def pollTimeout (a : Agent) : Option Instant := (a.tracked.map Tracked.deadline).min?

/-! ### Runs -/

/-- A call of an agent. -/
inductive Call where
  | start (id : TransactionId) (deadline : Instant)
  | stop (id : TransactionId)
  | process (m : Message)
  | collect (now : Instant)
  | close
  | pollEvent
deriving DecidableEq

/-- What a call answers: whether it was refused, or the event that was taken. -/
inductive Answer where
  | done (result : Except Error Unit)
  | event (e? : Option Event)

/-- Makes a call. -/
def perform (a : Agent) : Call → Answer × Agent
  | .start id deadline => let (r, a) := start id deadline a; (.done r, a)
  | .stop id => let (r, a) := stop id a; (.done r, a)
  | .process m => let (r, a) := process m a; (.done r, a)
  | .collect now => let (r, a) := collect now a; (.done r, a)
  | .close => let (r, a) := close a; (.done r, a)
  | .pollEvent => let (e?, a) := a.pollEvent; (.event e?, a)

/-- Makes calls one after the other, and gathers what they answer. -/
def run (a : Agent) : List Call → List Answer × Agent
  | [] => ([], a)
  | c :: cs =>
    let (answer, a) := a.perform c
    let (answers, a) := a.run cs
    (answer :: answers, a)

/-! ### Size -/

/-- How many transactions are under way. -/
def size (a : Agent) : Nat := a.tracked.length

/-- No transaction is under way. -/
def isEmpty (a : Agent) : Bool := a.tracked.isEmpty

end Agent

end Stun
