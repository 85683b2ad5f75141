/-
Stun/Client/Client.lean

The client sends requests and repeats those that stay unanswered.

It opens no socket.  Datagrams to be sent wait in a queue (`pollWrite`),
received ones are handed in (`handleRead`), and the caller says what time it
is (`handleEvent`).  What the client reports (`pollEvent`) is either the next
deadline, as a hint when to call again, or the end of a transaction.

Every request is tracked twice.  The agent knows its deadline and ends it; the
client knows its octets and how often they were sent.  When an attempt runs
out of time the agent ends it, and the client, as soon as it is asked for an
event, begins it again with a deadline one timeout further away, until the
attempts are used up.  The client notes what it does in the journal of its
agent, so that the entries of both stand in order.
-/
import Stun.Client.Tuning
import Stun.Transaction.Agent
import Stun.Value.Endpoint
import Stun.Wire.Frame

namespace Stun

/-! ### What goes in and out -/

/-- What carries the datagrams. -/
inductive Transport where
  | udp
  | tcp
deriving DecidableEq, Repr

/-- The name of a transport. -/
def Transport.text : Transport → String
  | udp => "UDP"
  | tcp => "TCP"

/-- Where a client sends from and to, and over what. -/
structure Route where
  localEnd : Endpoint
  remoteEnd : Endpoint
  transport : Transport
deriving DecidableEq

/-- A datagram to be sent, with the time it was asked for. -/
structure Transmit where
  now : Instant
  route : Route
  payload : List UInt8
deriving DecidableEq

/-- What a client is told besides datagrams. -/
inductive ClientInput where
  /-- It is this time. -/
  | timeout (now : Instant)
  /-- Give every transaction up, and begin none. -/
  | close
deriving DecidableEq

/-- What a client reports. -/
inductive ClientEvent where
  /-- Say the time again once it is this late. -/
  | timeout (deadline : Instant)
  /-- A transaction ended. -/
  | transaction (e : Event)
deriving DecidableEq

/-- A request that waits for its answer. -/
structure Request where
  id : TransactionId
  /-- How often it was repeated. -/
  attempt : UInt32
  start : Instant
  raw : List UInt8
deriving DecidableEq

/-! ### Clients -/

/-- The requests that wait, the datagrams to be sent, and the agent. -/
structure Client where
  route : Route
  /-- The timeout of the first attempt. -/
  timeout : Duration
  /-- How much before its deadline an attempt counts as out of time. -/
  rate : Duration
  maxAttempts : UInt32
  agent : Agent := .empty
  requests : List Request := []
  outbound : List Transmit := []
  /-- The time that was told last. -/
  lastNow? : Option Instant := none
  /-- The deadline that was reported last, since anything was told. -/
  lastHint? : Option Instant := none
  closed : Bool := false
deriving DecidableEq

namespace Client

/-- The client of a tuning before any call. -/
def ofTuning (t : Tuning) (route : Route) : Client :=
  { route
    timeout := t.effectiveTimeout
    rate := t.effectiveRate
    maxAttempts := t.maxAttempts }

/-- How many requests wait. -/
def pending (c : Client) : Nat := c.requests.length

/-- The earliest deadline. -/
def pollTimeout (c : Client) : Option Instant := c.agent.pollTimeout

/-- What the client and its agent noted. -/
def journal (c : Client) : List Log.Entry := c.agent.journal

/-- Notes something the client did. -/
def report (c : Client) (level : Log.Level) (text : String) : Client :=
  { c with agent := c.agent.note level ("[STUN Client] " ++ text) }

/-- Puts a datagram at the end of the queue. -/
def enqueue (c : Client) (payload : List UInt8) (now : Instant) : Client :=
  { c with outbound := c.outbound ++ [⟨now, c.route, payload⟩] }

/-- Strikes the request with this id off. -/
def drop (c : Client) (id : TransactionId) : Client :=
  { c with requests := c.requests.filter (·.id ≠ id) }

/-- Keeps a request, in place of one with the same id. -/
def keep (c : Client) (r : Request) : Client :=
  let c := c.drop r.id
  { c with requests := c.requests ++ [r] }

/-! ### Deadlines -/

/-- The number of an attempt counted from one, or the greatest number there is. -/
def attemptNumber (attempt : UInt32) : Nat := min (attempt.toNat + 1) 4294967295

/-- The deadline of an attempt that begins at `now`: the timeout times the
number of the attempt later, if the clock reaches that far. -/
def deadline? (c : Client) (attempt : UInt32) (now : Instant) : Option Instant :=
  Instant.after? now (Duration.times c.timeout (attemptNumber attempt))

/-- Begins an attempt of a request with the agent. -/
def begin (id : TransactionId) (attempt : UInt32) (now : Instant) : Attempt Client := fun c =>
  match c.deadline? attempt now with
  | none =>
    (.error (.configuration s!"RTO {Duration.text c.timeout} overflows the clock"), c)
  | some deadline =>
    let (result, agent) := Agent.start id deadline c.agent
    (result, { c with agent })

/-! ### Calls -/

/-- Takes a request on, and queues it for sending. -/
def handleWrite (m : Message) (now : Instant) : Attempt Client := fun c =>
  if c.closed then
    (.error .clientClosed, c)
  else
    match begin m.id 0 now c with
    | (.error e, c) => (.error e, c)
    | (.ok (), c) =>
      let c := { c with lastNow? := some now, lastHint? := none }
      let c := c.report .info
        s!"Sending request {m.id.text} to {c.route.remoteEnd.text} over {c.route.transport.text}"
      (.ok (), (c.enqueue m.raw now).keep ⟨m.id, 0, now, m.raw⟩)

/-- Takes a received datagram. -/
def handleRead (datagram : List UInt8) : Attempt Client := fun c =>
  if c.closed then
    (.error .clientClosed, c)
  else
    match Message.decode datagram with
    | .error e => (.error e, c)
    | .ok m =>
      let c := { c with lastHint? := none }
      let (result, agent) := Agent.process m c.agent
      (result, { c with agent })

/-- Is told the time, or to close.  An attempt is out of time as soon as its
deadline is nearer than the resolution. -/
def handleEvent (input : ClientInput) : Attempt Client := fun c =>
  if c.closed then
    (.error .clientClosed, c)
  else
    let c := { c with lastHint? := none }
    match input with
    | .timeout now =>
      let c := { c with lastNow? := some now }
      let (result, agent) := Agent.collect ((Instant.after? now c.rate).getD now) c.agent
      (result, { c with agent })
    | .close =>
      let c := { c with closed := true }.report .info "Closing"
      let (result, agent) := Agent.close c.agent
      (result, { c with agent })

/-- Takes the oldest datagram to be sent. -/
def pollWrite (c : Client) : Option Transmit × Client :=
  match c.outbound with
  | [] => (none, c)
  | t :: rest => (some t, { c with outbound := rest })

/-! ### Events -/

/-- The earliest deadline, unless it is the one that was reported last. -/
def hint (c : Client) : Option Instant × Client :=
  match c.pollTimeout with
  | none => (none, c)
  | some deadline =>
    if c.lastHint? = some deadline then
      (none, c)
    else
      (some deadline, { c with lastHint? := some deadline })

/-- Notes how a request ended. -/
def reportEnd (c : Client) (e : Event) (attempt : UInt32) : Client :=
  match e.outcome with
  | .answered m =>
    c.report .info
      s!"Transaction {e.id.text} succeeded after {attempt.toNat} retransmissions: {m.text}"
  | .failed err => c.report .error s!"Transaction {e.id.text} failed: {err.message}"

/-- Sends a request once more that ran out of time.  Where that cannot be done
the event that ended it is handed on. -/
def repeatRequest (c : Client) (e : Event) (r : Request) : Option Event × Client :=
  let attempt := r.attempt + 1
  let now := c.lastNow?.getD r.start
  match begin r.id attempt now c with
  | (.error err, c) =>
    (some e, c.report .error s!"Retransmission of {r.id.text} abandoned: {err.message}")
  | (.ok (), c) =>
    let c := c.report .debug s!"Retransmitting {r.id.text} (attempt {attempt.toNat})"
    (none, (c.enqueue r.raw now).keep { r with attempt })

/-- Deals with one event of the agent: hands it on if it ends a request, and
otherwise hands nothing on. -/
def settle (c : Client) (e : Event) : Option Event × Client :=
  match c.requests.find? (·.id = e.id) with
  | none => (none, c)
  | some r =>
    let c := c.drop e.id
    if e.outcome ≠ .failed .transactionTimedOut ∨ c.maxAttempts ≤ r.attempt then
      (some e, c.reportEnd e r.attempt)
    else
      c.repeatRequest e r

/-- Deals with the events of the agent in order, up to the first that ends a
request. -/
def drain : List Event → Client → Option Event × Client
  | [], c => (none, c)
  | e :: rest, c =>
    match settle { c with agent := { c.agent with events := rest } } e with
    | (some e, c) => (some e, c)
    | (none, c) => drain rest c

/-- The next thing to report.  A deadline comes first, unless it was reported
and nothing was told since; then the ends of requests; then a deadline that a
repeated request brought with it. -/
def pollEvent (c : Client) : Option ClientEvent × Client :=
  match c.hint with
  | (some deadline, c) => (some (.timeout deadline), c)
  | (none, c) =>
    match drain c.agent.events c with
    | (some e, c) => (some (.transaction e), c)
    | (none, c) =>
      let (deadline?, c) := c.hint
      (deadline?.map .timeout, c)

/-! ### Runs -/

/-- A call of a client. -/
inductive Call where
  | write (m : Message) (now : Instant)
  | read (datagram : List UInt8)
  | event (input : ClientInput)
  | pollWrite
  | pollEvent
deriving DecidableEq

/-- What a call answers: whether it was refused, or what was taken. -/
inductive Answer where
  | done (result : Except Error Unit)
  | transmit (t? : Option Transmit)
  | event (e? : Option ClientEvent)

/-- Makes a call. -/
def perform (c : Client) : Call → Answer × Client
  | .write m now => let (r, c) := handleWrite m now c; (.done r, c)
  | .read datagram => let (r, c) := handleRead datagram c; (.done r, c)
  | .event input => let (r, c) := handleEvent input c; (.done r, c)
  | .pollWrite => let (t?, c) := c.pollWrite; (.transmit t?, c)
  | .pollEvent => let (e?, c) := c.pollEvent; (.event e?, c)

/-- Makes calls one after the other, and gathers what they answer. -/
def run (c : Client) : List Call → List Answer × Client
  | [] => ([], c)
  | call :: calls =>
    let (answer, c) := c.perform call
    let (answers, c) := c.run calls
    (answer :: answers, c)

end Client

end Stun
