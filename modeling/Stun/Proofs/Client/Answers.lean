/-
Stun/Proofs/Client/Answers.lean

Which answers are reported.

A transaction ends for the client with the first event of its id that is
settled and not followed by another attempt.  Once the first event of an id in
the queue is such a one (`Destined`) nothing can come before it: events are
queued behind, the request is kept in the table whatever is written, and a
client that was closed stays so.  Hence it is reported as it is
(`Destined.run`), and the caller comes to it by asking often enough
(`Destined.eventually`).

An answer is destined as soon as it is queued, if no other event of its id is
in front of it.  But an attempt that ran out of time is struck off by the
agent at once, and begun again only when its event is settled; in between the
agent takes an answer for a late copy and drops it.  Main result: an answer to
a request that waits is the next thing reported for it, whatever is called in
between, exactly if no timeout of that id is queued (`answer_reported_iff`).
It can be lost while attempts are left (`answer_dropped_after_timeout`).
-/
import Stun.Proofs.Client.Conservation
import Stun.Proofs.Wire.Segment

namespace Stun

namespace Client

variable {c : Client} {id : TransactionId} {o : Outcome}

/-! ### Reports -/

/-- The outcome that a step reports for an id. -/
def Step.reported? (id : TransactionId) (s : Step) : Option Outcome :=
  match s.answer with
  | .event (some (.transaction e)) => if e.id = id then some e.outcome else none
  | _ => none

/-- The outcomes that a run reports for an id, in order. -/
def reported (id : TransactionId) (steps : List Step) : List Outcome :=
  steps.filterMap (Step.reported? id)

/-- Runs lead to the client from a fresh one. -/
def Reached (c : Client) : Prop :=
  ∃ (t : Tuning) (route : Route) (calls : List Call), ((ofTuning t route).run calls).2 = c

theorem Reached.sound (h : c.Reached) : c.Sound := by
  obtain ⟨t, route, calls, rfl⟩ := h
  exact sound_run t route calls

/-! ### Destined outcomes -/

/-- The request waits, and the first event of its id ends it with this outcome:
a timeout does so where no attempt can follow. -/
structure Destined (c : Client) (id : TransactionId) (o : Outcome) : Prop where
  waits : c.isWaiting id = true
  first : c.agent.events.find? (·.id = id) = some ⟨id, o⟩
  final : o = .failed .transactionTimedOut → c.agent.closed = true

/-- What is queued comes behind. -/
theorem Destined.extend {c' : Client} (h : c.Destined id o) (hwaits : c'.isWaiting id = true)
    {more : List Event} (hevents : c'.agent.events = c.agent.events ++ more)
    (hclosed : c.agent.closed = true → c'.agent.closed = true) : c'.Destined id o where
  waits := hwaits
  first := by rw [hevents, List.find?_append, h.first, Option.some_or]
  final := fun ho => hclosed (h.final ho)

/-- Settling an event with another id leaves the request waiting. -/
theorem isWaiting_settle (c : Client) {e : Event} (hne : e.id ≠ id) :
    (settle c e).2.isWaiting id = c.isWaiting id := by
  have hbalance := settle_balance c e id
  have hnone : (settle c e).1.any (·.id = id) = false := by
    rcases h : (settle c e).1 with - | e'
    · rfl
    · rw [eq_of_settle h]
      simpa using hne
  rw [hnone, Bool.toNat_false, Nat.zero_add] at hbalance
  revert hbalance
  cases c.isWaiting id <;> cases (settle c e).2.isWaiting id <;> simp

/-- **One turn**: the first event of the id ends its request, and any other
event leaves it as it was. -/
theorem Destined.turn (h : c.Destined id o) {e : Event} {rest : List Event}
    (hevents : c.agent.events = e :: rest) :
    (e = ⟨id, o⟩ ∧ (settle (c.take rest) e).1 = some e) ∨
    (e.id ≠ id ∧ (settle (c.take rest) e).2.Destined id o) := by
  have hfirst := h.first
  rw [hevents, List.find?_cons] at hfirst
  by_cases hid : e.id = id
  · left
    simp only [hid, decide_true, Option.some.injEq] at hfirst
    refine ⟨hfirst, ?_⟩
    subst hfirst
    obtain ⟨hnot, -⟩ | ⟨r, -, ⟨-, journal, he⟩ | ⟨ho, -, hopen, -⟩⟩ :=
      settle_cases (c.take rest) ⟨id, o⟩
    · exact absurd (isWaiting_iff.mp h.waits) hnot
    · rw [he]
    · -- another attempt needs an agent that is open
      have hclosed : (c.take rest).agent.closed = true := h.final ho
      rw [hclosed] at hopen
      cases hopen
  · right
    simp only [hid, decide_false] at hfirst
    refine ⟨hid, ?_⟩
    constructor
    case waits => exact (isWaiting_settle (c.take rest) hid).trans h.waits
    case first => rwa [settle_events]
    case final =>
      intro ho
      exact (closed_settle (c.take rest) e).trans (h.final ho)

/-- **The loop** hands on the event of the id, or that of another one before it. -/
theorem Destined.drain (events : List Event) (h : c.Destined id o)
    (hevents : c.agent.events = events) :
    ∃ e c', drain events c = (some e, c') ∧ (e = ⟨id, o⟩ ∨
      (e.id ≠ id ∧ c'.Destined id o ∧ c'.agent.events.length < events.length)) := by
  induction events generalizing c with
  | nil =>
    have hfirst := h.first
    rw [hevents] at hfirst
    cases hfirst
  | cons e rest ih =>
    have hleft : (settle (c.take rest) e).2.agent.events = rest := settle_events _ _
    rcases hs : settle (c.take rest) e with ⟨e? , c'⟩
    rcases h.turn hevents with ⟨he, hsome⟩ | ⟨hne, hnext⟩
    · rw [hs] at hsome
      obtain rfl : e? = some e := hsome
      exact ⟨e, c', drain_cons_some hs, .inl he⟩
    · rw [hs] at hnext hleft
      rcases e? with - | e'
      · obtain ⟨e', c'', hd, hcase⟩ := ih hnext hleft
        refine ⟨e', c'', (drain_cons_none hs).trans hd, hcase.imp_right ?_⟩
        rintro ⟨hne', hdest, hlt⟩
        exact ⟨hne', hdest, Nat.lt_succ_of_lt hlt⟩
      · obtain rfl : e' = e := eq_of_settle (congrArg Prod.fst hs)
        refine ⟨e', c', drain_cons_some hs, .inr ⟨hne, hnext, ?_⟩⟩
        rw [hleft, List.length_cons]
        exact Nat.lt_succ_self _

/-- Hints do not come into it. -/
theorem Destined.withHint (h : c.Destined id o) (lastHint? : Option Instant) :
    ({ c with lastHint? } : Client).Destined id o := ⟨h.waits, h.first, h.final⟩

/-- Once a deadline was reported the next poll comes to the events. -/
theorem hint_hint (c : Client) : c.hint.2.hint.1 = none := by
  rcases hp : c.pollTimeout with - | deadline
  · simp [hint, hp]
  · have hp' : ∀ lastHint?, ({ c with lastHint? } : Client).pollTimeout = some deadline :=
      fun _ => hp
    by_cases hlast : c.lastHint? = some deadline
    · simp [hint, hp, hlast]
    · simp [hint, hp, hlast, hp']

theorem pollEvent_of_hint {deadline : Instant} (h : c.hint.1 = some deadline) :
    c.pollEvent = (some (.timeout deadline), c.hint.2) := by
  rw [pollEvent]
  rcases e : c.hint with ⟨d?, c'⟩
  rw [e] at h
  obtain rfl : d? = some deadline := h
  rfl

/-- **A poll** that has no deadline to report comes to the end of a request. -/
theorem Destined.poll (h : c.Destined id o) (hnone : c.hint.1 = none) :
    c.pollEvent.1 = some (.transaction ⟨id, o⟩) ∨
    (∃ e, c.pollEvent.1 = some (.transaction e) ∧ e.id ≠ id ∧ c.pollEvent.2.Destined id o ∧
      c.pollEvent.2.agent.events.length < c.agent.events.length) := by
  obtain ⟨lastHint?, hkept⟩ := hint_cases c
  rw [pollEvent]
  rcases eh : c.hint with ⟨d?, c₁⟩
  rw [eh] at hkept hnone
  dsimp only at hkept hnone ⊢
  subst hkept hnone
  obtain ⟨e, c₂, hd, hcase⟩ := (h.withHint lastHint?).drain _ rfl
  dsimp only
  rw [hd]
  exact hcase.imp (fun he => by rw [he]) fun hother => ⟨e, rfl, hother⟩

/-- **One call** reports the outcome, or leaves it destined and reports none for the id. -/
theorem Destined.perform (h : c.Destined id o) (call : Call) :
    Step.reported? id ⟨c, call, (c.perform call).1⟩ = some o ∨
    (Step.reported? id ⟨c, call, (c.perform call).1⟩ = none ∧
      (c.perform call).2.Destined id o) := by
  cases call with
  | write m now =>
    refine .inr ⟨rfl, ?_⟩
    obtain ⟨-, e, he⟩ | ⟨-, -, -, deadline, journal, -, he⟩ := handleWrite_cases m now c <;>
      simp only [Client.perform, he]
    · exact h
    · -- a request that is overwritten still waits
      refine h.extend ?_ (List.append_nil _).symm fun hc => hc
      have hwaits : c.requests.any (·.id = _) = true := h.waits
      rw [isWaiting, any_keep c.requests ⟨m.id, 0, now, m.raw⟩, hwaits, Bool.true_or]
  | read datagram =>
    refine .inr ⟨rfl, ?_⟩
    obtain ⟨e, he⟩ | ⟨-, m, -, he⟩ := handleRead_cases datagram c <;>
      simp only [Client.perform, he]
    · exact h
    · obtain ⟨more, hmore⟩ := Agent.events_process m c.agent
      exact h.extend h.waits hmore fun hc => (Agent.closed_process m c.agent).trans hc
  | event input =>
    refine .inr ⟨rfl, ?_⟩
    cases input with
    | timeout now =>
      obtain ⟨-, he⟩ | ⟨-, horizon, -, he⟩ := handleEvent_timeout_cases now c <;>
        simp only [Client.perform, he]
      · exact h
      · obtain ⟨more, hmore⟩ := Agent.events_collect horizon c.agent
        exact h.extend h.waits hmore fun hc => (Agent.closed_collect horizon c.agent).trans hc
    | close =>
      obtain ⟨-, he⟩ | ⟨-, journal, he⟩ := handleEvent_close_cases c <;>
        simp only [Client.perform, he]
      · exact h
      · obtain ⟨more, hmore⟩ := Agent.events_close { c.agent with journal }
        exact h.extend h.waits hmore fun _ => Agent.closed_close _
  | pollWrite =>
    refine .inr ⟨rfl, ?_⟩
    simp only [Client.perform, pollWrite_eq]
    exact ⟨h.waits, h.first, h.final⟩
  | pollEvent =>
    rcases hhint : c.hint.1 with - | deadline
    · rcases h.poll hhint with hp | ⟨e, hp, hne, hafter, -⟩
      · exact .inl (by simp [Step.reported?, Client.perform, hp])
      · exact .inr ⟨by simp [Step.reported?, Client.perform, hp, hne], hafter⟩
    · obtain ⟨lastHint?, hkept⟩ := hint_cases c
      refine .inr ⟨by simp [Step.reported?, Client.perform, pollEvent_of_hint hhint], ?_⟩
      simp only [Client.perform, pollEvent_of_hint hhint, hkept]
      exact h.withHint lastHint?

/-- **A destined outcome is the next one reported**, whatever is called. -/
theorem Destined.run (h : c.Destined id o) (calls : List Call) :
    (reported id (c.steps calls)).head? = some o ∨
    (reported id (c.steps calls) = [] ∧ (c.run calls).2.Destined id o) := by
  induction calls generalizing c with
  | nil => exact .inr ⟨rfl, h⟩
  | cons call calls ih =>
    rcases h.perform call with hreport | ⟨hnone, hnext⟩
    · exact .inl (by simp [reported, steps, hreport])
    · have hsame : reported id (c.steps (call :: calls))
          = reported id ((c.perform call).2.steps calls) := by
        simp [reported, steps, hnone]
      rw [hsame]
      exact ih hnext

/-- The reports of a run are those of its first step and those of the rest. -/
theorem reported_cons (id : TransactionId) (c : Client) (call : Call) (calls : List Call) :
    reported id (c.steps (call :: calls))
      = (Step.reported? id ⟨c, call, (c.perform call).1⟩).toList
        ++ reported id ((c.perform call).2.steps calls) := by
  rw [reported, steps, List.filterMap_cons]
  rcases Step.reported? id ⟨c, call, (c.perform call).1⟩ with - | o <;> rfl

theorem Destined.events_pos (h : c.Destined id o) : 0 < c.agent.events.length :=
  List.length_pos_of_mem (List.mem_of_find?_eq_some h.first)

/-- **A destined outcome is reported**, after at most two polls for each event
in the queue: one for a deadline, and one for the end of a request. -/
theorem Destined.eventually (h : c.Destined id o) :
    ∃ k ≤ 2 * c.agent.events.length,
      reported id (c.steps (List.replicate k .pollEvent)) = [o] := by
  induction n : c.agent.events.length using Nat.strongRecOn generalizing c with
  | ind n ih =>
    subst n
    -- a poll that has no deadline to report takes an event at least
    have hdrain : ∀ c' : Client, c'.Destined id o →
        c'.agent.events.length = c.agent.events.length → c'.hint.1 = none →
        ∃ k < 2 * c.agent.events.length,
          reported id (c'.steps (List.replicate k .pollEvent)) = [o] := by
      intro c' h' hlength hnone
      have hpos := h'.events_pos
      rcases h'.poll hnone with hp | ⟨e, hp, hne, hnext, hlt⟩
      · refine ⟨1, by omega, ?_⟩
        rw [List.replicate_one, reported_cons]
        simp [Client.perform, hp, Step.reported?, reported, steps]
      · obtain ⟨k, hk, hreport⟩ := ih _ (by omega) hnext rfl
        refine ⟨k + 1, by omega, ?_⟩
        rw [List.replicate_succ, reported_cons]
        simpa [Client.perform, hp, Step.reported?, hne] using hreport
    rcases hhint : c.hint.1 with - | deadline
    · obtain ⟨k, hk, hreport⟩ := hdrain c h rfl hhint
      exact ⟨k, by omega, hreport⟩
    · obtain ⟨lastHint?, hkept⟩ := hint_cases c
      have hafter : c.hint.2.Destined id o := hkept ▸ h.withHint lastHint?
      obtain ⟨k, hk, hreport⟩ := hdrain c.hint.2 hafter (by rw [hkept]) (hint_hint c)
      refine ⟨k + 1, by omega, ?_⟩
      rw [List.replicate_succ, reported_cons]
      simpa [Client.perform, pollEvent_of_hint hhint, Step.reported?] using hreport

/-! ### Answers -/

/-- While the agent is open, what is queued is an answer or a timeout. -/
def Unaborted (c : Client) : Prop :=
  c.agent.closed = false → ∀ e ∈ c.agent.events,
    (∃ m, e.outcome = .answered m) ∨ e.outcome = .failed .transactionTimedOut

theorem Unaborted.perform (h : c.Unaborted) (call : Call) : (c.perform call).2.Unaborted := by
  cases call with
  | write m now =>
    obtain ⟨-, e, he⟩ | ⟨-, -, -, deadline, journal, -, he⟩ := handleWrite_cases m now c <;>
      simp only [Client.perform, he] <;> exact h
  | read datagram =>
    obtain ⟨e, he⟩ | ⟨-, m, -, he⟩ := handleRead_cases datagram c <;>
      simp only [Client.perform, he]
    · exact h
    · obtain ⟨-, hp⟩ | ⟨-, -, journal, hp⟩ | ⟨-, -, journal, hp⟩ :=
        Agent.process_cases m c.agent <;> simp only [hp]
      · exact h
      · exact h
      · intro hopen e he
        rcases List.mem_append.mp he with he | he
        · exact h hopen e he
        · exact .inl ⟨m, by rw [List.mem_singleton.mp he]⟩
  | event input =>
    cases input with
    | timeout now =>
      obtain ⟨-, he⟩ | ⟨-, horizon, -, he⟩ := handleEvent_timeout_cases now c <;>
        simp only [Client.perform, he]
      · exact h
      · obtain ⟨-, hp⟩ | ⟨-, journal, hp⟩ := Agent.collect_cases horizon c.agent <;>
          simp only [hp]
        · exact h
        · intro hopen e he
          rcases List.mem_append.mp he with he | he
          · exact h hopen e he
          · obtain ⟨t, -, rfl⟩ := List.mem_map.mp he
            exact .inr rfl
    | close =>
      obtain ⟨-, he⟩ | ⟨-, journal, he⟩ := handleEvent_close_cases c <;>
        simp only [Client.perform, he]
      · exact h
      · intro hopen
        rw [Agent.closed_close] at hopen
        cases hopen
  | pollWrite =>
    simp only [Client.perform, pollWrite_eq]
    exact h
  | pollEvent =>
    refine pollEvent_preserves (P := Unaborted) (fun _ _ h => h) (fun c e rest h hevents => ?_) h
    intro hopen e' he'
    rw [settle_events] at he'
    rw [closed_settle] at hopen
    exact h hopen e' (hevents ▸ List.mem_cons_of_mem e he')

theorem Reached.unaborted (h : c.Reached) : c.Unaborted := by
  obtain ⟨t, route, calls, rfl⟩ := h
  refine run_preserves (fun _ call hc => hc.perform call) ?_ calls
  intro _ e he
  cases he

/-- A first event that no answer is, is a timeout, as long as the client is open. -/
theorem Reached.find?_timedOut (h : c.Reached) (hopen : c.closed = false)
    (hnone : ∀ m, ⟨id, .answered m⟩ ∉ c.agent.events) :
    c.agent.events.find? (·.id = id) = none ∨
    c.agent.events.find? (·.id = id) = some ⟨id, .failed .transactionTimedOut⟩ := by
  rcases hfirst : c.agent.events.find? (·.id = id) with - | ⟨id', outcome⟩
  · exact .inl hfirst
  · have hid : id' = id := by simpa using List.find?_some hfirst
    have hmem := List.mem_of_find?_eq_some hfirst
    subst hid
    rcases h.unaborted (h.sound.closed.trans hopen) _ hmem with ⟨m, hm⟩ | htimeout
    · obtain rfl : outcome = .answered m := hm
      exact absurd hmem (hnone m)
    · obtain rfl : outcome = .failed .transactionTimedOut := htimeout
      exact .inr hfirst

/-- An answer is destined if the transaction is under way and no event of its id is queued. -/
theorem destined_of_process {m : Message} (hopen : c.agent.closed = false)
    (hwaits : c.isWaiting m.id = true) (ht : c.agent.isTracking m.id = true)
    (hfirst : c.agent.events.find? (·.id = m.id) = none) (lastHint? : Option Instant) :
    ({ c with agent := (Agent.process m c.agent).2, lastHint? } : Client).Destined m.id
      (.answered m) where
  waits := hwaits
  first := by
    obtain ⟨hc, -⟩ | ⟨-, hnot, -⟩ | ⟨-, -, journal, hp⟩ := Agent.process_cases m c.agent
    · rw [hopen] at hc
      cases hc
    · rw [ht] at hnot
      cases hnot
    · simp [hp, List.find?_append, hfirst]
  final := by simp

/-- Where a timeout is the first event of its id, closing the client makes it final. -/
theorem destined_of_close (hopen : c.closed = false) (hwaits : c.isWaiting id = true)
    (hfirst : c.agent.events.find? (·.id = id) = some ⟨id, o⟩) :
    (c.perform (.event .close)).2.Destined id o := by
  obtain ⟨hc, -⟩ | ⟨-, journal, he⟩ := handleEvent_close_cases c
  · rw [hopen] at hc
    cases hc
  · obtain ⟨more, hmore⟩ := Agent.events_close { c.agent with journal }
    simp only [perform, he]
    refine ⟨hwaits, ?_, fun _ => Agent.closed_close _⟩
    rw [hmore, List.find?_append, hfirst, Option.some_or]

/-- What is read by a client that is open comes to its agent. -/
theorem handleRead_eq (hopen : c.closed = false) {datagram : List UInt8} {m : Message}
    (hd : Message.decode datagram = .ok m) :
    handleRead datagram c = ((Agent.process m c.agent).1,
      { c with agent := (Agent.process m c.agent).2, lastHint? := none }) := by
  simp only [handleRead, hopen, hd, Bool.false_eq_true, if_false]

/-- An answer is destined if no timeout of its id is queued when it comes. -/
theorem Reached.answer_destined (h : c.Reached) {m : Message} (hopen : c.closed = false)
    (hwaits : c.isWaiting m.id = true) (hnone : ∀ m', ⟨m.id, .answered m'⟩ ∉ c.agent.events)
    (htimeout : ⟨m.id, .failed .transactionTimedOut⟩ ∉ c.agent.events)
    (lastHint? : Option Instant) :
    ({ c with agent := (Agent.process m c.agent).2, lastHint? } : Client).Destined m.id
      (.answered m) := by
  have hfirst := (h.find?_timedOut hopen hnone).resolve_right
    fun hfound => htimeout (List.mem_of_find?_eq_some hfound)
  -- what waits and has no event queued is under way
  have ht : c.agent.isTracking m.id = true := by
    rw [Agent.isTracking_iff]
    refine (h.sound.known _ (isWaiting_iff.mp hwaits)).resolve_right fun hqueued => ?_
    obtain ⟨e, he, hid⟩ := List.mem_map.mp hqueued
    have hnot := List.find?_eq_none.mp hfirst e he
    simp [hid] at hnot
  exact destined_of_process (h.sound.closed.trans hopen) hwaits ht hfirst lastHint?

/-- A timeout that is queued when an answer comes can still be made final, by
closing the client. -/
theorem Reached.timeout_destined (h : c.Reached) {m : Message} (hopen : c.closed = false)
    (hwaits : c.isWaiting m.id = true) (hnone : ∀ m', ⟨m.id, .answered m'⟩ ∉ c.agent.events)
    (htimeout : ⟨m.id, .failed .transactionTimedOut⟩ ∈ c.agent.events)
    (lastHint? : Option Instant) :
    (({ c with agent := (Agent.process m c.agent).2, lastHint? } : Client).perform
      (.event .close)).2.Destined m.id (.failed .transactionTimedOut) := by
  have hfirst := (h.find?_timedOut hopen hnone).resolve_left fun hfound => by
    have hnot := List.find?_eq_none.mp hfound _ htimeout
    simp at hnot
  obtain ⟨more, hmore⟩ := Agent.events_process m c.agent
  refine destined_of_close hopen hwaits ?_
  rw [hmore, List.find?_append, hfirst, Option.some_or]

/-- **Answers and timeouts.**  An answer to a request that waits is taken.  It
is the next outcome reported for the id, whatever is called in between, exactly
if no timeout of that id was queued when it came, and then asking often enough
brings it out.  If the timeout was that of the attempt under way, the agent has
struck the transaction off, and the answer changes neither table. -/
theorem answer_reported_iff (h : c.Reached) (hopen : c.closed = false)
    (hwaits : c.isWaiting id = true) (hnone : ∀ m, ⟨id, .answered m⟩ ∉ c.agent.events)
    {datagram : List UInt8} {m : Message} (hd : Message.decode datagram = .ok m)
    (hid : m.id = id) :
    let next := (handleRead datagram c).2
    (handleRead datagram c).1 = .ok () ∧
    ((∀ later o, (reported id (next.steps later)).head? = some o → o = .answered m) ↔
      ⟨id, .failed .transactionTimedOut⟩ ∉ c.agent.events) ∧
    (⟨id, .failed .transactionTimedOut⟩ ∉ c.agent.events →
      ∀ later, reported id (next.steps later) = [] →
        ∃ k, reported id ((next.run later).2.steps (List.replicate k .pollEvent))
          = [.answered m]) ∧
    (c.agent.isTracking id = false →
      next.requests = c.requests ∧ next.agent.tracked = c.agent.tracked ∧
        next.agent.events = c.agent.events) := by
  intro next
  subst hid
  have hagent : c.agent.closed = false := h.sound.closed.trans hopen
  have hread := handleRead_eq hopen hd
  have hnext : next = { c with agent := (Agent.process m c.agent).2, lastHint? := none } :=
    congrArg Prod.snd hread
  have hanswer : ⟨m.id, .failed .transactionTimedOut⟩ ∉ c.agent.events →
      next.Destined m.id (.answered m) :=
    fun htimeout => hnext ▸ h.answer_destined hopen hwaits hnone htimeout none
  refine ⟨?_, ⟨?_, ?_⟩, ?_, ?_⟩
  · rw [hread]
    obtain ⟨hc, -⟩ | ⟨-, -, journal, hp⟩ | ⟨-, -, journal, hp⟩ := Agent.process_cases m c.agent
    · rw [hagent] at hc
      cases hc
    · rw [hp]
    · rw [hp]
  · intro hall htimeout
    have hdest : (next.perform (.event .close)).2.Destined m.id (.failed .transactionTimedOut) :=
      hnext ▸ h.timeout_destined hopen hwaits hnone htimeout none
    obtain ⟨k, -, hreport⟩ := hdest.eventually
    have hwrong := hall (.event .close :: List.replicate k .pollEvent)
      (.failed .transactionTimedOut) (by rw [reported_cons, hreport]; rfl)
    cases hwrong
  · intro htimeout later outcome hreport
    rcases (hanswer htimeout).run later with hhead | ⟨hnil, -⟩
    · exact Option.some.inj (hreport.symm.trans hhead)
    · rw [hnil] at hreport
      cases hreport
  · intro htimeout later hnil
    rcases (hanswer htimeout).run later with hhead | ⟨-, hlater⟩
    · rw [hnil] at hhead
      cases hhead
    · obtain ⟨k, -, hreport⟩ := hlater.eventually
      exact ⟨k, hreport⟩
  · intro hnot
    obtain ⟨hc, -⟩ | ⟨-, -, journal, hp⟩ | ⟨-, ht, -⟩ := Agent.process_cases m c.agent
    · rw [hagent] at hc
      cases hc
    · rw [hnext, hp]
      exact ⟨rfl, rfl, rfl⟩
    · rw [hnot] at ht
      cases ht

/-- An answer that comes at once is what is reported, whatever is called after it. -/
theorem answer_reported_at_once :
    let request := Message.new ⟨⟨1⟩, .request⟩ .zero
    let response := Message.new ⟨⟨1⟩, .successResponse⟩ .zero
    let here : Endpoint := ⟨⟨.v4, [10, 0, 0, 2], rfl⟩, 40000⟩
    let there : Endpoint := ⟨⟨.v4, [198, 51, 100, 1], rfl⟩, 3478⟩
    let c := ((ofTuning {} ⟨here, there, .udp⟩).run [.write request 0]).2
    c.Reached ∧ c.closed = false ∧ c.isWaiting .zero = true ∧
      (∀ m, ⟨.zero, .answered m⟩ ∉ c.agent.events) ∧
      Message.decode response.encode = .ok response ∧ response.id = .zero ∧
      ∀ later o, (reported .zero ((handleRead response.encode c).2.steps later)).head? = some o →
        o = .answered response := by
  intro request response here there c
  have hreached : c.Reached := ⟨_, _, _, rfl⟩
  have hopen : c.closed = false := by decide +kernel
  have hwaits : c.isWaiting .zero = true := by decide +kernel
  have hevents : c.agent.events = [] := by decide +kernel
  have hnone : ∀ m, ⟨.zero, .answered m⟩ ∉ c.agent.events := by simp [hevents]
  have hd : Message.decode response.encode = .ok response :=
    Message.decode_eq_ok_iff.mpr ⟨0x0101, .zero, [], by decide, rfl, rfl⟩
  have hreport := (answer_reported_iff hreached hopen hwaits hnone hd rfl).2.1
  exact ⟨hreached, hopen, hwaits, hnone, hd, rfl, hreport.mpr (by simp [hevents])⟩

/-- An answer comes before the only repetition of a request is sent, but after
the timeout of its first attempt: it is dropped, and a timeout is reported. -/
theorem answer_dropped_after_timeout :
    let request := Message.new ⟨⟨1⟩, .request⟩ .zero
    let response := Message.new ⟨⟨1⟩, .successResponse⟩ .zero
    let here : Endpoint := ⟨⟨.v4, [10, 0, 0, 2], rfl⟩, 40000⟩
    let there : Endpoint := ⟨⟨.v4, [198, 51, 100, 1], rfl⟩, 3478⟩
    let c := ((ofTuning { maxAttempts := 1 } ⟨here, there, .udp⟩).run
      [.write request 0, .event (.timeout 300000000)]).2
    let later := [.pollEvent, .event (.timeout 900000000), .pollEvent]
    c.closed = false ∧ c.isWaiting .zero = true ∧
      c.agent.events = [⟨.zero, .failed .transactionTimedOut⟩] ∧
      (∃ r ∈ c.requests, r.attempt < c.maxAttempts) ∧
      Message.decode response.encode = .ok response ∧ response.id = .zero ∧
      reported .zero ((handleRead response.encode c).2.steps later)
        = [.failed .transactionTimedOut] := by
  refine ⟨?_, ?_, ?_, ?_, ?_, rfl, ?_⟩
  case refine_5 => exact Message.decode_eq_ok_iff.mpr ⟨0x0101, .zero, [], by decide, rfl, rfl⟩
  all_goals decide +kernel

end Client

end Stun
