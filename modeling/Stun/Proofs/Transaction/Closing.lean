/-
Stun/Proofs/Transaction/Closing.lean

A closed agent stays closed, and a refusal changes nothing.

Closing strikes every transaction off at once and puts one end for each behind
the events that wait, in the order of deadline and id; like a collection it
forgets in which order the table listed them (`Abandoned`).  From then on the
agent is shut: nothing is under way and nothing can be (`Shut`).  A call of a
shut agent is refused and leaves it as it is, or it takes the oldest event
(`Shut.perform_cases`), so a run of it is told by the number of its polls
alone (`Shut.run`).  That every agent which says it is closed is shut has to be
carried along a run, since only `close` writes both tables (`Settled`).

Main result: what a refusal leaves, what closing does, and all that can come
after it (`closed_for_good`).
-/
import Stun.Proofs.Transaction.Collection

namespace Stun

namespace Agent

variable {a : Agent}

/-! ### Refusals -/

/-- **A call that is refused changes nothing**, not even the journal. -/
theorem eq_of_perform_error {call : Call} {e : Error}
    (h : (a.perform call).1 = .done (.error e)) : (a.perform call).2 = a := by
  cases call with
  | start id deadline =>
    obtain ⟨-, he⟩ | ⟨-, -, he⟩ | ⟨-, -, journal, he⟩ := start_cases id deadline a
    · simp only [perform, he]
    · simp only [perform, he]
    · simp [perform, he] at h
  | stop id =>
    obtain ⟨-, he⟩ | ⟨-, -, he⟩ | ⟨-, -, journal, he⟩ := stop_cases id a
    · simp only [perform, he]
    · simp only [perform, he]
    · simp [perform, he] at h
  | process m =>
    obtain ⟨-, he⟩ | ⟨-, -, journal, he⟩ | ⟨-, -, journal, he⟩ := process_cases m a
    · simp only [perform, he]
    · simp [perform, he] at h
    · simp [perform, he] at h
  | collect now =>
    obtain ⟨-, he⟩ | ⟨-, journal, he⟩ := collect_cases now a
    · simp only [perform, he]
    · simp [perform, he] at h
  | close =>
    obtain ⟨-, he⟩ | ⟨-, journal, he⟩ := close_cases a
    · simp only [perform, he]
    · simp [perform, he] at h
  | pollEvent => simp [perform] at h

/-! ### Closing -/

/-- What closing makes of an agent, where `ended` are the transactions that it
ends. -/
structure Abandoned (a : Agent) (ended : List Tracked) : Prop where
  result : (close a).1 = .ok ()
  mem_ended : ∀ t, t ∈ ended ↔ t ∈ a.tracked
  ordered : ended.Pairwise Tracked.Before
  distinct : (ended.map Tracked.id).Nodup
  tracked : (close a).2.tracked = []
  events : (close a).2.events = a.events ++ ended.map (Tracked.failed .agentClosed)
  closed : (close a).2.closed = true

theorem Distinct.abandoned (h : a.Distinct) (hopen : a.closed = false) :
    a.Abandoned (a.tracked.mergeSort Tracked.le) := by
  have hperm := List.mergeSort_perm a.tracked Tracked.le
  obtain ⟨hc, -⟩ | ⟨-, journal, he⟩ := close_cases a
  · simp [hopen] at hc
  · exact ⟨close_of_open hopen, fun t => hperm.mem_iff, Tracked.pairwise_mergeSort h.nodup,
      (hperm.map Tracked.id).nodup_iff.mpr h, by rw [he], by rw [he], by rw [he]⟩

/-- **The order is canonical** when all are ended, as it is when some are. -/
theorem Distinct.mergeSort_congr {b : Agent} (ha : a.Distinct) (hb : b.Distinct)
    (hsame : ∀ t, t ∈ b.tracked ↔ t ∈ a.tracked) :
    b.tracked.mergeSort Tracked.le = a.tracked.mergeSort Tracked.le := by
  apply (Tracked.pairwise_mergeSort hb.nodup).eq_of_mem_iff (Tracked.pairwise_mergeSort ha.nodup)
  intro t
  rw [List.mem_mergeSort, List.mem_mergeSort, hsame]

/-! ### Shut agents -/

/-- The agent is closed, and nothing is under way. -/
structure Shut (a : Agent) : Prop where
  closed : a.closed = true
  tracked : a.tracked = []

theorem Shut.pollTimeout (h : a.Shut) : a.pollTimeout = none := by
  rw [Agent.pollTimeout, h.tracked]
  rfl

/-- What a call of a closed agent answers. -/
theorem perform_of_closed (hclosed : a.closed = true) {call : Call} (hcall : call ≠ .pollEvent) :
    a.perform call = (.done (.error .agentClosed), a) := by
  cases call with
  | pollEvent => exact absurd rfl hcall
  | start | stop | process | collect | close =>
    simp only [perform, start, stop, process, collect, close, if_pos hclosed]

/-- **One call** of a shut agent takes the oldest event, or it is refused. -/
theorem Shut.perform_cases (h : a.Shut) (call : Call) :
    (call = .pollEvent ∧
      a.perform call = (.event a.events.head?, { a with events := a.events.tail })) ∨
    (call ≠ .pollEvent ∧ a.perform call = (.done (.error .agentClosed), a)) := by
  by_cases hcall : call = .pollEvent
  · left
    subst hcall
    exact ⟨rfl, by simp only [perform, pollEvent_eq]⟩
  · exact .inr ⟨hcall, perform_of_closed h.closed hcall⟩

/-- The event that a poll brought, if the answer is that of a poll. -/
def Answer.polled? : Answer → Option (Option Event)
  | .event e? => some e?
  | .done _ => none

/-- What the polls of a run brought, one after the other. -/
def polls (answers : List Answer) : List (Option Event) := answers.filterMap Answer.polled?

/-- **Runs of a shut agent**: the polls bring the events that wait, from the
oldest on, then nothing; all else that is called has no effect. -/
theorem Shut.run (h : a.Shut) (calls : List Call) :
    let n := calls.count .pollEvent
    (a.run calls).2 = { a with events := a.events.drop n } ∧
      polls (a.run calls).1 = (List.range n).map (a.events[·]?) := by
  induction calls generalizing a with
  | nil => exact ⟨rfl, rfl⟩
  | cons call calls ih =>
    obtain ⟨rfl, he⟩ | ⟨hcall, he⟩ := h.perform_cases call
    · -- the first poll takes the head, and the others count on from the tail
      obtain ⟨hlast, hpolls⟩ := ih (a := { a with events := a.events.tail }) ⟨h.closed, h.tracked⟩
      have hrun : a.run (.pollEvent :: calls) = (.event a.events.head? ::
          (run { a with events := a.events.tail } calls).1,
          (run { a with events := a.events.tail } calls).2) := by
        rw [Agent.run, he]
      rw [hrun, List.count_cons_self]
      refine ⟨?_, ?_⟩
      · rw [hlast]
        simp only [List.drop_tail]
      · show a.events.head? :: polls _ = _
        rw [hpolls, List.range_succ_eq_map, List.map_cons, List.map_map, List.head?_eq_getElem?]
        congr 1
        apply List.map_congr_left
        intro k _
        exact List.getElem?_tail
    · obtain ⟨hlast, hpolls⟩ := ih h
      have hrun : a.run (call :: calls)
          = (.done (.error .agentClosed) :: (a.run calls).1, (a.run calls).2) := by
        rw [Agent.run, he]
      rw [hrun, List.count_cons_of_ne hcall]
      exact ⟨hlast, hpolls⟩

/-! ### Closed agents are shut -/

/-- If the agent is closed, it is shut. -/
def Settled (a : Agent) : Prop := a.closed = true → a.tracked = []

theorem Settled.perform (h : a.Settled) (call : Call) : (a.perform call).2.Settled := by
  rcases Bool.eq_false_or_eq_true a.closed with hclosed | hopen
  · -- a closed agent keeps its table, whatever is called
    obtain ⟨-, he⟩ | ⟨-, he⟩ := Shut.perform_cases ⟨hclosed, h hclosed⟩ call
    · rw [he]
      exact h
    · rw [he]
      exact h
  · -- an open one stays open, unless it is closed, and then its table is emptied
    have hstays : ∀ {b : Agent}, b.closed = a.closed → b.Settled := by
      intro b hb hclosed
      simp [hb, hopen] at hclosed
    cases call with
    | start id deadline =>
      apply hstays
      obtain ⟨-, he⟩ | ⟨-, -, he⟩ | ⟨-, -, journal, he⟩ := start_cases id deadline a <;>
        simp only [Agent.perform, he]
    | stop id =>
      apply hstays
      obtain ⟨-, he⟩ | ⟨-, -, he⟩ | ⟨-, -, journal, he⟩ := stop_cases id a <;>
        simp only [Agent.perform, he]
    | process m => exact hstays (closed_process m a)
    | collect now => exact hstays (closed_collect now a)
    | close =>
      obtain ⟨hc, -⟩ | ⟨-, journal, he⟩ := close_cases a
      · simp [hopen] at hc
      · intro _
        simp only [Agent.perform, he]
    | pollEvent => exact hstays (by simp only [Agent.perform, pollEvent_eq])

theorem Settled.run (h : a.Settled) (calls : List Call) : (a.run calls).2.Settled := by
  induction calls generalizing a with
  | nil => exact h
  | cons call calls ih => exact ih (h.perform call)

/-- Closing leaves an agent shut, be it for the first time or not. -/
theorem Settled.shut_close (h : a.Settled) : (close a).2.Shut := by
  refine ⟨closed_close a, ?_⟩
  have hafter := h.perform .close
  exact hafter (closed_close a)

/-! ### Closing is final -/

/-- **Closing is final.**  Whatever calls were made of an agent, one that is
refused leaves it as it was.  If the agent is open, closing it is not refused:
it strikes all transactions off and puts one end for each behind the events
that wait, strictly in the order of deadline and id; the ends are the same for
every open agent with the same transactions under way, in whatever order its
table lists them.  Whatever is called after that, the agent stays closed,
nothing is under way, there is no deadline to wait for, and all calls but polls
are refused for this reason.  The polls bring the events that were queued when
the agent was closed, from the first to the last, and then nothing. -/
theorem closed_for_good (calls : List Call) :
    let a := (empty.run calls).2
    let shut := (close a).2
    (∀ call e, (a.perform call).1 = .done (.error e) → (a.perform call).2 = a) ∧
    (a.closed = false → ∃ ended : List Tracked, a.Abandoned ended ∧
      ∀ (calls' : List Call) (tracked : List Tracked),
        let b := (empty.run calls').2
        b.closed = false → tracked.Perm b.tracked → (∀ t, t ∈ b.tracked ↔ t ∈ a.tracked) →
          { b with tracked }.Abandoned ended) ∧
    ∀ later : List Call,
      let last := (shut.run later).2
      last.closed = true ∧ last.tracked = [] ∧ last.pollTimeout = none ∧
      (∀ call, call ≠ .pollEvent → last.perform call = (.done (.error .agentClosed), last)) ∧
      polls (shut.run later).1 = (List.range (later.count .pollEvent)).map (shut.events[·]?) ∧
      last.events = shut.events.drop (later.count .pollEvent) := by
  intro a shut
  have ha : a.Distinct := distinct_run calls
  have hsettled : a.Settled := Settled.run (fun _ => rfl) calls
  have hshut : shut.Shut := hsettled.shut_close
  refine ⟨fun call e => eq_of_perform_error, ?_, ?_⟩
  · intro hopen
    refine ⟨_, ha.abandoned hopen, ?_⟩
    intro calls' tracked b hopen' hperm hsame
    have hb : { b with tracked }.Distinct :=
      (hperm.map Tracked.id).nodup_iff.mpr (distinct_run calls')
    have hsorted : tracked.mergeSort Tracked.le = a.tracked.mergeSort Tracked.le :=
      ha.mergeSort_congr (b := { b with tracked }) hb fun t => hperm.mem_iff.trans (hsame t)
    exact hsorted ▸ hb.abandoned hopen'
  · intro later last
    obtain ⟨hlast, hpolls⟩ := hshut.run later
    have hlast : last = { shut with events := shut.events.drop (later.count .pollEvent) } := hlast
    have hend : last.Shut := by
      rw [hlast]
      exact ⟨hshut.closed, hshut.tracked⟩
    exact ⟨hend.closed, hend.tracked, hend.pollTimeout,
      fun call hcall => perform_of_closed hend.closed hcall, hpolls, by rw [hlast]⟩

/-- One transaction was stopped and two are under way; the end of the first is
taken before theirs, which come in the order of their ids, and what is begun
too late has no end. -/
theorem closed_for_good_stopped :
    let id (n : UInt8) : TransactionId := ⟨List.replicate 12 n, List.length_replicate⟩
    let past := [.start (id 2) 5, .start (id 4) 9, .start (id 1) 5, .stop (id 4)]
    let later := [.pollEvent, .start (id 3) 7, .pollEvent, .close, .pollEvent, .pollEvent]
    let a := (empty.run past).2
    let shut := (close a).2
    a.closed = false ∧ a.tracked = [⟨id 2, 5⟩, ⟨id 1, 5⟩] ∧
      a.Abandoned [⟨id 1, 5⟩, ⟨id 2, 5⟩] ∧
      polls (shut.run later).1 = [some ⟨id 4, .failed .transactionStopped⟩,
        some ⟨id 1, .failed .agentClosed⟩, some ⟨id 2, .failed .agentClosed⟩, none] ∧
      (shut.run later).2.tracked = [] ∧ (shut.run later).2.pollTimeout = none := by
  intro id past later a shut
  have hopen : a.closed = false := by decide
  have htracked : a.tracked = [⟨id 2, 5⟩, ⟨id 1, 5⟩] := by decide
  have hevents : a.events = [⟨id 4, .failed .transactionStopped⟩] := by decide
  obtain ⟨-, hclosing, hafter⟩ := closed_for_good past
  obtain ⟨ended, hended, -⟩ := hclosing hopen
  have hperm : a.tracked.Perm [⟨id 1, 5⟩, ⟨id 2, 5⟩] := by decide
  have hordered : ended = [⟨id 1, 5⟩, ⟨id 2, 5⟩] := by
    refine hended.ordered.eq_of_mem_iff (by decide) fun t => ?_
    rw [hended.mem_ended, hperm.mem_iff]
  have hqueue : shut.events = [⟨id 4, .failed .transactionStopped⟩,
      ⟨id 1, .failed .agentClosed⟩, ⟨id 2, .failed .agentClosed⟩] := by
    rw [hended.events, hevents, hordered]
    rfl
  obtain ⟨-, hnone, htimeout, -, hpolls, -⟩ := hafter later
  refine ⟨hopen, htracked, hordered ▸ hended, ?_, hnone, htimeout⟩
  rw [hpolls, hqueue]
  rfl

end Agent

end Stun
