/-
Stun/Proofs/Transaction/Calls.lean

What each call makes of an agent.

One lemma for each call lists its cases: when it is refused, and otherwise the
agent it leaves, field by field.  Only the journal is left open.  A closed
agent refuses, and what is refused leaves the agent as it was; an open one
refuses neither messages nor times (`process_of_open`, `collect_of_open`).

Main result: a transaction that the agent knows, because it is under way or
because its end waits to be taken, stays known under every call that takes no
event (`Knows.track`, `Knows.process`, `Knows.collect`, `Knows.close`).
-/
import Stun.Transaction.Agent

namespace Stun

/-- The event of a transaction that failed. -/
def Tracked.failed (e : Error) (t : Tracked) : Event := ⟨t.id, .failed e⟩

namespace Agent

variable {a : Agent} {id : TransactionId}

theorem isTracking_iff : a.isTracking id = true ↔ id ∈ a.tracked.map Tracked.id := by
  simp [isTracking]

/-! ### Cases of calls -/

theorem start_cases (id : TransactionId) (deadline : Instant) (a : Agent) :
    (a.closed = true ∧ start id deadline a = (.error .agentClosed, a)) ∨
    (a.closed = false ∧ a.isTracking id = true ∧
      start id deadline a = (.error .transactionExists, a)) ∨
    (a.closed = false ∧ a.isTracking id = false ∧ ∃ journal, start id deadline a
      = (.ok (), { a with tracked := a.tracked ++ [⟨id, deadline⟩], journal })) := by
  rcases Bool.eq_false_or_eq_true a.closed with hc | hc
  · exact .inl ⟨hc, by rw [start, if_pos hc]⟩
  · right
    have hopen : ¬ a.closed = true := by simp [hc]
    rcases Bool.eq_false_or_eq_true (a.isTracking id) with ht | ht
    · exact .inl ⟨hc, ht, by rw [start, if_neg hopen, if_pos ht]⟩
    · have hnew : ¬ a.isTracking id = true := by simp [ht]
      exact .inr ⟨hc, ht, _, by rw [start, if_neg hopen, if_neg hnew]; rfl⟩

theorem stop_cases (id : TransactionId) (a : Agent) :
    (a.closed = true ∧ stop id a = (.error .agentClosed, a)) ∨
    (a.closed = false ∧ a.isTracking id = false ∧
      stop id a = (.error .transactionUnknown, a)) ∨
    (a.closed = false ∧ a.isTracking id = true ∧ ∃ journal, stop id a
      = (.ok (), { a with
          tracked := a.tracked.filter (·.id ≠ id)
          events := a.events ++ [⟨id, .failed .transactionStopped⟩]
          journal })) := by
  rcases Bool.eq_false_or_eq_true a.closed with hc | hc
  · exact .inl ⟨hc, by rw [stop, if_pos hc]⟩
  · right
    have hopen : ¬ a.closed = true := by simp [hc]
    rcases Bool.eq_false_or_eq_true (a.isTracking id) with ht | ht
    · exact .inr ⟨hc, ht, _, by rw [stop, if_neg hopen, if_pos ht]; rfl⟩
    · have hnew : ¬ a.isTracking id = true := by simp [ht]
      exact .inl ⟨hc, ht, by rw [stop, if_neg hopen, if_neg hnew]⟩

theorem process_cases (m : Message) (a : Agent) :
    (a.closed = true ∧ process m a = (.error .agentClosed, a)) ∨
    (a.closed = false ∧ a.isTracking m.id = false ∧ ∃ journal, process m a
      = (.ok (), { a with journal })) ∨
    (a.closed = false ∧ a.isTracking m.id = true ∧ ∃ journal, process m a
      = (.ok (), { a with
          tracked := a.tracked.filter (·.id ≠ m.id)
          events := a.events ++ [⟨m.id, .answered m⟩]
          journal })) := by
  rcases Bool.eq_false_or_eq_true a.closed with hc | hc
  · exact .inl ⟨hc, by rw [process, if_pos hc]⟩
  · right
    have hopen : ¬ a.closed = true := by simp [hc]
    rcases Bool.eq_false_or_eq_true (a.isTracking m.id) with ht | ht
    · exact .inr ⟨hc, ht, _, by rw [process, if_neg hopen, if_pos ht]; rfl⟩
    · have hnew : ¬ a.isTracking m.id = true := by simp [ht]
      exact .inl ⟨hc, ht, _, by rw [process, if_neg hopen, if_neg hnew]; rfl⟩

/-- Transactions run out of time one after the other. -/
theorem foldl_expire (ts : List Tracked) (a : Agent) : ∃ journal, ts.foldl expire a
    = { a with
        tracked := a.tracked.filter (·.id ∉ ts.map Tracked.id)
        events := a.events ++ ts.map (Tracked.failed .transactionTimedOut)
        journal } := by
  induction ts generalizing a with
  | nil =>
    refine ⟨a.journal, ?_⟩
    have hall : a.tracked.filter (·.id ∉ ([] : List Tracked).map Tracked.id) = a.tracked :=
      List.filter_eq_self.mpr fun t _ => by simp
    rw [hall, List.foldl_nil, List.map_nil, List.append_nil]
  | cons t r ih =>
    obtain ⟨journal, h⟩ := ih (a.expire t)
    refine ⟨journal, ?_⟩
    rw [List.foldl_cons, h]
    simp only [expire, emit, report, note, drop, List.filter_filter, List.map_cons,
      List.append_assoc, List.singleton_append, Tracked.failed]
    congr 1
    -- an id is struck off with the first or with the rest
    refine List.filter_congr fun x _ => ?_
    simp only [List.mem_cons, not_or, ne_eq, Bool.decide_and, Bool.and_comm]

theorem collect_cases (now : Instant) (a : Agent) :
    (a.closed = true ∧ collect now a = (.error .agentClosed, a)) ∨
    (a.closed = false ∧ ∃ journal, collect now a
      = (.ok (), { a with
          tracked := a.tracked.filter (·.id ∉ (a.due now).map Tracked.id)
          events := a.events ++ (a.due now).map (Tracked.failed .transactionTimedOut)
          journal })) := by
  rcases Bool.eq_false_or_eq_true a.closed with hc | hc
  · exact .inl ⟨hc, by rw [collect, if_pos hc]⟩
  · obtain ⟨journal, h⟩ := foldl_expire (a.due now) a
    have hopen : ¬ a.closed = true := by simp [hc]
    exact .inr ⟨hc, journal, by rw [collect, if_neg hopen, h]⟩

/-- Transactions are given up one after the other. -/
theorem foldl_emit (ts : List Tracked) (e : Error) (a : Agent) :
    ts.foldl (fun a t => a.emit t.id (.failed e)) a
      = { a with events := a.events ++ ts.map (Tracked.failed e) } := by
  induction ts generalizing a with
  | nil => simp
  | cons t r ih =>
    rw [List.foldl_cons, ih]
    simp [emit, Tracked.failed]

theorem close_cases (a : Agent) :
    (a.closed = true ∧ close a = (.error .agentClosed, a)) ∨
    (a.closed = false ∧ ∃ journal, close a
      = (.ok (), { a with
          tracked := []
          events := a.events
            ++ (a.tracked.mergeSort Tracked.le).map (Tracked.failed .agentClosed)
          closed := true
          journal })) := by
  rcases Bool.eq_false_or_eq_true a.closed with hc | hc
  · exact .inl ⟨hc, by rw [close, if_pos hc]⟩
  · have hopen : ¬ a.closed = true := by simp [hc]
    refine .inr ⟨hc, ?_⟩
    rw [close, if_neg hopen]
    -- with nothing to give up there is nothing to note
    by_cases hnone : (a.tracked.mergeSort Tracked.le).isEmpty = true
    · exact ⟨a.journal, by simp only [hnone, if_true, foldl_emit]⟩
    · exact ⟨_, by simp only [hnone, foldl_emit]; rfl⟩

/-- An event that is taken leaves the queue, and nothing else changes. -/
theorem pollEvent_eq (a : Agent) :
    a.pollEvent = (a.events.head?, { a with events := a.events.tail }) := by
  rcases a with ⟨_, events, _, _⟩
  cases events <;> rfl

theorem closed_process (m : Message) (a : Agent) : (process m a).2.closed = a.closed := by
  obtain ⟨-, he⟩ | ⟨-, -, journal, he⟩ | ⟨-, -, journal, he⟩ := process_cases m a <;> rw [he]

theorem closed_collect (now : Instant) (a : Agent) : (collect now a).2.closed = a.closed := by
  obtain ⟨-, he⟩ | ⟨-, journal, he⟩ := collect_cases now a <;> rw [he]

theorem closed_close (a : Agent) : (close a).2.closed = true := by
  obtain ⟨hc, he⟩ | ⟨-, journal, he⟩ := close_cases a <;> rw [he]
  exact hc

/-! ### Open agents -/

section Open

variable (hopen : a.closed = false)
include hopen

theorem process_of_open (m : Message) : (process m a).1 = .ok () := by
  obtain ⟨hc, -⟩ | ⟨-, -, journal, he⟩ | ⟨-, -, journal, he⟩ := process_cases m a
  · simp [hopen] at hc
  · rw [he]
  · rw [he]

theorem collect_of_open (now : Instant) : (collect now a).1 = .ok () := by
  obtain ⟨hc, -⟩ | ⟨-, journal, he⟩ := collect_cases now a
  · simp [hopen] at hc
  · rw [he]

theorem close_of_open : (close a).1 = .ok () := by
  obtain ⟨hc, -⟩ | ⟨-, journal, he⟩ := close_cases a
  · simp [hopen] at hc
  · rw [he]

end Open

/-! ### Queues that only grow -/

theorem events_process (m : Message) (a : Agent) :
    ∃ more, (process m a).2.events = a.events ++ more := by
  obtain ⟨-, he⟩ | ⟨-, -, journal, he⟩ | ⟨-, -, journal, he⟩ := process_cases m a <;> rw [he]
  · exact ⟨[], (List.append_nil _).symm⟩
  · exact ⟨[], (List.append_nil _).symm⟩
  · exact ⟨_, rfl⟩

theorem events_collect (now : Instant) (a : Agent) :
    ∃ more, (collect now a).2.events = a.events ++ more := by
  obtain ⟨-, he⟩ | ⟨-, journal, he⟩ := collect_cases now a <;> rw [he]
  · exact ⟨[], (List.append_nil _).symm⟩
  · exact ⟨_, rfl⟩

theorem events_close (a : Agent) : ∃ more, (close a).2.events = a.events ++ more := by
  obtain ⟨-, he⟩ | ⟨-, journal, he⟩ := close_cases a <;> rw [he]
  · exact ⟨[], (List.append_nil _).symm⟩
  · exact ⟨_, rfl⟩

/-! ### Tables that only shrink -/

theorem mem_tracked_process {t : Tracked} {m : Message} (h : t ∈ (process m a).2.tracked) :
    t ∈ a.tracked := by
  obtain ⟨-, he⟩ | ⟨-, -, journal, he⟩ | ⟨-, -, journal, he⟩ := process_cases m a <;> rw [he] at h
  · exact h
  · exact h
  · exact (List.mem_filter.mp h).1

theorem mem_tracked_collect {t : Tracked} {now : Instant} (h : t ∈ (collect now a).2.tracked) :
    t ∈ a.tracked := by
  obtain ⟨-, he⟩ | ⟨-, journal, he⟩ := collect_cases now a <;> rw [he] at h
  · exact h
  · exact (List.mem_filter.mp h).1

theorem mem_tracked_close {t : Tracked} (h : t ∈ (close a).2.tracked) : t ∈ a.tracked := by
  obtain ⟨-, he⟩ | ⟨-, journal, he⟩ := close_cases a <;> rw [he] at h
  · exact h
  · cases h

/-! ### Transactions that are not forgotten -/

/-- The transaction is under way, or its end waits to be taken. -/
def Knows (a : Agent) (id : TransactionId) : Prop :=
  id ∈ a.tracked.map Tracked.id ∨ id ∈ a.events.map Event.id

/-- The tables decide what an agent knows. -/
theorem Knows.mono {a' : Agent} (h : a.Knows id)
    (htracked : ∀ t ∈ a.tracked, t.id ∈ a'.tracked.map Tracked.id ∨ t.id ∈ a'.events.map Event.id)
    (hevents : ∀ e ∈ a.events, e ∈ a'.events) : a'.Knows id := by
  rcases h with h | h
  · obtain ⟨t, ht, rfl⟩ := List.mem_map.mp h
    exact htracked t ht
  · obtain ⟨e, he, rfl⟩ := List.mem_map.mp h
    exact .inr (List.mem_map_of_mem (hevents e he))

/-- A transaction that is begun hides no other. -/
theorem Knows.track (h : a.Knows id) (t : Tracked) (journal : List Log.Entry) :
    { a with tracked := a.tracked ++ [t], journal }.Knows id := by
  refine h.mono (fun t' ht' => .inl ?_) fun e he => he
  exact List.mem_map_of_mem (List.mem_append_left _ ht')

theorem Knows.process (h : a.Knows id) (m : Message) : (process m a).2.Knows id := by
  obtain ⟨-, he⟩ | ⟨-, -, journal, he⟩ | ⟨-, -, journal, he⟩ := process_cases m a <;> rw [he]
  · exact h
  · exact h
  · refine h.mono (fun t ht => ?_) fun e he => List.mem_append_left _ he
    -- the transaction that is answered is the one whose end is queued
    by_cases hid : t.id = m.id
    · right
      simp [hid]
    · left
      exact List.mem_map_of_mem (List.mem_filter.mpr ⟨ht, by simpa using hid⟩)

theorem Knows.collect (h : a.Knows id) (now : Instant) : (collect now a).2.Knows id := by
  obtain ⟨-, he⟩ | ⟨-, journal, he⟩ := collect_cases now a <;> rw [he]
  · exact h
  · refine h.mono (fun t ht => ?_) fun e he => List.mem_append_left _ he
    -- the id decides, since an id that is due is struck off with every entry it has
    by_cases hid : t.id ∈ (a.due now).map Tracked.id
    · right
      obtain ⟨t', ht', hid'⟩ := List.mem_map.mp hid
      rw [List.map_append, List.map_map, List.mem_append]
      exact .inr (List.mem_map.mpr ⟨t', ht', hid'⟩)
    · left
      exact List.mem_map_of_mem (List.mem_filter.mpr ⟨ht, by simpa using hid⟩)

theorem Knows.close (h : a.Knows id) : (close a).2.Knows id := by
  obtain ⟨-, he⟩ | ⟨-, journal, he⟩ := close_cases a <;> rw [he]
  · exact h
  · refine h.mono (fun t ht => .inr ?_) fun e he => List.mem_append_left _ he
    rw [List.map_append, List.map_map, List.mem_append]
    exact .inr (List.mem_map.mpr ⟨t, List.mem_mergeSort.mpr ht, rfl⟩)

end Agent

end Stun
