/-
Stun/Proofs/Client/Polling.lean

Polling comes to an end, and leaves no deadline unreported.

A poll reports a deadline only if it differs from the one that was reported
last, and the end of a request only for an event that it takes from the queue.
A repeated request may bring a new deadline, but it costs an event as well.  So
the events in the queue, and one more where a deadline is to be reported, bound
what polls can still report (`rank`): a turn of the event loop does not raise
that number (`rank_turn`), and a report uses some of it up (`rank_pollEvent`).

Which deadline was reported last is forgotten when the client is told
something.  Until then transactions are only added to those under way, so the
earliest deadline can only move forward (`Hinted`), and the next one that is
reported lies before the last.

Main result: what is left when there is nothing to report, and how the reports
between two inputs run (`polls_exhausted`).
-/
import Stun.Proofs.Client.Stages

namespace Stun

/-- The deadline that a report tells. -/
def ClientEvent.deadline? : ClientEvent → Option Instant
  | .timeout deadline => some deadline
  | .transaction _ => none

namespace Client

variable {c c' : Client} {call : Call} {deadline : Instant}

/-! ### Reports and inputs -/

/-- What a step reported. -/
def Step.returned? (s : Step) : Option ClientEvent :=
  match s.answer with
  | .event e? => e?
  | _ => none

/-- The reports of a run, in order. -/
def returned (steps : List Step) : List ClientEvent := steps.filterMap Step.returned?

/-- The deadlines that a run reports, in order. -/
def deadlines (steps : List Step) : List Instant :=
  (returned steps).filterMap ClientEvent.deadline?

/-- The step told the client something, and was not refused. -/
def Step.tells (s : Step) : Bool :=
  match s.answer with
  | .done (.ok ()) => true
  | _ => false

/-- The deadline that was reported last since anything was told, after a step more. -/
def Step.latest? (last? : Option Instant) (s : Step) : Option Instant :=
  if s.tells then none else (s.returned?.bind ClientEvent.deadline?).or last?

/-- The deadline that a run reported last since anything was told. -/
def latest? (steps : List Step) : Option Instant := steps.foldl Step.latest? none

theorem returned?_pollEvent (c : Client) : (c.step .pollEvent).returned? = c.pollEvent.1 := rfl

theorem returned_cons (s : Step) (steps : List Step) :
    returned (s :: steps) = s.returned?.toList ++ returned steps := by
  rw [returned, List.filterMap_cons]
  rcases s.returned? with - | e <;> rfl

theorem deadlines_cons (s : Step) (steps : List Step) :
    deadlines (s :: steps)
      = (s.returned?.bind ClientEvent.deadline?).toList ++ deadlines steps := by
  rw [deadlines, returned_cons, List.filterMap_append]
  congr 1
  rcases s.returned? with - | e
  · rfl
  · cases e <;> rfl

/-! ### Deadlines to be reported -/

/-- The earliest deadline is to be reported, unless it was reported last. -/
theorem hint_due_cases (c : Client) :
    ((c.pollTimeout = none ∨ c.pollTimeout = c.lastHint?) ∧ c.hint = (none, c)) ∨
    ∃ deadline, c.pollTimeout = some deadline ∧ c.lastHint? ≠ some deadline ∧
      c.hint = (some deadline, { c with lastHint? := some deadline }) := by
  rw [hint]
  rcases hp : c.pollTimeout with - | deadline
  · exact .inl ⟨.inl rfl, rfl⟩
  · by_cases hlast : c.lastHint? = some deadline
    · exact .inl ⟨.inr hlast.symm, if_pos hlast⟩
    · exact .inr ⟨deadline, rfl, hlast, if_neg hlast⟩

/-- What is to be reported depends on the deadlines and the last report. -/
theorem hint_congr (htracked : c'.agent.tracked = c.agent.tracked)
    (hlast : c'.lastHint? = c.lastHint?) : c'.hint.1 = c.hint.1 := by
  have hfirst : ∀ c : Client,
      c.hint.1 = if c.pollTimeout = c.lastHint? then none else c.pollTimeout := by
    intro c
    obtain ⟨hnone | hsame, he⟩ | ⟨deadline, hp, hne, he⟩ := hint_due_cases c
    · rw [he, hnone, ite_self]
    · rw [he, if_pos hsame]
    · rw [he, hp, if_neg (Ne.symm hne)]
  rw [hfirst, hfirst, hlast, pollTimeout, pollTimeout, Agent.pollTimeout, htracked]
  rfl

/-- A turn of the event loop may add a deadline, but not where it hands an event on. -/
theorem settle_deadlines (c : Client) (e : Event) :
    (settle c e).2.lastHint? = c.lastHint? ∧
    ∃ more, (settle c e).2.agent.tracked = c.agent.tracked ++ more ∧
      ((settle c e).1.isSome → more = []) := by
  obtain ⟨-, he⟩ | ⟨r, -, ⟨-, journal, he⟩ | ⟨-, -, -, -, deadline, journal, -, he⟩⟩ :=
    settle_cases c e <;> rw [he]
  · exact ⟨rfl, [], (List.append_nil _).symm, fun _ => rfl⟩
  · exact ⟨rfl, [], (List.append_nil _).symm, fun _ => rfl⟩
  · exact ⟨rfl, _, rfl, fun h => by cases h⟩

/-- The loop leaves the last report as it was, and may add deadlines. -/
theorem drain_deadlines (c : Client) :
    (drain c.agent.events c).2.lastHint? = c.lastHint? ∧
    ∃ more, (drain c.agent.events c).2.agent.tracked = c.agent.tracked ++ more := by
  refine drain_preserves (P := fun c' => c'.lastHint? = c.lastHint? ∧
    ∃ more, c'.agent.tracked = c.agent.tracked ++ more) ?_ c ⟨rfl, [], (List.append_nil _).symm⟩
  rintro c₁ e rest ⟨hlast, more, htracked⟩ -
  obtain ⟨hlast', more', htracked', -⟩ := settle_deadlines (c₁.take rest) e
  refine ⟨hlast'.trans hlast, more ++ more', ?_⟩
  rw [htracked', ← List.append_assoc, ← htracked]
  rfl

/-- A loop that hands nothing on has taken every event. -/
theorem events_drain (events : List Event) (c : Client) (hevents : c.agent.events = events)
    (hnone : (drain events c).1 = none) : (drain events c).2.agent.events = [] := by
  induction events generalizing c with
  | nil => exact hevents
  | cons e rest ih =>
    have hleft : (settle (c.take rest) e).2.agent.events = rest := settle_events _ _
    rcases hs : settle (c.take rest) e with ⟨- | e', c'⟩ <;> rw [hs] at hleft
    · rw [drain_cons_none hs] at hnone ⊢
      exact ih c' hleft hnone
    · rw [drain_cons_some hs] at hnone
      cases hnone

/-! ### Three kinds of polls -/

/-- A poll reports a deadline that is to be reported, or the end of a request,
or, with all events taken, a deadline that the loop has brought. -/
theorem pollEvent_cases (c : Client) :
    (∃ deadline, c.hint.1 = some deadline ∧
      c.pollEvent = (some (.timeout deadline), c.hint.2)) ∨
    (c.hint = (none, c) ∧ ∃ e c', drain c.agent.events c = (some e, c') ∧
      c.pollEvent = (some (.transaction e), c')) ∨
    (c.hint = (none, c) ∧ ∃ c', drain c.agent.events c = (none, c') ∧ c'.agent.events = [] ∧
      c.pollEvent = (c'.hint.1.map .timeout, c'.hint.2)) := by
  obtain ⟨-, hnone⟩ | ⟨deadline, -, -, hsome⟩ := hint_due_cases c
  · right
    rcases hd : drain c.agent.events c with ⟨- | e, c'⟩
    · have hempty := events_drain _ c rfl (congrArg Prod.fst hd)
      rw [hd] at hempty
      refine .inr ⟨hnone, c', rfl, hempty, ?_⟩
      simp only [pollEvent, hnone, hd]
    · refine .inl ⟨hnone, e, c', rfl, ?_⟩
      simp only [pollEvent, hnone, hd]
  · have hfirst : c.hint.1 = some deadline := congrArg Prod.fst hsome
    exact .inl ⟨deadline, hfirst, pollEvent_of_hint hfirst⟩

/-! ### How much can be reported -/

/-- The events in the queue, and one more if a deadline is to be reported. -/
def rank (c : Client) : Nat := c.agent.events.length + c.hint.1.isSome.toNat

theorem rank_le (c : Client) : c.rank ≤ c.agent.events.length + 1 :=
  Nat.add_le_add_left (Bool.toNat_le _) _

/-- A deadline that is reported counts once. -/
theorem rank_hint (c : Client) : c.hint.2.rank + c.hint.1.isSome.toNat = c.rank := by
  obtain ⟨lastHint?, hkept⟩ := hint_cases c
  have hagain : c.hint.2.rank = c.hint.2.agent.events.length := by
    rw [rank, hint_hint]
    rfl
  rw [hagain, hkept, rank]

/-- **One turn**: an event is taken, and at most a deadline is added in its
place; where it is handed on, none is. -/
theorem rank_turn {e : Event} {rest : List Event} (hevents : c.agent.events = e :: rest) :
    (settle (c.take rest) e).2.rank + (settle (c.take rest) e).1.isSome.toNat ≤ c.rank := by
  have hleft : (settle (c.take rest) e).2.agent.events = rest := settle_events _ _
  obtain ⟨hlast, more, htracked, hmore⟩ := settle_deadlines (c.take rest) e
  rw [rank, rank, hleft, hevents, List.length_cons]
  rcases hs : (settle (c.take rest) e).1 with - | e'
  · -- a repetition may bring a deadline that is to be reported
    have hone := Bool.toNat_le (settle (c.take rest) e).2.hint.1.isSome
    rw [Option.isSome_none, Bool.toNat_false]
    omega
  · -- the deadlines are those of before
    rw [hmore (by rw [hs]; rfl), List.append_nil] at htracked
    rw [hint_congr (c := c) htracked hlast, Option.isSome_some, Bool.toNat_true]
    omega

theorem rank_drain (events : List Event) (c : Client) (hevents : c.agent.events = events) :
    (drain events c).2.rank + (drain events c).1.isSome.toNat ≤ c.rank := by
  induction events generalizing c with
  | nil => exact Nat.le_refl _
  | cons e rest ih =>
    have hturn := rank_turn hevents
    have hleft : (settle (c.take rest) e).2.agent.events = rest := settle_events _ _
    rcases hs : settle (c.take rest) e with ⟨- | e', c'⟩ <;> rw [hs] at hturn hleft
    · rw [drain_cons_none hs]
      exact (ih c' hleft).trans hturn
    · rw [drain_cons_some hs]
      exact hturn

/-- **A report uses rank up.** -/
theorem rank_pollEvent (c : Client) :
    c.pollEvent.2.rank + c.pollEvent.1.isSome.toNat ≤ c.rank := by
  obtain ⟨deadline, hdue, he⟩ | ⟨-, e, c', hd, he⟩ | ⟨-, c', hd, -, he⟩ := pollEvent_cases c
  · have hhint := rank_hint c
    rw [hdue] at hhint
    rw [he]
    exact Nat.le_of_eq hhint
  · have hloop := rank_drain c.agent.events c rfl
    rw [hd] at hloop
    rw [he]
    exact hloop
  · -- the loop may have brought a deadline, which counts until it is reported
    have hloop := rank_drain c.agent.events c rfl
    have hhint := rank_hint c'
    rw [hd] at hloop
    rw [he, Option.isSome_map, hhint]
    exact hloop

/-- A poll that reports nothing leaves nothing to report. -/
theorem pollEvent_none (h : c.pollEvent.1 = none) :
    c.pollEvent.2.agent.events = [] ∧
      (c.pollEvent.2.pollTimeout = none ∨ c.pollEvent.2.pollTimeout = c.pollEvent.2.lastHint?) := by
  obtain ⟨deadline, -, he⟩ | ⟨-, e, c', -, he⟩ | ⟨-, c', -, hempty, he⟩ := pollEvent_cases c
  · rw [he] at h
    cases h
  · rw [he] at h
    cases h
  · obtain ⟨hdue, hnone⟩ | ⟨deadline, -, -, hsome⟩ := hint_due_cases c'
    · rw [he, hnone]
      exact ⟨hempty, hdue⟩
    · rw [he, hsome] at h
      cases h

/-- Polling often enough there is nothing to report. -/
theorem exists_pollEvent_none (c : Client) :
    ∃ k ≤ c.rank, (c.run (List.replicate k .pollEvent)).2.pollEvent.1 = none := by
  -- on the rank, of which a report uses some up
  induction n : c.rank using Nat.strongRecOn generalizing c with
  | ind n ih =>
    subst n
    rcases hp : c.pollEvent.1 with - | e
    · exact ⟨0, Nat.zero_le _, hp⟩
    · have hless := rank_pollEvent c
      rw [hp, Option.isSome_some, Bool.toNat_true] at hless
      obtain ⟨k, hk, hnone⟩ := ih _ hless c.pollEvent.2 rfl
      refine ⟨k + 1, by omega, ?_⟩
      rw [List.replicate_succ]
      exact hnone

/-! ### Calls between polls -/

/-- A call that tells nothing is a poll, or changes no more than the queue of datagrams. -/
theorem Sound.quiet_cases (h : c.Sound) (hquiet : (c.step call).tells = false) :
    call = .pollEvent ∨
    ((c.step call).returned? = none ∧ ∃ outbound, (c.perform call).2 = { c with outbound }) := by
  obtain ⟨err, he⟩ | ⟨-, hok, -⟩ | rfl | rfl := h.perform_cases call
  · exact .inr ⟨by simp only [Step.returned?, step, he], c.outbound, by rw [he]⟩
  · simp [Step.tells, step, hok] at hquiet
  · refine .inr ⟨rfl, c.outbound.tail, ?_⟩
    rw [Client.perform, pollWrite_eq]
  · exact .inl rfl

/-- What is told makes the client forget what it reported. -/
theorem Sound.lastHint_of_tells (h : c.Sound) (ht : (c.step call).tells = true) :
    (c.perform call).2.lastHint? = none := by
  obtain ⟨err, he⟩ | ⟨-, -, hnone⟩ | rfl | rfl := h.perform_cases call
  · simp [Step.tells, step, he] at ht
  · exact hnone
  · cases ht
  · cases ht

theorem lastHint_hint (c : Client) : c.hint.2.lastHint? = c.hint.1.or c.lastHint? := by
  obtain ⟨-, he⟩ | ⟨deadline, -, -, he⟩ := hint_due_cases c <;> rw [he] <;> rfl

theorem lastHint_pollEvent (c : Client) :
    c.pollEvent.2.lastHint? = (c.pollEvent.1.bind ClientEvent.deadline?).or c.lastHint? := by
  obtain ⟨deadline, hdue, he⟩ | ⟨-, e, c', hd, he⟩ | ⟨-, c', hd, -, he⟩ := pollEvent_cases c <;>
    rw [he]
  · rw [lastHint_hint, hdue]
    rfl
  · have hloop := (drain_deadlines c).1
    rw [hd] at hloop
    exact hloop
  · have hloop := (drain_deadlines c).1
    rw [hd] at hloop
    rw [lastHint_hint, hloop]
    rcases c'.hint.1 with - | deadline <;> rfl

/-- **The client remembers what it reported last** since it was told something. -/
theorem Sound.lastHint_perform (h : c.Sound) (call : Call) :
    (c.perform call).2.lastHint? = (c.step call).latest? c.lastHint? := by
  rw [Step.latest?]
  rcases ht : (c.step call).tells with - | -
  · obtain rfl | ⟨hnone, outbound, he⟩ := h.quiet_cases ht
    · exact lastHint_pollEvent c
    · rw [he, hnone]
      rfl
  · exact h.lastHint_of_tells ht

theorem Sound.lastHint_run (h : c.Sound) (calls : List Call) :
    (c.run calls).2.lastHint? = (c.steps calls).foldl Step.latest? c.lastHint? := by
  induction calls generalizing c with
  | nil => rfl
  | cons call calls ih =>
    have hnext := ih (h.perform call)
    rw [h.lastHint_perform call] at hnext
    exact hnext

/-! ### Deadlines only move forward -/

/-- Something under way is due no later than the deadline that was reported last. -/
def Hinted (c : Client) : Prop :=
  ∀ deadline, c.lastHint? = some deadline → ∃ t ∈ c.agent.tracked, t.deadline ≤ deadline

theorem pollTimeout_eq_some (h : c.pollTimeout = some deadline) :
    (∃ t ∈ c.agent.tracked, t.deadline = deadline) ∧
      ∀ t ∈ c.agent.tracked, deadline ≤ t.deadline := by
  obtain ⟨hmem, hleast⟩ := List.min?_eq_some_iff.mp h
  obtain ⟨t, ht, hdeadline⟩ := List.mem_map.mp hmem
  exact ⟨⟨t, ht, hdeadline⟩, fun t ht => hleast _ (List.mem_map_of_mem ht)⟩

theorem Hinted.hint (h : c.Hinted) : c.hint.2.Hinted := by
  obtain ⟨-, he⟩ | ⟨deadline, hp, -, he⟩ := hint_due_cases c <;> rw [he]
  · exact h
  · intro last hlast
    obtain rfl : deadline = last := Option.some.inj hlast
    obtain ⟨⟨t, ht, hdeadline⟩, -⟩ := pollTimeout_eq_some hp
    exact ⟨t, ht, hdeadline.le⟩

theorem Hinted.drain (h : c.Hinted) : (drain c.agent.events c).2.Hinted := by
  obtain ⟨hlast, more, htracked⟩ := drain_deadlines c
  intro deadline hd
  obtain ⟨t, ht, hle⟩ := h deadline (hlast ▸ hd)
  exact ⟨t, htracked ▸ List.mem_append_left _ ht, hle⟩

theorem Hinted.pollEvent (h : c.Hinted) : c.pollEvent.2.Hinted := by
  have hloop := h.drain
  obtain ⟨deadline, -, he⟩ | ⟨-, e, c', hd, he⟩ | ⟨-, c', hd, -, he⟩ := pollEvent_cases c <;>
    rw [he]
  · exact h.hint
  · rwa [hd] at hloop
  · rw [hd] at hloop
    exact hloop.hint

theorem Hinted.perform (h : c.Hinted) (hsound : c.Sound) (call : Call) :
    (c.perform call).2.Hinted := by
  rcases ht : (c.step call).tells with - | -
  · obtain rfl | ⟨-, outbound, he⟩ := hsound.quiet_cases ht
    · exact h.pollEvent
    · rw [he]
      exact h
  · intro deadline hd
    rw [hsound.lastHint_of_tells ht] at hd
    cases hd

/-- A deadline that is to be reported lies before the last. -/
theorem Hinted.hint_lt (h : c.Hinted) (hdue : c.hint.1 = some deadline) {last : Instant}
    (hlast : c.lastHint? = some last) : deadline < last := by
  obtain ⟨-, he⟩ | ⟨deadline', hp, hne, he⟩ := hint_due_cases c <;> rw [he] at hdue
  · cases hdue
  · obtain rfl : deadline' = deadline := Option.some.inj hdue
    obtain ⟨t, ht, hle⟩ := h last hlast
    have hleast := (pollTimeout_eq_some hp).2 t ht
    exact lt_of_le_of_ne (hleast.trans hle) fun heq => hne (heq ▸ hlast)

/-- **A deadline that is reported lies before the last.** -/
theorem Hinted.report_lt (h : c.Hinted)
    (hr : (c.step call).returned?.bind ClientEvent.deadline? = some deadline) {last : Instant}
    (hlast : c.lastHint? = some last) : deadline < last := by
  cases call with
  | pollEvent =>
    rw [returned?_pollEvent] at hr
    obtain ⟨deadline', hdue, he⟩ | ⟨-, e, c', -, he⟩ | ⟨-, c', hd, -, he⟩ := pollEvent_cases c <;>
      rw [he] at hr
    · obtain rfl : deadline' = deadline := Option.some.inj hr
      exact h.hint_lt hdue hlast
    · cases hr
    · -- the loop has left the last report as it was
      have hloop := h.drain
      have hkept := (drain_deadlines c).1
      rw [hd] at hloop hkept
      refine hloop.hint_lt ?_ (hkept.trans hlast)
      rcases hdue : c'.hint.1 with - | deadline' <;> rw [hdue] at hr
      · cases hr
      · exact hr
  | _ => cases hr

/-! ### Runs in which nothing is told -/

/-- What is reported and what still can be stay within the rank there was. -/
theorem Sound.length_returned_add_rank_le (h : c.Sound) {calls : List Call}
    (hquiet : ∀ s ∈ c.steps calls, s.tells = false) :
    (returned (c.steps calls)).length + (c.run calls).2.rank ≤ c.rank := by
  induction calls generalizing c with
  | nil => exact Nat.le_of_eq (Nat.zero_add _)
  | cons call calls ih =>
    have hstep : (c.step call).returned?.toList.length + (c.perform call).2.rank ≤ c.rank := by
      obtain rfl | ⟨hnone, outbound, he⟩ := h.quiet_cases (hquiet _ List.mem_cons_self)
      · have hpoll := rank_pollEvent c
        have hone : c.pollEvent.1.toList.length = c.pollEvent.1.isSome.toNat := by
          cases c.pollEvent.1 <;> rfl
        rw [returned?_pollEvent, hone, Nat.add_comm]
        exact hpoll
      · have hsame : ({ c with outbound } : Client).hint.1 = c.hint.1 := hint_congr rfl rfl
        rw [hnone, he, Option.toList_none, List.length_nil, Nat.zero_add, rank, hsame]
        exact Nat.le_refl _
    have hrest := ih (h.perform call) fun s hs => hquiet s (List.mem_cons_of_mem _ hs)
    rw [steps_cons, run_cons, returned_cons, List.length_append]
    omega

/-- The deadlines that are reported decrease, from below the one that was
reported last. -/
theorem Hinted.deadlines_decrease (h : c.Hinted) (hsound : c.Sound) {calls : List Call}
    (hquiet : ∀ s ∈ c.steps calls, s.tells = false) :
    (deadlines (c.steps calls)).Pairwise (· > ·) ∧
      ∀ deadline ∈ deadlines (c.steps calls), ∀ last, c.lastHint? = some last →
        deadline < last := by
  induction calls generalizing c with
  | nil => exact ⟨.nil, by simp [deadlines, returned, steps]⟩
  | cons call calls ih =>
    obtain ⟨hdecrease, hbelow⟩ := ih (h.perform hsound call) (hsound.perform call)
      fun s hs => hquiet s (List.mem_cons_of_mem _ hs)
    have hlast := hsound.lastHint_perform call
    rw [Step.latest?, if_neg (by simp [hquiet (c.step call) List.mem_cons_self])] at hlast
    rw [steps_cons, deadlines_cons]
    rcases hr : (c.step call).returned?.bind ClientEvent.deadline? with - | deadline
    · rw [hr, Option.none_or] at hlast
      rw [Option.toList_none, List.nil_append]
      exact ⟨hdecrease, fun d hd l hl => hbelow d hd l (hlast.trans hl)⟩
    · -- what is reported later lies before this deadline, and this one before the last
      rw [hr, Option.some_or] at hlast
      rw [Option.toList_some, List.singleton_append, List.pairwise_cons]
      refine ⟨⟨fun d hd => hbelow d hd deadline hlast, hdecrease⟩, fun d hd l hl => ?_⟩
      have hthis := h.report_lt hr hl
      rcases List.mem_cons.mp hd with rfl | hd
      · exact hthis
      · exact (hbelow d hd deadline hlast).trans hthis

/-- Whatever was called, something is due no later than the last report. -/
theorem hinted_run (t : Tuning) (route : Route) (calls : List Call) :
    ((ofTuning t route).run calls).2.Hinted := by
  have hboth : ∀ c call, (c.Sound ∧ c.Hinted) →
      (perform c call).2.Sound ∧ (perform c call).2.Hinted :=
    fun _ call h => ⟨h.1.perform call, h.2.perform h.1 call⟩
  refine (run_preserves (P := fun c => c.Sound ∧ c.Hinted) hboth
    ⟨sound_ofTuning t route, ?_⟩ calls).2
  intro deadline hd
  cases hd

/-- **Polling comes to an end, and leaves no deadline unreported.**  Take any
run, and calls after it that tell the client nothing.  A poll that reports
nothing leaves no event queued, and no deadline but the one that was reported
last since anything was told.  The deadlines that are reported decrease.  What
is reported is no more than the events that were queued, and one more; and with
no more polls than that there is nothing to report. -/
theorem polls_exhausted (t : Tuning) (route : Route) (past calls : List Call)
    (hquiet : ∀ s ∈ ((ofTuning t route).run past).2.steps calls, s.tells = false) :
    let start := ofTuning t route
    let c := (start.run past).2
    (c.pollEvent.1 = none → c.pollEvent.2.agent.events = [] ∧
      (c.pollEvent.2.pollTimeout = none ∨ c.pollEvent.2.pollTimeout = latest? (start.steps past))) ∧
    (deadlines (c.steps calls)).Pairwise (· > ·) ∧
    (returned (c.steps calls)).length ≤ c.agent.events.length + 1 ∧
    ∃ k ≤ c.agent.events.length + 1,
      (c.run (List.replicate k .pollEvent)).2.pollEvent.1 = none := by
  intro start c
  have hsound : c.Sound := sound_run t route past
  refine ⟨fun hnone => ?_, ?_, ?_, ?_⟩
  · obtain ⟨hempty, hdue⟩ := pollEvent_none hnone
    have hlast : c.pollEvent.2.lastHint? = latest? (start.steps past) := by
      rw [lastHint_pollEvent, hnone]
      exact (sound_ofTuning t route).lastHint_run past
    exact ⟨hempty, hlast ▸ hdue⟩
  · exact ((hinted_run t route past).deadlines_decrease hsound hquiet).1
  · have hbound := hsound.length_returned_add_rank_le hquiet
    have hrank := rank_le c
    omega
  · obtain ⟨k, hk, hnone⟩ := exists_pollEvent_none c
    exact ⟨k, hk.trans (rank_le c), hnone⟩

/-- One request runs out of time while another has a late deadline: that one is
reported first, then the nearer one that the repetition brings, and then there
is nothing to report. -/
theorem polls_exhausted_by_repetition :
    let first := Message.new ⟨⟨1⟩, .request⟩ .zero
    let second := Message.new ⟨⟨1⟩, .request⟩ ⟨List.replicate 12 1, rfl⟩
    let here : Endpoint := ⟨⟨.v4, [10, 0, 0, 2], rfl⟩, 40000⟩
    let there : Endpoint := ⟨⟨.v4, [198, 51, 100, 1], rfl⟩, 3478⟩
    let past := [.write first 0, .write second 5000000000, .event (.timeout 300000000)]
    let c := ((ofTuning {} ⟨here, there, .udp⟩).run past).2
    let calls := [.pollEvent, .pollWrite, .pollEvent, .pollEvent]
    (∀ s ∈ c.steps calls, s.tells = false) ∧ c.agent.events.length = 1 ∧
      deadlines (c.steps calls) = [5300000000, 900000000] ∧
      (deadlines (c.steps calls)).Pairwise (· > ·) ∧
      (returned (c.steps calls)).length ≤ c.agent.events.length + 1 := by
  intro first second here there past c calls
  have hquiet : ∀ s ∈ c.steps calls, s.tells = false := by decide +kernel
  have hqueued : c.agent.events.length = 1 := by decide +kernel
  obtain ⟨-, hdecrease, hbound, -⟩ := polls_exhausted {} ⟨here, there, .udp⟩ past calls hquiet
  refine ⟨hquiet, hqueued, by decide +kernel, hdecrease, ?_⟩
  simp only [c]
  exact hbound

end Client

end Stun
