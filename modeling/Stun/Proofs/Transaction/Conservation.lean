/-
Stun/Proofs/Transaction/Conservation.lean

Every transaction that is begun ends exactly once.

A call of an agent does one of three things (`Step.effect`): it changes no
table, it begins one transaction, or it ends some of those under way, all with
the same outcome.  The outcomes of a call are what it puts behind the events
that were queued before.  So the outcomes of a run, call by call, are the
events that were taken followed by those that still wait
(`polled_append_events`), and every call balances: what it begins and what was
under way before is what it ends and what is under way after it
(`Step.balance`).

Main result: of the transactions begun with an id each ended once or is still
under way, and every outcome has the one cause that its kind names
(`begun_eq_ended`).
-/
import Mathlib.Data.List.Nodup
import Stun.Proofs.Transaction.Calls

namespace Stun

namespace Agent

variable {a : Agent} {id : TransactionId}

/-! ### Steps -/

/-- A call in a run, with the agent that took it. -/
structure Step where
  before : Agent
  call : Call

namespace Step

/-- What the call answered. -/
def answer (s : Step) : Answer := (s.before.perform s.call).1

/-- The agent that the call left. -/
def after (s : Step) : Agent := (s.before.perform s.call).2

/-- The deadline of a transaction that the call began. -/
def begun? (id : TransactionId) (s : Step) : Option Instant :=
  match s.call, s.answer with
  | .start id' deadline, .done (.ok ()) => if id' = id then some deadline else none
  | _, _ => none

/-- The event that the call took, if it took one. -/
def polled (s : Step) : List Event :=
  match s.answer with
  | .event e? => e?.toList
  | .done _ => []

/-- The events that the call put behind those it found: of what it took and
what it left in the queue, all but those. -/
def outcomes (s : Step) : List Event :=
  (s.polled ++ s.after.events).drop s.before.events.length

end Step

/-- The steps of a run. -/
def steps (a : Agent) : List Call → List Step
  | [] => []
  | call :: calls => ⟨a, call⟩ :: (a.perform call).2.steps calls

/-- The deadline that a transaction was begun with, the last time that it was begun. -/
def deadline? (history : List Step) (id : TransactionId) : Option Instant :=
  (history.filterMap (Step.begun? id)).getLast?

/-! ### What a call does -/

/-- No two transactions under way have one id. -/
def Distinct (a : Agent) : Prop := (a.tracked.map Tracked.id).Nodup

/-- What is due are some of the transactions, in another order. -/
theorem Distinct.nodup_due (h : a.Distinct) (now : Instant) :
    ((a.due now).map Tracked.id).Nodup := by
  have hperm := (List.mergeSort_perm (a.tracked.filter (·.deadline < now)) Tracked.le).map
    Tracked.id
  exact hperm.nodup_iff.mpr (h.sublist (List.filter_sublist.map Tracked.id))

/-- The call is one that ends this transaction with this outcome. -/
inductive Ends : Call → Tracked → Outcome → Prop
  | stop (t : Tracked) : Ends (.stop t.id) t (.failed .transactionStopped)
  | process (m : Message) (t : Tracked) : m.id = t.id → Ends (.process m) t (.answered m)
  | collect (now : Instant) (t : Tracked) : t.deadline < now →
      Ends (.collect now) t (.failed .transactionTimedOut)
  | close (t : Tracked) : Ends .close t (.failed .agentClosed)

/-- What a call can do to the tables: nothing, but for an event that it takes;
begin a transaction; or end some of those under way. -/
inductive Step.Effect (s : Step) : Prop
  | idle (tracked : s.after.tracked = s.before.tracked)
      (events : s.polled ++ s.after.events = s.before.events)
      (begun : ∀ id, s.begun? id = none)
  | begins (id : TransactionId) (deadline : Instant) (new : s.before.isTracking id = false)
      (tracked : s.after.tracked = s.before.tracked ++ [⟨id, deadline⟩])
      (events : s.polled ++ s.after.events = s.before.events)
      (begun : ∀ id', s.begun? id' = if id = id' then some deadline else none)
  | ends (ended : List Tracked) (outcome : Outcome) (distinct : (ended.map Tracked.id).Nodup)
      (tracked : s.after.tracked = s.before.tracked.filter (·.id ∉ ended.map Tracked.id))
      (events : s.polled ++ s.after.events
        = s.before.events ++ ended.map fun t => ⟨t.id, outcome⟩)
      (begun : ∀ id, s.begun? id = none)
      (cause : ∀ t ∈ ended, t ∈ s.before.tracked ∧ Ends s.call t outcome)

namespace Step

/-- A call that is refused, or drops what it is given, is idle. -/
theorem idle {s : Step} (result : Except Error Unit) (journal : List Log.Entry)
    (h : s.before.perform s.call = (.done result, { s.before with journal }))
    (hbegun : ∀ id, s.begun? id = none) : s.Effect := by
  refine .idle ?_ ?_ hbegun
  · rw [after, h]
  · rw [polled, answer, after, h, List.nil_append]

theorem effect_start (id : TransactionId) (deadline : Instant) (a : Agent) :
    (⟨a, .start id deadline⟩ : Step).Effect := by
  obtain ⟨-, he⟩ | ⟨-, -, he⟩ | ⟨-, hnew, journal, he⟩ := start_cases id deadline a
  · exact idle _ a.journal (by rw [perform, he]) (by simp [begun?, answer, perform, he])
  · exact idle _ a.journal (by rw [perform, he]) (by simp [begun?, answer, perform, he])
  · refine .begins id deadline hnew ?_ ?_ ?_
    · simp [after, perform, he]
    · simp [polled, answer, after, perform, he]
    · simp [begun?, answer, perform, he]

theorem effect_stop (id : TransactionId) (a : Agent) : (⟨a, .stop id⟩ : Step).Effect := by
  obtain ⟨-, he⟩ | ⟨-, -, he⟩ | ⟨-, ht, journal, he⟩ := stop_cases id a
  · exact idle _ a.journal (by rw [perform, he]) (by simp [begun?])
  · exact idle _ a.journal (by rw [perform, he]) (by simp [begun?])
  · obtain ⟨t, hmem, rfl⟩ := List.mem_map.mp (isTracking_iff.mp ht)
    refine .ends [t] (.failed .transactionStopped) (List.nodup_singleton _) ?_ ?_
      (by simp [begun?]) ?_
    · simp [after, perform, he]
    · simp [polled, answer, after, perform, he]
    · intro t' ht'
      obtain rfl := List.mem_singleton.mp ht'
      exact ⟨hmem, .stop t'⟩

theorem effect_process (m : Message) (a : Agent) : (⟨a, .process m⟩ : Step).Effect := by
  obtain ⟨-, he⟩ | ⟨-, -, journal, he⟩ | ⟨-, ht, journal, he⟩ := process_cases m a
  · exact idle _ a.journal (by rw [perform, he]) (by simp [begun?])
  · exact idle _ journal (by rw [perform, he]) (by simp [begun?])
  · obtain ⟨t, hmem, hid⟩ := List.mem_map.mp (isTracking_iff.mp ht)
    refine .ends [t] (.answered m) (List.nodup_singleton _) ?_ ?_ (by simp [begun?]) ?_
    · simp [after, perform, he, hid]
    · simp [polled, answer, after, perform, he, hid]
    · intro t' ht'
      obtain rfl := List.mem_singleton.mp ht'
      exact ⟨hmem, .process m t' hid.symm⟩

theorem effect_collect (now : Instant) (h : a.Distinct) : (⟨a, .collect now⟩ : Step).Effect := by
  obtain ⟨-, he⟩ | ⟨-, journal, he⟩ := collect_cases now a
  · exact idle _ a.journal (by rw [perform, he]) (by simp [begun?])
  · refine .ends (a.due now) (.failed .transactionTimedOut) (h.nodup_due now) ?_ ?_
      (by simp [begun?]) ?_
    · simp [after, perform, he]
    · simp only [polled, answer, after, perform, he, List.nil_append]
      rfl
    · intro t ht
      simp only [due, List.mem_mergeSort, List.mem_filter, decide_eq_true_eq] at ht
      exact ⟨ht.1, .collect now t ht.2⟩

theorem effect_close (h : a.Distinct) : (⟨a, .close⟩ : Step).Effect := by
  obtain ⟨-, he⟩ | ⟨-, journal, he⟩ := close_cases a
  · exact idle _ a.journal (by rw [perform, he]) (by simp [begun?])
  · refine .ends (a.tracked.mergeSort Tracked.le) (.failed .agentClosed) ?_ ?_ ?_
      (by simp [begun?]) ?_
    · exact ((List.mergeSort_perm a.tracked Tracked.le).map Tracked.id).nodup_iff.mpr h
    · simp only [after, perform, he]
      refine (List.filter_eq_nil_iff.mpr fun t ht => ?_).symm
      have hmem : t.id ∈ (a.tracked.mergeSort Tracked.le).map Tracked.id :=
        List.mem_map_of_mem (List.mem_mergeSort.mpr ht)
      simp only [hmem, not_true_eq_false, decide_false, Bool.false_eq_true, not_false_eq_true]
    · simp only [polled, answer, after, perform, he, List.nil_append]
      rfl
    · intro t ht
      exact ⟨List.mem_mergeSort.mp ht, .close t⟩

theorem effect_pollEvent (a : Agent) : (⟨a, .pollEvent⟩ : Step).Effect := by
  refine .idle (by simp [after, perform, pollEvent_eq]) ?_ (by simp [begun?])
  simp only [polled, after, answer, perform, pollEvent_eq]
  cases a.events <;> rfl

/-- **One step**, whatever the call. -/
theorem effect {s : Step} (h : s.before.Distinct) : s.Effect := by
  obtain ⟨a, call⟩ := s
  cases call with
  | start id deadline => exact effect_start id deadline a
  | stop id => exact effect_stop id a
  | process m => exact effect_process m a
  | collect now => exact effect_collect now h
  | close => exact effect_close h
  | pollEvent => exact effect_pollEvent a

/-! ### What every call keeps -/

theorem outcomes_eq {s : Step} {es : List Event}
    (h : s.polled ++ s.after.events = s.before.events ++ es) : s.outcomes = es := by
  rw [outcomes, h, List.drop_left]

theorem outcomes_nil {s : Step} (h : s.polled ++ s.after.events = s.before.events) :
    s.outcomes = [] :=
  outcomes_eq (h.trans (List.append_nil _).symm)

/-- What was taken and what is queued is what was queued, and the outcomes behind it. -/
theorem polled_append_events {s : Step} (h : s.before.Distinct) :
    s.polled ++ s.after.events = s.before.events ++ s.outcomes := by
  cases effect h with
  | idle _ events _ => rw [outcomes_nil events, events, List.append_nil]
  | begins _ _ _ _ events _ => rw [outcomes_nil events, events, List.append_nil]
  | ends _ _ _ _ events _ _ => rw [outcomes_eq events, events]

theorem distinct_after {s : Step} (h : s.before.Distinct) : s.after.Distinct := by
  rw [Distinct]
  cases effect h with
  | idle tracked _ _ => exact tracked ▸ h
  | begins id deadline new tracked _ _ =>
    rw [tracked, List.map_append, List.map_singleton, List.nodup_append]
    refine ⟨h, List.nodup_singleton _, ?_⟩
    rintro id' hid' b hb rfl
    rw [List.mem_singleton.mp hb, ← isTracking_iff, new] at hid'
    cases hid'
  | ends _ _ _ tracked _ _ _ => exact tracked ▸ h.sublist (List.filter_sublist.map Tracked.id)

/-- **A call balances**: what it begins and what was under way is what it ends
and what is under way after it. -/
theorem balance {s : Step} (h : s.before.Distinct) (id : TransactionId) :
    (s.begun? id).isSome.toNat + (s.before.isTracking id).toNat
      = s.outcomes.countP (·.id = id) + (s.after.isTracking id).toNat := by
  cases effect h with
  | idle tracked events begun =>
    simp [outcomes_nil events, begun, isTracking, tracked]
  | begins id' deadline new tracked events begun =>
    have hafter : s.after.isTracking id = (s.before.isTracking id || decide (id' = id)) := by
      simp [isTracking, tracked]
    rw [outcomes_nil events, begun, hafter]
    by_cases hid : id' = id
    · subst hid
      simp [new]
    · simp [hid]
  | ends ended outcome distinct tracked events begun cause =>
    have hcount : s.outcomes.countP (·.id = id) = (ended.map Tracked.id).count id := by
      rw [outcomes_eq events, List.countP_map, List.count, List.countP_map]
      rfl
    have hafter : s.after.isTracking id = true ↔
        s.before.isTracking id = true ∧ id ∉ ended.map Tracked.id := by
      simp only [isTracking_iff, tracked, List.mem_map, List.mem_filter, decide_eq_true_eq]
      constructor
      · rintro ⟨t, ⟨ht, hnot⟩, rfl⟩
        exact ⟨⟨t, ht, rfl⟩, hnot⟩
      · rintro ⟨⟨t, ht, rfl⟩, hnot⟩
        exact ⟨t, ⟨ht, hnot⟩, rfl⟩
    rw [begun, hcount, distinct.count]
    by_cases hid : id ∈ ended.map Tracked.id
    · obtain ⟨t, ht, rfl⟩ := List.mem_map.mp hid
      have hbefore : s.before.isTracking t.id = true :=
        isTracking_iff.mpr (List.mem_map_of_mem (cause t ht).1)
      have hgone : s.after.isTracking t.id = false := by
        rw [← Bool.not_eq_true, hafter]
        exact fun hboth => hboth.2 hid
      simp [hid, hbefore, hgone]
    · have hsame : s.after.isTracking id = s.before.isTracking id := by
        rw [Bool.eq_iff_iff, hafter]
        exact and_iff_left hid
      simp [hid, hsame]

end Step

/-! ### Deadlines -/

/-- What is under way has the deadline that it was begun with. -/
def Dated (history : List Step) (a : Agent) : Prop :=
  ∀ t ∈ a.tracked, deadline? history t.id = some t.deadline

theorem deadline?_concat (history : List Step) (s : Step) (id : TransactionId) :
    deadline? (history ++ [s]) id = (s.begun? id).or (deadline? history id) := by
  rw [deadline?, List.filterMap_append, List.getLast?_append]
  congr 1
  rcases h : s.begun? id with - | deadline <;> simp [h]

theorem Dated.after {history : List Step} {s : Step} (h : s.before.Distinct)
    (hd : Dated history s.before) : Dated (history ++ [s]) s.after := by
  intro t ht
  rw [deadline?_concat]
  cases Step.effect h with
  | idle tracked _ begun =>
    rw [begun, Option.none_or]
    exact hd t (tracked ▸ ht)
  | begins id deadline new tracked _ begun =>
    rw [tracked, List.mem_append, List.mem_singleton] at ht
    rcases ht with ht | rfl
    · -- the one that is begun has another id
      have hne : id ≠ t.id := by
        rintro rfl
        rw [isTracking_iff.mpr (List.mem_map_of_mem ht)] at new
        cases new
      rw [begun, if_neg hne, Option.none_or]
      exact hd t ht
    · rw [begun, if_pos rfl, Option.some_or]
  | ends _ _ _ tracked _ begun _ =>
    rw [begun, Option.none_or]
    rw [tracked] at ht
    exact hd t (List.mem_filter.mp ht).1

/-! ### Runs -/

theorem run_events (h : a.Distinct) (calls : List Call) :
    (a.steps calls).flatMap Step.polled ++ (a.run calls).2.events
      = a.events ++ (a.steps calls).flatMap Step.outcomes := by
  induction calls generalizing a with
  | nil => simp [steps, run]
  | cons call calls ih =>
    let s : Step := ⟨a, call⟩
    calc (a.steps (call :: calls)).flatMap Step.polled ++ (a.run (call :: calls)).2.events
        = s.polled ++ ((s.after.steps calls).flatMap Step.polled
            ++ (s.after.run calls).2.events) := by
          rw [← List.append_assoc]
          rfl
      _ = (s.polled ++ s.after.events) ++ (s.after.steps calls).flatMap Step.outcomes := by
          rw [ih (Step.distinct_after (s := s) h), List.append_assoc]
      _ = a.events ++ (s.outcomes ++ (s.after.steps calls).flatMap Step.outcomes) := by
          rw [Step.polled_append_events (s := s) h, List.append_assoc]

theorem run_balance (h : a.Distinct) (calls : List Call) (id : TransactionId) :
    (a.steps calls).countP (fun s => (s.begun? id).isSome) + (a.isTracking id).toNat
      = ((a.steps calls).flatMap Step.outcomes).countP (·.id = id)
        + ((a.run calls).2.isTracking id).toNat := by
  induction calls generalizing a with
  | nil => simp [steps, run]
  | cons call calls ih =>
    let s : Step := ⟨a, call⟩
    have hstep := Step.balance (s := s) h id
    have hrest := ih (Step.distinct_after (s := s) h)
    have hrun : (a.run (call :: calls)).2 = (s.after.run calls).2 := rfl
    have hcount : (a.steps (call :: calls)).countP (fun s => (s.begun? id).isSome)
        = (s.after.steps calls).countP (fun s => (s.begun? id).isSome)
          + (s.begun? id).isSome.toNat := by
      rw [steps, List.countP_cons]
      cases (s.begun? id).isSome <;> rfl
    rw [hrun, hcount, steps, List.flatMap_cons, List.countP_append]
    change _ = s.outcomes.countP _ + ((s.after.steps calls).flatMap _).countP _ + _
    dsimp only [s] at *
    omega

/-- **Every outcome has its cause**, in a run that goes on from any history. -/
theorem run_cause {history : List Step} (h : a.Distinct) (hd : Dated history a) {calls : List Call}
    {front back : List Step} {s : Step} (hsplit : a.steps calls = front ++ s :: back) {e : Event}
    (he : e ∈ s.outcomes) :
    ∃ t ∈ s.before.tracked, t.id = e.id ∧
      deadline? (history ++ front) e.id = some t.deadline ∧ Ends s.call t e.outcome := by
  induction calls generalizing a history front with
  | nil => simp [steps] at hsplit
  | cons call calls ih =>
    cases front with
    | nil =>
      obtain ⟨rfl, -⟩ := List.cons.inj hsplit
      rw [List.append_nil]
      cases Step.effect (s := ⟨a, call⟩) h with
      | idle _ events _ => simp [Step.outcomes_nil events] at he
      | begins _ _ _ _ events _ => simp [Step.outcomes_nil events] at he
      | ends ended outcome _ _ events _ cause =>
        rw [Step.outcomes_eq events] at he
        obtain ⟨t, ht, rfl⟩ := List.mem_map.mp he
        exact ⟨t, (cause t ht).1, rfl, hd t (cause t ht).1, (cause t ht).2⟩
    | cons s' front =>
      obtain ⟨rfl, htail⟩ := List.cons.inj hsplit
      have hnext := ih (Step.distinct_after (s := ⟨a, call⟩) h)
        (Dated.after (s := ⟨a, call⟩) h hd) htail
      rwa [List.append_assoc] at hnext

/-- **Transactions that are begun end exactly once.**  In any run from the
first call on, the transactions that were begun with an id are those whose end
was taken, those whose end is queued, and the one that is under way.  The
events that were taken and those that are queued are the outcomes of the calls
in their order.  Each outcome is that of a transaction that was under way and
whose deadline is the one it was begun with last; it was answered by a message
with its id, given up by the caller, collected after its deadline, or ended
because the agent was closed. -/
theorem begun_eq_ended (calls : List Call) (id : TransactionId) :
    let steps := empty.steps calls
    let a := (empty.run calls).2
    steps.countP (fun s => (s.begun? id).isSome)
      = (steps.flatMap Step.polled).countP (·.id = id) + a.events.countP (·.id = id)
        + (a.isTracking id).toNat ∧
    steps.flatMap Step.polled ++ a.events = steps.flatMap Step.outcomes ∧
    ∀ front s back, steps = front ++ s :: back → ∀ e ∈ s.outcomes,
      ∃ t ∈ s.before.tracked, t.id = e.id ∧ deadline? front e.id = some t.deadline ∧
        Ends s.call t e.outcome := by
  intro steps a
  have hfresh : empty.Distinct := List.nodup_nil
  have hevents : steps.flatMap Step.polled ++ a.events = steps.flatMap Step.outcomes :=
    run_events hfresh calls
  have hbalance : steps.countP (fun s => (s.begun? id).isSome)
      = (steps.flatMap Step.outcomes).countP (·.id = id) + (a.isTracking id).toNat :=
    run_balance hfresh calls id
  refine ⟨?_, hevents, ?_⟩
  · rw [hbalance, ← hevents, List.countP_append]
  · intro front s back hsplit e he
    have hdated : Dated [] empty := fun t ht => absurd ht List.not_mem_nil
    exact run_cause hfresh hdated hsplit he

end Agent

end Stun
