/-
Stun/Proofs/Transaction/Collection.lean

What runs out of time ends in one order.

Transactions are ordered by deadline, and those with one deadline by their
ids, octet by octet (`Tracked.Before`).  No two transactions under way share
an id, so the order is strict among them, and a strictly ordered list is
determined by its members alone.  The order in which the transactions were
begun, or in which a table happens to list them, is therefore lost in
`Agent.due`.

Main results: a collection ends exactly the transactions whose deadline has
passed, in that order, keeps the others, and leaves an agent that is due no
earlier; agents with the same transactions under way report the same ends
(`collect_in_order`).  What is due at the later of two times is what is due at
the first, followed by what is then due at the second (`Distinct.due_max`), so
it makes no difference how often an agent is told the time
(`collect_in_steps`).
-/
import Mathlib.Data.List.Sort
import Mathlib.Order.MinMax
import Stun.Proofs.Transaction.Conservation

namespace Stun

/-! ### The order of ends -/

namespace Tracked

variable {s t u : Tracked}

/-- One transaction ends before another: its deadline is earlier, or it has
the same deadline and the lower id, the first octet in which the two ids
differ deciding. -/
def Before (s t : Tracked) : Prop :=
  s.deadline < t.deadline ∨ s.deadline = t.deadline ∧ s.id.octets < t.id.octets

instance : DecidableRel Before := fun s t => by
  unfold Before
  infer_instance

theorem le_iff_not_before : s.le t = true ↔ ¬ t.Before s := by
  simp only [le, TransactionId.le, Before, Bool.or_eq_true, Bool.and_eq_true, beq_iff_eq,
    decide_eq_true_eq, not_or, not_and, List.not_lt]
  constructor
  · rintro (hlt | ⟨heq, hle⟩)
    · exact ⟨hlt.asymm, fun heq => absurd heq hlt.ne'⟩
    · exact ⟨heq.not_gt, fun _ => hle⟩
  · rintro ⟨hge, hle⟩
    rcases lt_or_eq_of_le (not_lt.mp hge) with hlt | heq
    · exact .inl hlt
    · exact .inr ⟨heq, hle heq.symm⟩

theorem Before.trans (hst : s.Before t) (htu : t.Before u) : s.Before u := by
  rcases hst with hst | ⟨hst, hid⟩ <;> rcases htu with htu | ⟨htu, hid'⟩
  · exact .inl (hst.trans htu)
  · exact .inl (htu ▸ hst)
  · exact .inl (hst ▸ htu)
  · exact .inr ⟨hst.trans htu, List.lt_trans hid hid'⟩

theorem Before.irrefl (t : Tracked) : ¬ t.Before t := by
  rintro (hlt | ⟨-, hlt⟩)
  · exact lt_irrefl _ hlt
  · exact List.lt_irrefl _ hlt

instance : Std.Irrefl Before := ⟨Before.irrefl⟩

instance : Std.Antisymm Before :=
  ⟨fun s _ hst hts => absurd (hst.trans hts) (Before.irrefl s)⟩

/-- Of two transactions one ends before the other. -/
theorem before_or_before (h : s ≠ t) : s.Before t ∨ t.Before s := by
  rcases lt_trichotomy s.deadline t.deadline with hlt | heq | hgt
  · exact .inl (.inl hlt)
  · by_contra hnot
    simp only [Before, heq, true_and, lt_irrefl, false_or, not_or, List.not_lt] at hnot
    -- octets that are neither lower nor higher are the same
    have hoctets : s.id.octets = t.id.octets := List.le_antisymm hnot.2 hnot.1
    obtain ⟨⟨_, _⟩, _⟩ := s
    obtain ⟨⟨_, _⟩, _⟩ := t
    simp_all
  · exact .inr (.inl hgt)

theorem le_total (s t : Tracked) : (s.le t || t.le s) = true := by
  rw [Bool.or_eq_true, le_iff_not_before, le_iff_not_before, ← not_and_or]
  exact fun ⟨hts, hst⟩ => Before.irrefl t (hts.trans hst)

theorem le_trans (s t u : Tracked) (hst : s.le t = true) (htu : t.le u = true) :
    s.le u = true := by
  rw [le_iff_not_before] at *
  intro hus
  by_cases heq : s = t
  · exact htu (heq ▸ hus)
  · rcases before_or_before heq with hst' | hts
    · exact htu (hus.trans hst')
    · exact hst hts

/-- Sorting puts different transactions in strict order. -/
theorem pairwise_mergeSort {ts : List Tracked} (h : ts.Nodup) :
    (ts.mergeSort le).Pairwise Before := by
  have hsorted := List.pairwise_mergeSort le_trans le_total ts
  have hdistinct : (ts.mergeSort le).Nodup := (List.mergeSort_perm ts le).nodup_iff.mpr h
  refine (hsorted.and hdistinct).imp fun {s t} hst => ?_
  exact (before_or_before hst.2).resolve_right (le_iff_not_before.mp hst.1)

end Tracked

namespace Agent

variable {a : Agent} {now : Instant} {t : Tracked}

/-! ### What is due -/

theorem mem_due : t ∈ a.due now ↔ t ∈ a.tracked ∧ t.deadline < now := by
  rw [due, List.mem_mergeSort, List.mem_filter, decide_eq_true_iff]

theorem Distinct.nodup (h : a.Distinct) : a.tracked.Nodup := List.Nodup.of_map _ h

theorem Distinct.pairwise_due (h : a.Distinct) : (a.due now).Pairwise Tracked.Before :=
  Tracked.pairwise_mergeSort (h.nodup.filter _)

/-- **The order is canonical**: agents with the same transactions under way,
listed in whatever order, have the same ones due in the same order. -/
theorem Distinct.due_congr {b : Agent} (ha : a.Distinct) (hb : b.Distinct)
    (hsame : ∀ t, t ∈ b.tracked ↔ t ∈ a.tracked) : b.due now = a.due now := by
  refine hb.pairwise_due.eq_of_mem_iff ha.pairwise_due fun t => ?_
  rw [mem_due, mem_due, hsame]

/-- With different ids, to strike off the ids that are due is to strike off
what is due. -/
theorem Distinct.filter_due (h : a.Distinct) :
    a.tracked.filter (·.id ∉ (a.due now).map Tracked.id)
      = a.tracked.filter (now ≤ ·.deadline) := by
  refine List.filter_congr fun t ht => decide_eq_decide.mpr ?_
  rw [← not_lt, not_iff_not, List.mem_map]
  constructor
  · rintro ⟨t', ht', hid⟩
    obtain ⟨hmem, hpassed⟩ := mem_due.mp ht'
    rwa [← List.inj_on_of_nodup_map h hmem ht hid]
  · intro hpassed
    exact ⟨t, mem_due.mpr ⟨ht, hpassed⟩, rfl⟩

/-! ### The next deadline -/

/-- The time an agent asks to be called at is the least deadline, if anything
is under way. -/
theorem pollTimeout_cases (a : Agent) :
    (a.tracked = [] ∧ a.pollTimeout = none) ∨
    ∃ t ∈ a.tracked, a.pollTimeout = some t.deadline ∧
      ∀ t' ∈ a.tracked, t.deadline ≤ t'.deadline := by
  rcases h : a.pollTimeout with - | deadline
  · rw [pollTimeout, List.min?_eq_none_iff, List.map_eq_nil_iff] at h
    exact .inl ⟨h, rfl⟩
  · obtain ⟨hmem, hleast⟩ := List.min?_eq_some_iff.mp h
    obtain ⟨t, ht, rfl⟩ := List.mem_map.mp hmem
    exact .inr ⟨t, ht, rfl, fun t' ht' => hleast _ (List.mem_map_of_mem ht')⟩

/-! ### Collections -/

/-- What a collection makes of an agent, where `ended` are the transactions
that it ends. -/
structure Collected (a : Agent) (now : Instant) (ended : List Tracked) : Prop where
  result : (collect now a).1 = .ok ()
  mem_ended : ∀ t, t ∈ ended ↔ t ∈ a.tracked ∧ t.deadline < now
  ordered : ended.Pairwise Tracked.Before
  distinct : (ended.map Tracked.id).Nodup
  tracked : (collect now a).2.tracked = a.tracked.filter (now ≤ ·.deadline)
  events : (collect now a).2.events
    = a.events ++ ended.map (Tracked.failed .transactionTimedOut)
  stillOpen : (collect now a).2.closed = false
  pollTimeout : ((collect now a).2.tracked = [] ∧ (collect now a).2.pollTimeout = none) ∨
    ∃ t ∈ (collect now a).2.tracked, (collect now a).2.pollTimeout = some t.deadline ∧
      now ≤ t.deadline ∧ ∀ t' ∈ (collect now a).2.tracked, t.deadline ≤ t'.deadline

theorem Distinct.collected (h : a.Distinct) (hopen : a.closed = false) (now : Instant) :
    a.Collected now (a.due now) := by
  obtain ⟨hc, -⟩ | ⟨-, journal, he⟩ := collect_cases now a
  · simp [hopen] at hc
  have htracked : (collect now a).2.tracked = a.tracked.filter (now ≤ ·.deadline) := by
    rw [he]
    exact h.filter_due
  refine ⟨collect_of_open hopen now, fun t => mem_due, h.pairwise_due, h.nodup_due now, htracked,
    by rw [he], (closed_collect now a).trans hopen, ?_⟩
  obtain hnone | ⟨t, ht, hp, hleast⟩ := pollTimeout_cases (collect now a).2
  · exact .inl hnone
  · have hmem : t ∈ a.tracked.filter (now ≤ ·.deadline) := htracked ▸ ht
    have hkept : now ≤ t.deadline := of_decide_eq_true (List.mem_filter.mp hmem).2
    exact .inr ⟨t, ht, hp, hkept, hleast⟩

theorem Distinct.run (h : a.Distinct) (calls : List Call) : (a.run calls).2.Distinct := by
  induction calls generalizing a with
  | nil => exact h
  | cons call calls ih => exact ih (Step.distinct_after (s := ⟨a, call⟩) h)

/-- **A collection ends what is due, in one order.**  Whatever calls were made
of an agent that is still open, a collection takes exactly those transactions
off whose deadline is before `now`, leaves the others as they are, and puts
one time-out for each that it took off behind the events that wait, strictly
in the order of deadline and id.  Afterwards nothing is due before `now`.  The
time-outs are the same for every agent with the same transactions under way,
whatever calls led to them and in whatever order its table lists them. -/
theorem collect_in_order (calls : List Call) (now : Instant)
    (hopen : (empty.run calls).2.closed = false) :
    let a := (empty.run calls).2
    ∃ ended : List Tracked, a.Collected now ended ∧
      ∀ (calls' : List Call) (tracked : List Tracked),
        let b := (empty.run calls').2
        b.closed = false → tracked.Perm b.tracked → (∀ t, t ∈ b.tracked ↔ t ∈ a.tracked) →
          { b with tracked }.Collected now ended := by
  intro a
  have hfresh : empty.Distinct := List.nodup_nil
  have ha : a.Distinct := hfresh.run calls
  refine ⟨a.due now, ha.collected hopen now, ?_⟩
  intro calls' tracked b hopen' hperm hsame
  have hb : { b with tracked }.Distinct :=
    (hperm.map Tracked.id).nodup_iff.mpr (hfresh.run calls')
  have hdue : { b with tracked }.due now = a.due now :=
    ha.due_congr hb fun t => hperm.mem_iff.trans (hsame t)
  exact hdue ▸ hb.collected hopen' now

/-- Two agents with the same transactions, begun in different orders. -/
theorem collect_in_order_shuffled :
    let id (n : UInt8) : TransactionId := ⟨List.replicate 12 n, List.length_replicate⟩
    let a := (empty.run [.start (id 2) 5, .start (id 4) 9, .start (id 1) 5, .start (id 3) 4]).2
    let b := (empty.run [.start (id 1) 5, .start (id 2) 5, .start (id 3) 4, .start (id 4) 9]).2
    let ended : List Tracked := [⟨id 3, 4⟩, ⟨id 1, 5⟩, ⟨id 2, 5⟩]
    a.closed = false ∧ b.closed = false ∧ b.tracked.Perm a.tracked ∧
      a.Collected 8 ended ∧ b.Collected 8 ended := by
  intro id a b ended
  obtain ⟨ts, ha, hshuffled⟩ := collect_in_order
    [.start (id 2) 5, .start (id 4) 9, .start (id 1) 5, .start (id 3) 4] 8 (by decide)
  have hperm : b.tracked.Perm a.tracked := by decide
  have hdue : (a.tracked.filter (·.deadline < 8)).Perm ended := by decide
  have hts : ts = ended := by
    refine ha.ordered.eq_of_mem_iff (by decide) fun t => ?_
    rw [ha.mem_ended, ← hdue.mem_iff, List.mem_filter, decide_eq_true_iff]
  have hb : b.Collected 8 ts := hshuffled _ b.tracked rfl (.refl _) fun t => hperm.mem_iff
  exact ⟨rfl, rfl, hperm, hts ▸ ha, hts ▸ hb⟩

/-! ### Collections one after the other -/

/-- Whatever calls were made of an agent, no two transactions under way share an id. -/
theorem distinct_run (calls : List Call) : (empty.run calls).2.Distinct :=
  Distinct.run (a := empty) List.nodup_nil calls

/-- **Batches join**: what is due at the later of two times falls into what is
due at the first and what a collection at the first leaves due at the second. -/
theorem Distinct.due_max (h : a.Distinct) (hopen : a.closed = false) (first second : Instant) :
    a.due (max first second) = a.due first ++ (collect first a).2.due second := by
  have hafter : (collect first a).2.Distinct := Step.distinct_after (s := ⟨a, .collect first⟩) h
  have hkept : ∀ t, t ∈ (collect first a).2.tracked ↔ t ∈ a.tracked ∧ first ≤ t.deadline := by
    intro t
    rw [(h.collected hopen first).tracked, List.mem_filter, decide_eq_true_iff]
  -- either side is in strict order, so it is enough to compare the members
  apply h.pairwise_due.eq_of_mem_iff
  · rw [List.pairwise_append]
    refine ⟨h.pairwise_due, hafter.pairwise_due, fun s hs t ht => .inl ?_⟩
    -- what the second collection ends was not due at the first
    calc s.deadline < first := (mem_due.mp hs).2
      _ ≤ t.deadline := ((hkept t).mp (mem_due.mp ht).1).2
  · intro t
    rw [List.mem_append, mem_due, mem_due, mem_due, hkept, lt_max_iff]
    rcases lt_or_ge t.deadline first with hlt | hge
    · simp only [hlt, true_or, and_true, hlt.not_ge, and_false, false_and, or_false]
    · simp only [hge.not_gt, false_or, and_false, hge, and_true]

/-- **Two collections are one**, at the later of their times. -/
theorem Distinct.collect_collect (h : a.Distinct) (first second : Instant) :
    collect second (collect first a).2 = collect (max first second) a := by
  rcases Bool.eq_false_or_eq_true a.closed with hclosed | hopen
  · -- a closed agent refuses either way
    have hrefuses (now : Instant) : collect now a = (.error .agentClosed, a) := by
      rw [collect, if_pos hclosed]
    rw [hrefuses first, hrefuses second, hrefuses]
  · have hopen' : (collect first a).2.closed = false := (closed_collect first a).trans hopen
    have hends {b : Agent} (hb : b.closed = false) (now : Instant) :
        collect now b = (.ok (), (b.due now).foldl expire b) := by
      rw [collect, if_neg (by simp [hb])]
    rw [hends hopen', hends hopen (max first second), h.due_max hopen, List.foldl_append,
      hends hopen first]

/-- Collections that follow one at `now` only make it later. -/
theorem Distinct.run_collect (h : a.Distinct) (now : Instant) (times : List Instant) :
    ((collect now a).2.run (times.map .collect)).2 = (collect (times.foldl max now) a).2 := by
  induction times generalizing now with
  | nil => rfl
  | cons time times ih =>
    calc ((collect now a).2.run ((time :: times).map .collect)).2
        = ((collect time (collect now a).2).2.run (times.map .collect)).2 := rfl
      _ = ((collect (max now time) a).2.run (times.map .collect)).2 := by
          rw [h.collect_collect now time]
      _ = (collect (times.foldl max (max now time)) a).2 := ih (max now time)

/-- **Collecting in steps is collecting once.**  Whatever calls were made of an
agent, a collection and then another, in whichever order their times are,
answer and leave what a single one at the later time does, in the table, in the
queue and in the journal.  So of any collections with nothing between them only
the latest time counts. -/
theorem collect_in_steps (calls : List Call) :
    let a := (empty.run calls).2
    (∀ first second : Instant,
      collect second (collect first a).2 = collect (max first second) a) ∧
    ∀ (times : List Instant) (latest : Instant), latest ∈ times → (∀ t ∈ times, t ≤ latest) →
      (a.run (times.map .collect)).2 = (collect latest a).2 := by
  intro a
  have ha : a.Distinct := distinct_run calls
  refine ⟨ha.collect_collect, ?_⟩
  intro times latest hmem hlatest
  have hmax : times.max? = some latest := List.max?_eq_some_iff.mpr ⟨hmem, hlatest⟩
  cases times with
  | nil => cases hmem
  | cons now times =>
    rw [List.max?_cons', Option.some.injEq] at hmax
    rw [← hmax]
    exact ha.run_collect now times

/-- Told a time in between and an earlier one after it, an agent ends what it
would have ended anyway, in the same order. -/
theorem collect_in_steps_late :
    let id (n : UInt8) : TransactionId := ⟨List.replicate 12 n, List.length_replicate⟩
    let a := (empty.run [.start (id 2) 5, .start (id 1) 5, .start (id 4) 9, .start (id 3) 4]).2
    let b := (a.run [.collect 5, .collect 8, .collect 6]).2
    let ended : List Tracked := [⟨id 3, 4⟩, ⟨id 1, 5⟩, ⟨id 2, 5⟩]
    b = (collect 8 a).2 ∧ b.tracked = [⟨id 4, 9⟩] ∧
      b.events = ended.map (Tracked.failed .transactionTimedOut) := by
  intro id a b ended
  have hsteps : b = (collect 8 a).2 :=
    (collect_in_steps
      [.start (id 2) 5, .start (id 1) 5, .start (id 4) 9, .start (id 3) 4]).2
        [5, 8, 6] 8 (by decide) (by decide)
  have ha : a.Distinct := distinct_run _
  have hcollected := ha.collected rfl 8
  have hdue : (a.tracked.filter (·.deadline < 8)).Perm ended := by decide
  have hended : a.due 8 = ended := by
    refine hcollected.ordered.eq_of_mem_iff (by decide) fun t => ?_
    rw [hcollected.mem_ended, ← hdue.mem_iff, List.mem_filter, decide_eq_true_iff]
  refine ⟨hsteps, ?_, ?_⟩
  · rw [hsteps, hcollected.tracked]
    decide
  · rw [hsteps, hcollected.events, hended]
    rfl

end Agent

end Stun
