/-
Stun/Proofs/Client/Rounds.lean

Told nothing but the time, a client comes to an end.

Whoever drives a client by its deadlines alone goes round: ask for the earliest
deadline, say that it is this late, and poll until nothing is reported
(`round`).  A round may end some attempts and begin others with later
deadlines, so neither the transactions under way nor the requests that wait
become fewer.  What does is the work that is left (`workload`).  Every attempt
under way counts once and once more for every attempt that can follow it, and
so does every end that is queued for those that can follow.  An end that is
dealt with gives up what the attempt after it costs (`workload_turn`), whatever
the tables hold; to end an attempt costs one (`Ready.expires`).

Main result: a client that has been polled to the end is done after as many
rounds as its transactions have attempts, and each round ends one
(`rounds_finish`).
-/
import Mathlib.Algebra.Order.BigOperators.Group.List
import Stun.Proofs.Client.Polling
import Stun.Proofs.Client.Repetition
import Stun.Proofs.Transaction.Collection

namespace Stun

namespace Client

variable {c c' : Client} {id : TransactionId} {deadline : Instant}

/-! ### Rounds -/

/-- Polls until nothing is reported. -/
def pollOut (c : Client) : Client :=
  match _ : c.pollEvent with
  | (none, c') => c'
  | (some _, c') => c'.pollOut
termination_by c.rank
decreasing_by
  -- a poll that reports something uses rank up
  rename_i h
  have hless := rank_pollEvent c
  rw [h] at hless
  exact hless

/-- Says that it is as late as the earliest deadline, and polls until nothing is
reported.  Without a deadline there is nothing to say. -/
def round (c : Client) : Client :=
  match c.pollTimeout with
  | none => c
  | some deadline => (handleEvent (.timeout deadline) c).2.pollOut

/-- No request waits, and nothing is under way. -/
def Finished (c : Client) : Prop := c.pending = 0 ∧ c.pollTimeout = none

/-- The client takes the time, and a transaction that is under way runs out of it. -/
def Expires (c : Client) (now : Instant) : Prop :=
  (handleEvent (.timeout now) c).1 = .ok () ∧
  ∃ x ∈ c.agent.tracked,
    x.id ∉ (handleEvent (.timeout now) c).2.agent.tracked.map Tracked.id ∧
    x.failed .transactionTimedOut ∈ (handleEvent (.timeout now) c).2.agent.events

theorem round_of_none (h : c.pollTimeout = none) : c.round = c := by rw [round, h]

theorem round_of_some (h : c.pollTimeout = some deadline) :
    c.round = (handleEvent (.timeout deadline) c).2.pollOut := by rw [round, h]

/-- What each poll keeps is kept by all of them. -/
theorem pollOut_preserves {P : Client → Prop} (hpoll : ∀ c, P c → P c.pollEvent.2) (h : P c) :
    P c.pollOut := by
  fun_induction pollOut c with
  | case1 c c' he =>
    have hnext := hpoll c h
    rwa [he] at hnext
  | case2 c e c' he ih =>
    have hnext := hpoll c h
    rw [he] at hnext
    exact ih hnext

/-- The last poll reports nothing. -/
theorem exists_pollEvent_pollOut (c : Client) : ∃ b : Client, b.pollEvent = (none, c.pollOut) := by
  fun_induction pollOut c with
  | case1 c c' he => exact ⟨c, he⟩
  | case2 c e c' he ih => exact ih

theorem events_pollOut (c : Client) : c.pollOut.agent.events = [] := by
  obtain ⟨b, hb⟩ := exists_pollEvent_pollOut c
  have hempty := (pollEvent_none (c := b) (by rw [hb])).1
  rwa [hb] at hempty

/-! ### Attempts that are left -/

/-- How many attempts can follow the one that the request with an id has come to. -/
def left (c : Client) (id : TransactionId) : Nat :=
  match c.requests.find? (·.id = id) with
  | some r => c.maxAttempts.toNat - r.attempt.toNat
  | none => 0

theorem left_eq {r : Request} (h : c.requests.find? (·.id = id) = some r) :
    c.left id = c.maxAttempts.toNat - r.attempt.toNat := by rw [left, h]

theorem left_eq_zero (h : c.requests.find? (·.id = id) = none) : c.left id = 0 := by rw [left, h]

theorem left_le (c : Client) (id : TransactionId) : c.left id ≤ c.maxAttempts.toNat := by
  rw [left]
  split
  · exact Nat.sub_le _ _
  · exact Nat.zero_le _

theorem find?_filter_self (requests : List Request) (id : TransactionId) :
    (requests.filter (·.id ≠ id)).find? (·.id = id) = none := by
  rw [List.find?_eq_none]
  intro r hr
  simpa using (List.mem_filter.mp hr).2

theorem find?_filter_other {id' : TransactionId} (requests : List Request) (hne : id' ≠ id) :
    (requests.filter (·.id ≠ id)).find? (·.id = id') = requests.find? (·.id = id') := by
  rw [List.find?_filter]
  congr 1
  funext r
  by_cases h : r.id = id'
  · simp [h, hne]
  · simp [h]

/-- A request that is struck off has no attempt left. -/
theorem left_dropped (hmax : c'.maxAttempts = c.maxAttempts)
    (hrequests : c'.requests = c.requests.filter (·.id ≠ id)) (id' : TransactionId) :
    c'.left id' ≤ c.left id' := by
  by_cases h : id' = id
  · rw [h, left_eq_zero (by rw [hrequests, find?_filter_self])]
    exact Nat.zero_le _
  · rw [left, left, hrequests, find?_filter_other _ h, hmax]

/-- A request that is begun again has one attempt less left. -/
theorem left_repeated {r : Request} (hmax : c'.maxAttempts = c.maxAttempts)
    (hr : c.requests.find? (·.id = id) = some r) (hlt : r.attempt < c.maxAttempts)
    (hrequests : c'.requests
      = c.requests.filter (·.id ≠ id) ++ [{ r with attempt := r.attempt + 1 }]) :
    c'.left id + 1 = c.left id ∧ ∀ id', c'.left id' ≤ c.left id' := by
  have hid : r.id = id := id_of_find? hr
  have hself : c'.left id + 1 = c.left id := by
    have hfind : c'.requests.find? (·.id = id) = some { r with attempt := r.attempt + 1 } := by
      rw [hrequests, List.find?_append, find?_filter_self, Option.none_or]
      simp [hid]
    have hbelow : r.attempt.toNat < c.maxAttempts.toNat := UInt32.lt_iff_toNat_lt.mp hlt
    rw [left_eq hfind, left_eq hr, hmax, toNat_succ_of_lt hlt]
    omega
  refine ⟨hself, fun id' => ?_⟩
  by_cases h : id' = id
  · rw [h]
    omega
  · have hfind : c'.requests.find? (·.id = id') = c.requests.find? (·.id = id') := by
      rw [hrequests, List.find?_append, find?_filter_other _ h]
      simp [hid, Ne.symm h]
    rw [left, left, hfind, hmax]

/-! ### The work that is left -/

/-- The attempts under way, with those that can follow them and those that can
follow an end that is queued. -/
def workload (c : Client) : Nat :=
  (c.agent.tracked.map fun x => c.left x.id + 1).sum +
    (c.agent.events.map fun e => c.left e.id).sum

/-- With fewer attempts left there is no more work. -/
theorem workload_mono (hleft : ∀ id, c'.left id ≤ c.left id)
    (htracked : c'.agent.tracked = c.agent.tracked) (hevents : c'.agent.events = c.agent.events) :
    c'.workload ≤ c.workload := by
  rw [workload, workload, htracked, hevents]
  exact Nat.add_le_add (List.sum_le_sum fun x _ => Nat.succ_le_succ (hleft x.id))
    (List.sum_le_sum fun e _ => hleft e.id)

/-- An event is taken with the attempts that can follow it. -/
theorem workload_take {e : Event} {rest : List Event} (hevents : c.agent.events = e :: rest) :
    c.workload = (c.take rest).workload + c.left e.id := by
  have hleft : ∀ id, (c.take rest).left id = c.left id := fun _ => rfl
  rw [workload, workload, hevents, List.map_cons, List.sum_cons]
  simp only [hleft]
  simp only [take]
  omega

/-- An attempt that is begun costs what the request has less left. -/
theorem workload_begun {x : Tracked} (hleft : ∀ id, c'.left id ≤ c.left id)
    (hself : c'.left x.id + 1 = c.left x.id)
    (htracked : c'.agent.tracked = c.agent.tracked ++ [x])
    (hevents : c'.agent.events = c.agent.events) :
    c'.workload ≤ c.workload + c.left x.id := by
  have hbefore : (c.agent.tracked.map fun x => c'.left x.id + 1).sum
      ≤ (c.agent.tracked.map fun x => c.left x.id + 1).sum :=
    List.sum_le_sum fun x _ => Nat.succ_le_succ (hleft x.id)
  have hqueued : (c.agent.events.map fun e => c'.left e.id).sum
      ≤ (c.agent.events.map fun e => c.left e.id).sum := List.sum_le_sum fun e _ => hleft e.id
  rw [workload, workload, htracked, hevents, List.map_append, List.sum_append, List.map_singleton,
    List.sum_singleton]
  omega

/-- **One turn** does not make more work: the attempt that it begins is one of
those that could follow. -/
theorem workload_turn {e : Event} {rest : List Event} (hevents : c.agent.events = e :: rest) :
    (settle (c.take rest) e).2.workload ≤ c.workload := by
  rw [workload_take hevents]
  obtain ⟨-, he⟩ | ⟨r, hr, ⟨-, journal, he⟩ | ⟨-, hlt, -, -, deadline, journal, -, he⟩⟩ :=
    settle_cases (c.take rest) e
  · rw [he]
    exact Nat.le_add_right _ _
  · have hless : (settle (c.take rest) e).2.workload ≤ (c.take rest).workload :=
      workload_mono (left_dropped (by rw [he]) (by rw [he])) (by rw [he]) (by rw [he])
    exact hless.trans (Nat.le_add_right _ _)
  · have hmax : (settle (c.take rest) e).2.maxAttempts = (c.take rest).maxAttempts := by rw [he]
    obtain ⟨hself, hleft⟩ := left_repeated hmax hr hlt (by rw [he])
    exact workload_begun (x := ⟨e.id, deadline⟩) hleft hself (by rw [he]) (by rw [he])

theorem workload_pollEvent (c : Client) : c.pollEvent.2.workload ≤ c.workload :=
  pollEvent_preserves (P := fun c' => c'.workload ≤ c.workload) (fun _ _ h => h)
    (fun _ _ _ h hevents => (workload_turn hevents).trans h) le_rfl

theorem workload_pollOut (c : Client) : c.pollOut.workload ≤ c.workload :=
  pollOut_preserves (P := fun c' => c'.workload ≤ c.workload)
    (fun c' h => (workload_pollEvent c').trans h) le_rfl

/-- With nothing queued the work that is left is at most as many attempts for
each transaction as a request has. -/
theorem workload_le (hempty : c.agent.events = []) :
    c.workload ≤ c.agent.tracked.length * (c.maxAttempts.toNat + 1) := by
  rw [workload, hempty, List.map_nil, List.sum_nil, Nat.add_zero]
  have hbound := List.sum_le_card_nsmul (c.agent.tracked.map fun x => c.left x.id + 1)
    (c.maxAttempts.toNat + 1) fun n hn => by
      obtain ⟨x, -, rfl⟩ := List.mem_map.mp hn
      exact Nat.succ_le_succ (left_le c x.id)
  simpa using hbound

/-! ### Collecting what is due -/

/-- What is kept is not due: an id that is due takes every transaction with it. -/
theorem kept_sublist (a : Agent) (now : Instant) :
    (a.tracked.filter (·.id ∉ (a.due now).map Tracked.id)).Sublist
      (a.tracked.filter fun x => !decide (x.deadline < now)) := by
  have hless : a.tracked.filter (·.id ∉ (a.due now).map Tracked.id)
      = (a.tracked.filter fun x => !decide (x.deadline < now)).filter
          (·.id ∉ (a.due now).map Tracked.id) := by
    rw [List.filter_filter]
    refine List.filter_congr fun x hx => ?_
    by_cases hpassed : x.deadline < now
    · have hmem : x.id ∈ (a.due now).map Tracked.id :=
        List.mem_map_of_mem (Agent.mem_due.mpr ⟨hx, hpassed⟩)
      simp [hmem]
    · simp [hpassed]
  rw [hless]
  exact List.filter_sublist

/-- What is due and what is kept come to no more than what was under way. -/
theorem sum_collected_le (a : Agent) (now : Instant) (f : Tracked → Nat) :
    ((a.tracked.filter (·.id ∉ (a.due now).map Tracked.id)).map f).sum + ((a.due now).map f).sum
      ≤ (a.tracked.map f).sum := by
  have hsplit := ((List.filter_append_perm (fun x => decide (x.deadline < now)) a.tracked).map
    f).sum_eq
  have hdue : ((a.due now).map f).sum = ((a.tracked.filter (·.deadline < now)).map f).sum :=
    ((List.mergeSort_perm _ _).map f).sum_eq
  have hkept := ((kept_sublist a now).map f).sum_le_sum fun _ _ => Nat.zero_le _
  rw [List.map_append, List.sum_append] at hsplit
  omega

/-- An open client collects what is due when it is told the time. -/
theorem handleEvent_timeout_eq (hopen : c.closed = false) (hagent : c.agent.closed = false)
    (now : Instant) : ∃ journal, handleEvent (.timeout now) c
      = (.ok (), { c with
          agent := { c.agent with
            tracked := c.agent.tracked.filter
              (·.id ∉ (c.agent.due (c.horizon now)).map Tracked.id)
            events := c.agent.events
              ++ (c.agent.due (c.horizon now)).map (Tracked.failed .transactionTimedOut)
            journal }
          lastNow? := some now
          lastHint? := none }) := by
  obtain ⟨hc, -⟩ | ⟨-, _, rfl, he⟩ := handleEvent_timeout_cases now c
  · simp [hopen] at hc
  obtain ⟨hc, -⟩ | ⟨-, journal, hcollect⟩ :=
    Agent.collect_cases ((Instant.after? now c.rate).getD now) c.agent
  · simp [hagent] at hc
  exact ⟨journal, by rw [he, hcollect, horizon]⟩

/-- To end an attempt costs one: those that can follow it are kept for its end. -/
theorem workload_handleEvent (hopen : c.closed = false) (hagent : c.agent.closed = false)
    (now : Instant) :
    (handleEvent (.timeout now) c).2.workload + (c.agent.due (c.horizon now)).length
      ≤ c.workload := by
  obtain ⟨journal, he⟩ := handleEvent_timeout_eq hopen hagent now
  have hleft : ∀ id, (handleEvent (.timeout now) c).2.left id = c.left id := by
    intro id
    rw [he]
    rfl
  have hmoved : (handleEvent (.timeout now) c).2.workload
      = ((c.agent.tracked.filter (·.id ∉ (c.agent.due (c.horizon now)).map Tracked.id)).map
            fun x => c.left x.id + 1).sum
          + ((c.agent.events.map fun e => c.left e.id).sum
            + ((c.agent.due (c.horizon now)).map fun x => c.left x.id).sum) := by
    simp only [workload, hleft]
    rw [he, List.map_append, List.sum_append, List.map_map]
    rfl
  have hsum := sum_collected_le c.agent (c.horizon now) fun x => c.left x.id + 1
  have hone : ((c.agent.due (c.horizon now)).map fun x => c.left x.id + 1).sum
      = ((c.agent.due (c.horizon now)).map fun x => c.left x.id).sum
        + (c.agent.due (c.horizon now)).length := by
    simp [List.sum_map_add]
  rw [hmoved, workload]
  omega

/-- The earliest deadline is due when it is told, if the clock reaches as far
ahead of it as the resolution. -/
theorem exists_mem_due (hrate : 0 < c.rate) (hp : c.pollTimeout = some deadline)
    (hclock : deadline + c.rate ≤ Instant.latest) : ∃ x, x ∈ c.agent.due (c.horizon deadline) := by
  obtain ⟨⟨x, hx, hdeadline⟩, -⟩ := pollTimeout_eq_some hp
  refine ⟨x, Agent.mem_due.mpr ⟨hx, ?_⟩⟩
  rw [horizon, Instant.after?, if_pos hclock, Option.getD_some, hdeadline]
  exact Int.lt_add_of_pos_right _ (Int.natCast_pos.mpr hrate)

/-- What is due when the time is told runs out of it. -/
theorem expires_of_mem_due (hopen : c.closed = false) (hagent : c.agent.closed = false)
    {now : Instant} {x : Tracked} (hx : x ∈ c.agent.due (c.horizon now)) : c.Expires now := by
  obtain ⟨journal, he⟩ := handleEvent_timeout_eq hopen hagent now
  refine ⟨by rw [he], x, (Agent.mem_due.mp hx).1, ?_, ?_⟩ <;> rw [he]
  · -- whatever is kept has an id of which nothing is due
    intro hmem
    obtain ⟨y, hy, hid⟩ := List.mem_map.mp hmem
    have hkept : y.id ∉ (c.agent.due (c.horizon now)).map Tracked.id := by
      simpa using (List.mem_filter.mp hy).2
    exact hkept (hid ▸ List.mem_map_of_mem hx)
  · exact List.mem_append_right _ (List.mem_map_of_mem hx)

/-! ### One round -/

theorem settings_pollOut (c : Client) : SameSettings c c.pollOut :=
  pollOut_preserves (P := SameSettings c) (fun c' h => h.trans (settings_perform c' .pollEvent))
    ⟨rfl, rfl, rfl, rfl⟩

theorem settings_round (c : Client) : SameSettings c c.round := by
  rcases hp : c.pollTimeout with - | deadline
  · rw [round_of_none hp]
    exact ⟨rfl, rfl, rfl, rfl⟩
  · rw [round_of_some hp]
    exact (settings_perform c (.event (.timeout deadline))).trans (settings_pollOut _)

/-- An open client that can be driven by its deadlines. -/
structure Ready (c : Client) : Prop where
  sound : c.Sound
  opened : c.closed = false
  resolves : 0 < c.rate

theorem Ready.agent (h : c.Ready) : c.agent.closed = false := h.sound.closed.trans h.opened

theorem Ready.pollEvent (h : c.Ready) : c.pollEvent.2.Ready where
  sound := h.sound.pollEvent
  opened := by
    have hagent : c.pollEvent.2.agent.closed = false :=
      pollEvent_preserves (P := fun c' => c'.agent.closed = false) (fun _ _ h => h)
        (fun c' e rest h _ => (alike_settle c' e rest).closed.trans h) h.agent
    exact h.sound.pollEvent.closed.symm.trans hagent
  resolves := by
    have hrate : c.pollEvent.2.rate = c.rate := (settings_perform c .pollEvent).rate
    exact hrate ▸ h.resolves

theorem Ready.pollOut (h : c.Ready) : c.pollOut.Ready :=
  pollOut_preserves (fun _ h => h.pollEvent) h

theorem Ready.round (h : c.Ready) (hp : c.pollTimeout = some deadline) : c.round.Ready := by
  obtain ⟨journal, he⟩ := handleEvent_timeout_eq h.opened h.agent deadline
  have htold : (handleEvent (.timeout deadline) c).2.Ready := by
    refine ⟨h.sound.handleEvent _, ?_, ?_⟩ <;> rw [he]
    · exact h.opened
    · exact h.resolves
  rw [round_of_some hp]
  exact htold.pollOut

/-- **One round** leaves less work. -/
theorem Ready.workload_round (h : c.Ready) (hp : c.pollTimeout = some deadline)
    (hclock : deadline + c.rate ≤ Instant.latest) :
    c.Expires deadline ∧ c.round.workload < c.workload := by
  obtain ⟨x, hx⟩ := exists_mem_due h.resolves hp hclock
  have hless := workload_handleEvent h.opened h.agent deadline
  have hpos := List.length_pos_of_mem hx
  have hpolls := workload_pollOut (handleEvent (.timeout deadline) c).2
  refine ⟨expires_of_mem_due h.opened h.agent hx, ?_⟩
  rw [round_of_some hp]
  omega

/-! ### Rounds in a row -/

/-- Without events and deadlines there is no request. -/
theorem Sound.finished (h : c.Sound) (hempty : c.agent.events = []) (hp : c.pollTimeout = none) :
    c.Finished := by
  have htracked : c.agent.tracked = [] := by
    rwa [pollTimeout, Agent.pollTimeout, List.min?_eq_none_iff, List.map_eq_nil_iff] at hp
  have hrequests := h.requests_eq_nil htracked hempty
  exact ⟨List.length_eq_zero_iff.mpr hrequests, hp⟩

/-- A client that is done stays done. -/
theorem Sound.finished_iterate (h : c.Sound) (hempty : c.agent.events = [])
    (hp : c.pollTimeout = none) (k : Nat) : (round^[k] c).Finished := by
  rw [Function.iterate_fixed (round_of_none hp)]
  exact h.finished hempty hp

/-- A deadline is work that is left. -/
theorem workload_pos (hp : c.pollTimeout = some deadline) : 0 < c.workload := by
  obtain ⟨⟨x, hx, -⟩, -⟩ := pollTimeout_eq_some hp
  have hone : c.left x.id + 1 ≤ (c.agent.tracked.map fun x => c.left x.id + 1).sum :=
    List.le_sum_of_mem (List.mem_map_of_mem hx)
  rw [workload]
  omega

/-- **Rounds come to an end** with the work. -/
theorem Ready.finishes (h : c.Ready) (hempty : c.agent.events = []) {n : Nat}
    (hwork : c.workload ≤ n)
    (hclock : ∀ k < n, ∀ d ∈ (Client.round^[k] c).pollTimeout, d + c.rate ≤ Instant.latest) :
    ∃ k ≤ n,
      (∀ j < k, ∃ d ∈ (Client.round^[j] c).pollTimeout, (Client.round^[j] c).Expires d) ∧
      ∀ j ≥ k, (Client.round^[j] c).Finished := by
  -- on the work that is left, of which the first round uses some up
  induction n generalizing c with
  | zero =>
    rcases hp : c.pollTimeout with - | deadline
    · exact ⟨0, le_rfl, nofun, fun j _ => h.sound.finished_iterate hempty hp j⟩
    · have hpos := workload_pos hp
      omega
  | succ n ih =>
    rcases hp : c.pollTimeout with - | deadline
    · exact ⟨0, Nat.zero_le _, nofun, fun j _ => h.sound.finished_iterate hempty hp j⟩
    · obtain ⟨hexpires, hless⟩ := h.workload_round hp (hclock 0 (Nat.succ_pos n) deadline hp)
      have hempty' : c.round.agent.events = [] := by
        rw [round_of_some hp]
        exact events_pollOut _
      obtain ⟨k, hk, hrounds, hfinished⟩ := ih (h.round hp) hempty' (by omega) fun k hk d hd => by
        rw [(settings_round c).rate]
        exact hclock (k + 1) (Nat.succ_lt_succ hk) d hd
      -- the rounds after the first are those of the client that it leaves
      refine ⟨k + 1, Nat.succ_le_succ hk, fun j hj => ?_, fun j hj => ?_⟩
      · cases j with
        | zero => exact ⟨deadline, hp, hexpires⟩
        | succ j => exact hrounds j (Nat.lt_of_succ_lt_succ hj)
      · cases j with
        | zero => omega
        | succ j => exact hfinished j (Nat.le_of_succ_le_succ hj)

/-- **Driven by its deadlines alone, a client is done after finitely many
rounds.**  Take any run that leaves the client open, and poll it until nothing
is reported.  As long as the clock reaches as far ahead of each deadline as the
resolution, which must not be zero, every round ends an attempt that is under
way, until no request waits and no deadline is left.  That is so after no more
rounds than the transactions that were under way have attempts, and it stays
so. -/
theorem rounds_finish (t : Tuning) (route : Route) (past : List Call)
    (hopen : ((ofTuning t route).run past).2.closed = false) (hrate : 0 < t.rate)
    (hclock : let c := ((ofTuning t route).run past).2.pollOut
      ∀ k < c.agent.tracked.length * (t.maxAttempts.toNat + 1),
        ∀ d ∈ (round^[k] c).pollTimeout, d + t.effectiveRate ≤ Instant.latest) :
    let c := ((ofTuning t route).run past).2.pollOut
    ∃ n ≤ c.agent.tracked.length * (t.maxAttempts.toNat + 1),
      (∀ k < n, ∃ d ∈ (round^[k] c).pollTimeout, (round^[k] c).Expires d) ∧
      ∀ k ≥ n, (round^[k] c).Finished := by
  intro c
  have hsettings : SameSettings (ofTuning t route) c :=
    (settings_run (ofTuning t route) past).trans (settings_pollOut _)
  have hresolves : 0 < ((ofTuning t route).run past).2.rate := by
    rw [(settings_run (ofTuning t route) past).rate]
    exact Nat.lt_min.mpr ⟨hrate, by decide⟩
  have hready : c.Ready := Ready.pollOut ⟨sound_run t route past, hopen, hresolves⟩
  have hempty : c.agent.events = [] := events_pollOut _
  have hwork : c.workload ≤ c.agent.tracked.length * (t.maxAttempts.toNat + 1) := by
    have hbound := workload_le hempty
    rwa [hsettings.maxAttempts] at hbound
  refine hready.finishes hempty hwork fun k hk d hd => ?_
  rw [hsettings.rate]
  exact hclock k hk d hd

/-- Two requests that are sent twice each.  In four rounds both are done. -/
theorem rounds_finish_two_requests :
    let first := Message.new ⟨⟨1⟩, .request⟩ .zero
    let second := Message.new ⟨⟨1⟩, .request⟩ ⟨List.replicate 12 1, rfl⟩
    let here : Endpoint := ⟨⟨.v4, [10, 0, 0, 2], rfl⟩, 40000⟩
    let there : Endpoint := ⟨⟨.v4, [198, 51, 100, 1], rfl⟩, 3478⟩
    let t : Tuning := { maxAttempts := 1 }
    let past := [.write first 0, .write second 100000000]
    let c := ((ofTuning t ⟨here, there, .udp⟩).run past).2.pollOut
    c.agent.tracked.length * (t.maxAttempts.toNat + 1) = 4 ∧
      ((List.range 5).map fun k => (round^[k] c).pending) = [2, 2, 2, 1, 0] ∧
      ∃ n ≤ 4, (∀ k < n, ∃ d ∈ (round^[k] c).pollTimeout, (round^[k] c).Expires d) ∧
        ∀ k ≥ n, (round^[k] c).Finished := by
  intro first second here there t past c
  have hlength : c.agent.tracked.length * (t.maxAttempts.toNat + 1) = 4 := by decide +kernel
  refine ⟨hlength, by decide +kernel, ?_⟩
  rw [← hlength]
  exact rounds_finish t ⟨here, there, .udp⟩ past (by decide +kernel) (by decide)
    (by decide +kernel)

end Client

end Stun
