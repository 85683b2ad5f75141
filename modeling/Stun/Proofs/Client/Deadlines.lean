/-
Stun/Proofs/Client/Deadlines.lean

Deadlines are counted exactly.

A deadline is the time of a datagram and as many timeouts as there were
attempts.  Two tables are behind that: the agent has the deadline, the client
the number of the attempt, and neither has the time the datagram was queued
with.  That time stands in the ledger of the run, so the tables are held
against the ledger (`Dated`).  An attempt begins in one of two places, when a
request is accepted and when the event loop repeats it, and both queue the
datagram, keep the request and begin the transaction with one time
(`Dated.begun`).  All other calls take entries from the tables or leave them.

Timeouts are bounded before they are counted, so for an attempt whose number
can be told no operation reaches its end (`deadline?_exact`).  What is past the
end of the clock is refused, and not brought nearer.

Main result: the deadlines of every run are exact, and where the clock does not
reach the exact one there is none (`deadlines_exact`).
-/
import Stun.Proofs.Client.Backoff
import Stun.Proofs.Client.Polling
import Stun.Proofs.Client.Refusals

namespace Stun

namespace Client

variable {c c' : Client} {id : TransactionId} {t : Tuning} {sent : List Sending}

/-- The deadline of an attempt that can be numbered is as many timeouts away,
if the clock reaches that far. -/
theorem deadline?_exact (htimeout : c.timeout = t.effectiveTimeout) {attempt : UInt32}
    (h : attempt.toNat < 4294967295) (now : Instant) :
    c.deadline? attempt now = Instant.after? now ((attempt.toNat + 1) * t.exactTimeout) := by
  rw [deadline?, htimeout, times_attemptNumber, attemptNumber_exact h, t.effectiveTimeout_eq,
    Nat.mul_comm]

/-! ### Tables and ledger -/

/-- The deadline of an attempt is counted from the last datagram of its
request, as the ledger has it. -/
structure Dated (sent : List Sending) (c : Client) : Prop where
  attempts : ∀ r ∈ c.requests, r.attempt ≤ c.maxAttempts
  deadlines : ∀ r ∈ c.requests, ∀ x ∈ c.agent.tracked, x.id = r.id →
    ∃ s, (sentFor r.id sent).getLast? = some s ∧
      c.deadline? r.attempt s.now = some x.deadline

theorem dated_ofTuning (t : Tuning) (route : Route) : Dated [] (ofTuning t route) :=
  ⟨nofun, nofun⟩

theorem deadline?_congr (h : c'.timeout = c.timeout) : c'.deadline? = c.deadline? := by
  funext attempt now
  rw [deadline?, deadline?, h]

/-- With fewer requests and transactions there is less to say. -/
theorem Dated.fewer (h : Dated sent c) (hsettings : SameSettings c c')
    (hrequests : ∀ r ∈ c'.requests, r ∈ c.requests)
    (htracked : ∀ x ∈ c'.agent.tracked, x ∈ c.agent.tracked) : Dated sent c' where
  attempts r hr := hsettings.maxAttempts ▸ h.attempts r (hrequests r hr)
  deadlines r hr x hx hid := by
    obtain ⟨s, hlast, hd⟩ := h.deadlines r (hrequests r hr) x (htracked x hx) hid
    exact ⟨s, hlast, deadline?_congr hsettings.timeout ▸ hd⟩

/-- Where nothing is queued the ledger is the same. -/
theorem Dated.quiet (h : Dated sent c) (hsettings : SameSettings c c')
    (hrequests : ∀ r ∈ c'.requests, r ∈ c.requests)
    (htracked : ∀ x ∈ c'.agent.tracked, x ∈ c.agent.tracked)
    (houtbound : c'.outbound = c.outbound) (id : TransactionId) :
    Dated (sent ++ queuedFor id c c') c' := by
  have hnone : c'.outbound = c.outbound ++ [] := houtbound.trans (List.append_nil _).symm
  rw [queuedFor_eq hnone, List.map_nil, List.append_nil]
  exact h.fewer hsettings hrequests htracked

/-- **An attempt that begins** is dated by the datagram that is queued for it. -/
theorem Dated.begun (h : Dated sent c) (hsettings : SameSettings c c') {r : Request}
    (hid : r.id = id) {now deadline : Instant} (hnew : c.agent.isTracking id = false)
    (hattempt : r.attempt ≤ c.maxAttempts) (hd : c.deadline? r.attempt now = some deadline)
    (hrequests : c'.requests = c.requests.filter (·.id ≠ id) ++ [r])
    (htracked : c'.agent.tracked = c.agent.tracked ++ [⟨id, deadline⟩])
    (houtbound : c'.outbound = c.outbound ++ [⟨now, c.route, r.raw⟩]) :
    Dated (sent ++ queuedFor id c c') c' := by
  subst hid
  have hother : ∀ x ∈ c.agent.tracked, x.id ≠ r.id := by
    intro x hx hid
    have htracks : c.agent.isTracking x.id = true :=
      Agent.isTracking_iff.mpr (List.mem_map_of_mem hx)
    rw [hid, hnew] at htracks
    cases htracks
  constructor
  case attempts =>
    intro r' hr'
    rw [hsettings.maxAttempts]
    rcases List.mem_append.mp (hrequests ▸ hr') with hr' | hr'
    · exact h.attempts r' (List.mem_filter.mp hr').1
    · exact List.mem_singleton.mp hr' ▸ hattempt
  case deadlines =>
    intro r' hr' x hx hid
    rw [deadline?_congr hsettings.timeout]
    rcases List.mem_append.mp (hrequests ▸ hr') with hr' | hr' <;>
      rcases List.mem_append.mp (htracked ▸ hx) with hx | hx
    · -- nothing is queued for the requests that were there
      obtain ⟨hmem, hne⟩ := List.mem_filter.mp hr'
      have hne : r.id ≠ r'.id := Ne.symm (by simpa using hne)
      rw [sentFor_append, sentFor_queuedFor_other hne, List.append_nil]
      exact h.deadlines r' hmem x hx hid
    · -- and no other request has the id
      obtain rfl := List.mem_singleton.mp hx
      have hne := (List.mem_filter.mp hr').2
      simp [← hid] at hne
    · obtain rfl := List.mem_singleton.mp hr'
      exact absurd hid (hother x hx)
    · obtain rfl := List.mem_singleton.mp hr'
      obtain rfl := List.mem_singleton.mp hx
      rw [sentFor_append, sentFor_queuedFor houtbound, List.getLast?_concat]
      exact ⟨_, rfl, hd⟩

/-! ### Turns -/

/-- **One turn** keeps the tables dated. -/
theorem Dated.turn (h : Dated sent c) (e : Event) (rest : List Event) :
    Dated (sent ++ queuedFor e.id c (settle (c.take rest) e).2) (settle (c.take rest) e).2 := by
  have hsettings := settings_settle c e rest
  obtain ⟨-, he⟩ | ⟨r, hr, ⟨-, journal, he⟩ | ⟨-, hlt, -, hnew, deadline, journal, hd, he⟩⟩ :=
    settle_cases (c.take rest) e
  · refine h.quiet hsettings (fun r hr => ?_) (fun x hx => ?_) (by rw [he]; rfl) _
    · rwa [he] at hr
    · rwa [he] at hx
  · refine h.quiet hsettings (fun r hr => ?_) (fun x hx => ?_) (by rw [he]; rfl) _
    · rw [he] at hr
      exact (List.mem_filter.mp hr).1
    · rwa [he] at hx
  · have hid : r.id = e.id := id_of_find? hr
    have hattempt : r.attempt + 1 ≤ c.maxAttempts := by
      have hbelow : r.attempt.toNat < c.maxAttempts.toNat := UInt32.lt_iff_toNat_lt.mp hlt
      rw [UInt32.le_iff_toNat_le, toNat_succ_of_lt hlt]
      exact hbelow
    refine h.begun (r := { r with attempt := r.attempt + 1 }) hsettings hid hnew hattempt hd
      ?_ ?_ ?_ <;> rw [he] <;> rfl

/-- The loop keeps them dated, turn by turn. -/
theorem Dated.drain (h : Dated sent c) (events : List Event) :
    Dated (sent ++ drainSendings events c) (drain events c).2 := by
  induction events generalizing c sent with
  | nil =>
    rw [drainSendings, List.append_nil]
    exact h
  | cons e rest ih =>
    have hturn := h.turn e rest
    rw [drainSendings, ← List.append_assoc]
    rcases hs : settle (c.take rest) e with ⟨- | e', c'⟩ <;> rw [hs] at hturn
    · rw [drain_cons_none hs]
      exact ih hturn
    · rw [drain_cons_some hs, List.append_nil]
      exact hturn

/-! ### Calls -/

theorem Dated.hint (h : Dated sent c) : Dated sent c.hint.2 := by
  obtain ⟨lastHint?, he⟩ := hint_cases c
  rw [he]
  exact ⟨h.attempts, h.deadlines⟩

theorem Dated.pollEvent (h : Dated sent c) :
    Dated (sent ++ c.sendings .pollEvent) c.pollEvent.2 := by
  have h₁ := h.hint
  rw [sendings, Client.pollEvent]
  rcases e₁ : c.hint with ⟨- | deadline, c₁⟩ <;> rw [e₁] at h₁ <;> dsimp only at h₁ ⊢
  · have h₂ := h₁.drain c₁.agent.events
    rcases e₂ : Client.drain c₁.agent.events c₁ with ⟨- | e, c₂⟩ <;> rw [e₂] at h₂
    · exact h₂.hint
    · exact h₂
  · rw [List.append_nil]
    exact h₁

theorem Dated.handleWrite (h : Dated sent c) (m : Message) (now : Instant) :
    Dated (sent ++ c.sendings (.write m now)) (handleWrite m now c).2 := by
  have hsettings : SameSettings c (Client.handleWrite m now c).2 :=
    settings_perform c (.write m now)
  rw [sendings]
  obtain ⟨-, e, he⟩ | ⟨-, -, hnew, deadline, journal, hd, he⟩ := handleWrite_cases m now c
  · refine h.quiet hsettings (fun r hr => ?_) (fun x hx => ?_) (by rw [he]) _
    · rwa [he] at hr
    · rwa [he] at hx
  · have hattempt : (0 : UInt32) ≤ c.maxAttempts := UInt32.zero_le
    refine h.begun (r := ⟨m.id, 0, now, m.raw⟩) hsettings rfl hnew hattempt hd ?_ ?_ ?_ <;>
      rw [he]

/-- A call that queues nothing adds nothing to the tables. -/
theorem mem_tables_perform {call : Call} (hwrite : ∀ m now, call ≠ .write m now)
    (hpoll : call ≠ .pollEvent) :
    (c.perform call).2.requests = c.requests ∧
      ∀ x ∈ (c.perform call).2.agent.tracked, x ∈ c.agent.tracked := by
  cases call with
  | write m now => exact absurd rfl (hwrite m now)
  | read datagram =>
    obtain ⟨e, he⟩ | ⟨-, m, -, he⟩ := handleRead_cases datagram c <;> rw [Client.perform, he]
    · exact ⟨rfl, fun _ hx => hx⟩
    · exact ⟨rfl, fun _ hx => Agent.mem_tracked_process hx⟩
  | event input =>
    cases input with
    | timeout now =>
      obtain ⟨-, he⟩ | ⟨-, horizon, -, he⟩ := handleEvent_timeout_cases now c <;>
        rw [Client.perform, he]
      · exact ⟨rfl, fun _ hx => hx⟩
      · exact ⟨rfl, fun _ hx => Agent.mem_tracked_collect hx⟩
    | close =>
      obtain ⟨-, he⟩ | ⟨-, journal, he⟩ := handleEvent_close_cases c <;> rw [Client.perform, he]
      · exact ⟨rfl, fun _ hx => hx⟩
      · exact ⟨rfl, fun _ hx => Agent.mem_tracked_close (a := { c.agent with journal }) hx⟩
  | pollWrite =>
    rw [Client.perform, pollWrite_eq]
    exact ⟨rfl, fun _ hx => hx⟩
  | pollEvent => exact absurd rfl hpoll

theorem Dated.silent (h : Dated sent c) {call : Call} (hsent : c.sendings call = [])
    (hwrite : ∀ m now, call ≠ .write m now) (hpoll : call ≠ .pollEvent) :
    Dated (sent ++ c.sendings call) (c.perform call).2 := by
  obtain ⟨hrequests, htracked⟩ := mem_tables_perform (c := c) hwrite hpoll
  rw [hsent, List.append_nil]
  exact h.fewer (settings_perform c call) (fun _ hr => hrequests ▸ hr) htracked

/-- **Every call** keeps the tables dated, by what it queues. -/
theorem Dated.perform (h : Dated sent c) (call : Call) :
    Dated (sent ++ c.sendings call) (c.perform call).2 := by
  cases call with
  | write m now => exact h.handleWrite m now
  | pollEvent => exact h.pollEvent
  | read | event | pollWrite => exact h.silent rfl nofun nofun

/-- **Every run** keeps the tables dated, by its ledger. -/
theorem Dated.run (h : Dated sent c) (calls : List Call) :
    Dated (sent ++ ledger (c.steps calls)) (c.run calls).2 := by
  -- what a call queues is part of the ledger for those that follow
  induction calls generalizing c sent with
  | nil =>
    rw [steps, ledger_nil, List.append_nil]
    exact h
  | cons call calls ih =>
    rw [steps, ledger_cons, ← List.append_assoc]
    exact ih (h.perform call)

/-- The deadline of an attempt that can be numbered is the time of its datagram
and one timeout for each attempt. -/
theorem Dated.exact (h : Dated sent c) (htimeout : c.timeout = t.effectiveTimeout) {r : Request}
    (hr : r ∈ c.requests) {x : Tracked} (hx : x ∈ c.agent.tracked) (hid : x.id = r.id)
    (hlt : r.attempt.toNat < 4294967295) :
    ∃ s, (sentFor r.id sent).getLast? = some s ∧
      x.deadline = s.now + ((r.attempt.toNat + 1) * t.exactTimeout : Nat) ∧
      x.deadline ≤ Instant.latest := by
  obtain ⟨s, hlast, hd⟩ := h.deadlines r hr x hx hid
  rw [deadline?_exact htimeout hlt, Instant.after?] at hd
  split at hd
  · rename_i hreached
    have hexact := Option.some.inj hd
    exact ⟨s, hlast, hexact.symm, hexact ▸ hreached⟩
  · cases hd

/-! ### Deadlines past the end of the clock -/

/-- There is no deadline exactly if the exact one is past the end of the clock. -/
theorem deadline?_eq_none_iff (htimeout : c.timeout = t.effectiveTimeout) {attempt : UInt32}
    (h : attempt.toNat < 4294967295) (now : Instant) :
    c.deadline? attempt now = none ↔
      Instant.latest < now + ((attempt.toNat + 1) * t.exactTimeout : Nat) := by
  rw [deadline?_exact htimeout h, Instant.after?, ← not_le]
  exact ite_eq_right_iff.trans (by simp)

/-- **A request is refused** for its configuration exactly if its first deadline
is past the end of the clock. -/
theorem Sound.write_refused_iff (h : c.Sound) (hopen : c.closed = false)
    (htimeout : c.timeout = t.effectiveTimeout) (m : Message) (now : Instant) :
    (∃ text, c.perform (.write m now) = (.done (.error (.configuration text)), c)) ↔
      Instant.latest < now + t.exactTimeout := by
  have hclock : c.deadline? 0 now = none ↔ Instant.latest < now + t.exactTimeout := by
    have hzero : (0 : UInt32).toNat < 4294967295 := by decide
    have hfirst := deadline?_eq_none_iff htimeout hzero now
    rwa [UInt32.toNat_zero, Nat.zero_add, Nat.one_mul] at hfirst
  rw [← hclock]
  constructor
  · rintro ⟨text, he⟩
    obtain ⟨-, hreason⟩ := h.perform_eq_error_iff.mp he
    cases hreason with
    | clock _ hnone => exact hnone
  · intro hnone
    exact ⟨_, (Refusal.clock hopen hnone).perform_eq h⟩

/-- The events that the loop deals with, each with the client that it finds. -/
def drainTurns : List Event → Client → List (Client × Event)
  | [], _ => []
  | e :: rest, c =>
    (c.take rest, e) ::
      match settle (c.take rest) e with
      | (some _, _) => []
      | (none, c') => drainTurns rest c'

/-- The events that a poll deals with, each with the client that it finds. -/
def turns (c : Client) : List (Client × Event) :=
  match c.hint with
  | (some _, _) => []
  | (none, c') => drainTurns c'.agent.events c'

variable {b b' : Client} {e e' : Event} {events : List Event}

/-- What an attempt depends on is the same in every turn. -/
theorem alike_of_mem_drainTurns (h : (b, e) ∈ drainTurns events c) : Alike c b := by
  induction events generalizing c with
  | nil => cases h
  | cons e₁ rest ih =>
    have halike := alike_settle c e₁ rest
    rcases List.mem_cons.mp h with h | h
    · cases h
      exact ⟨rfl, rfl, rfl, rfl, rfl⟩
    · rcases hs : settle (c.take rest) e₁ with ⟨- | e₂, c₁⟩ <;> rw [hs] at h halike
      · exact halike.trans (ih h)
      · cases h

/-- What a turn hands on the loop does. -/
theorem drain_of_mem_drainTurns (h : (b, e) ∈ drainTurns events c)
    (hs : settle b e = (some e', b')) : drain events c = (some e', b') := by
  induction events generalizing c with
  | nil => cases h
  | cons e₁ rest ih =>
    rcases List.mem_cons.mp h with h | h
    · cases h
      exact drain_cons_some hs
    · -- the turns before it handed nothing on
      rcases hfirst : settle (c.take rest) e₁ with ⟨- | e₂, c₁⟩ <;> rw [hfirst] at h
      · exact (drain_cons_none hfirst).trans (ih h)
      · cases h

/-- A poll that deals with events has no deadline to report before. -/
theorem turns_cases (h : (b, e) ∈ c.turns) :
    c.hint = (none, c) ∧ (b, e) ∈ drainTurns c.agent.events c := by
  obtain ⟨-, he⟩ | ⟨deadline, -, -, he⟩ := hint_due_cases c <;> rw [turns, he] at h
  · exact ⟨he, h⟩
  · cases h

theorem alike_of_mem_turns (h : (b, e) ∈ c.turns) : Alike c b :=
  alike_of_mem_drainTurns (turns_cases h).2

/-- What a turn hands on the poll reports. -/
theorem pollEvent_of_mem_turns (h : (b, e) ∈ c.turns) (hs : settle b e = (some e', b')) :
    c.pollEvent = (some (.transaction e'), b') := by
  obtain ⟨hhint, hmem⟩ := turns_cases h
  simp only [Client.pollEvent, hhint, drain_of_mem_drainTurns hmem hs]

/-- Without a deadline for another attempt an event is handed on. -/
theorem settle_of_nextDeadline?_eq_none {r : Request}
    (hr : c.requests.find? (·.id = e.id) = some r) (hnone : c.nextDeadline? r = none) :
    ∃ journal, settle c e = (some e, { c with
      agent := { c.agent with journal }
      requests := c.requests.filter (·.id ≠ e.id) }) := by
  obtain ⟨hmissing, -⟩ | ⟨r', hr', ⟨-, he⟩ | ⟨-, -, -, -, deadline, -, hd, -⟩⟩ := settle_cases c e
  · exact absurd (mem_ids_of_find? hr) hmissing
  · exact he
  · rw [hr] at hr'
    obtain rfl := Option.some.inj hr'
    exact absurd (hnone.symm.trans hd) nofun

/-- With one, a request that ran out of time is begun again under it. -/
theorem settle_of_nextDeadline?_eq_some {r : Request} {deadline : Instant}
    (hr : c.requests.find? (·.id = e.id) = some r)
    (houtcome : e.outcome = .failed .transactionTimedOut) (hlt : r.attempt < c.maxAttempts)
    (hopen : c.agent.closed = false) (hnew : c.agent.isTracking e.id = false)
    (hd : c.nextDeadline? r = some deadline) :
    (settle c e).1 = none ∧
      (settle c e).2.agent.tracked = c.agent.tracked ++ [⟨e.id, deadline⟩] := by
  obtain ⟨hmissing, -⟩ | ⟨r', hr', ⟨hreason, -⟩ | ⟨-, -, -, -, deadline', journal, hd', he⟩⟩ :=
    settle_cases c e
  · exact absurd (mem_ids_of_find? hr) hmissing
  · rw [hr] at hr'
    obtain rfl := Option.some.inj hr'
    rcases hreason with hother | hmax | hnone | hclosed | htracked
    · exact absurd houtcome hother
    · exact absurd hlt (UInt32.not_lt.mpr hmax)
    · exact absurd (hnone.symm.trans hd) nofun
    · exact absurd (hopen.symm.trans hclosed) nofun
    · exact absurd (hnew.symm.trans htracked) nofun
  · rw [hr] at hr'
    obtain rfl := Option.some.inj hr'
    obtain rfl : deadline' = deadline := Option.some.inj (hd'.symm.trans hd)
    rw [he]
    exact ⟨rfl, rfl⟩

/-- The deadline of another attempt, in a turn of a poll. -/
theorem nextDeadline?_exact (halike : Alike c b) (htimeout : c.timeout = t.effectiveTimeout)
    {r : Request} (h : r.attempt.toNat + 1 < 4294967295) :
    b.nextDeadline? r
      = Instant.after? (c.lastNow?.getD r.start) ((r.attempt.toNat + 2) * t.exactTimeout) := by
  have hnext : (r.attempt + 1).toNat = r.attempt.toNat + 1 := by
    rw [UInt32.toNat_add, UInt32.toNat_one]
    omega
  rw [halike.nextDeadline?, nextDeadline?, deadline?_exact htimeout (hnext ▸ h), hnext]

/-! ### Every run -/

/-- **Deadlines are exact**, whatever the tuning and whatever was called.

Counting does not reach the end of any number, for no attempt that can be
numbered: the timeout is the bounded one, seven times for a client that never
repeats, and the span is the plain product.  The deadline of an attempt under
way is the time of the datagram that was queued last for its request and one
timeout for each attempt; a client that never repeats has only first attempts.

Where the exact deadline is past the end of the clock there is no other: the
request is refused for its configuration, and the end of an attempt that
another one would have followed is reported.  Otherwise the request is begun
again, unless a transaction with its id is under way. -/
theorem deadlines_exact (t : Tuning) (route : Route) (past : List Call) :
    let start := ofTuning t route
    let c := (start.run past).2
    (c.timeout = t.exactTimeout ∧ ∀ attempt : UInt32, attempt.toNat < 4294967295 →
      attemptNumber attempt = attempt.toNat + 1 ∧
      Duration.times c.timeout (attempt.toNat + 1) = c.timeout * (attempt.toNat + 1)) ∧
    (∀ r ∈ c.requests, (t.maxAttempts = 0 → r.attempt = 0) ∧
      ∀ x ∈ c.agent.tracked, x.id = r.id → r.attempt.toNat < 4294967295 →
        ∃ s, (sentFor r.id (ledger (start.steps past))).getLast? = some s ∧
          x.deadline = s.now + ((r.attempt.toNat + 1) * t.exactTimeout : Nat) ∧
          x.deadline ≤ Instant.latest) ∧
    (c.closed = false → ∀ m now,
      (∃ text, c.perform (.write m now) = (.done (.error (.configuration text)), c)) ↔
        Instant.latest < now + t.exactTimeout) ∧
    ∀ b e, (b, e) ∈ c.turns → e.outcome = .failed .transactionTimedOut →
      ∀ r, b.requests.find? (·.id = e.id) = some r → r.attempt < t.maxAttempts →
        r.attempt.toNat + 1 < 4294967295 →
        let exact : Instant :=
          c.lastNow?.getD r.start + ((r.attempt.toNat + 2) * t.exactTimeout : Nat)
        (Instant.latest < exact → ∃ journal, c.pollEvent = (some (.transaction e), { b with
          agent := { b.agent with journal }
          requests := b.requests.filter (·.id ≠ e.id) })) ∧
        (exact ≤ Instant.latest → c.closed = false → b.agent.isTracking e.id = false →
          (settle b e).1 = none ∧
            (settle b e).2.agent.tracked = b.agent.tracked ++ [⟨e.id, exact⟩]) := by
  intro start c
  have hsettings : SameSettings start c := settings_run start past
  have htimeout : c.timeout = t.effectiveTimeout := hsettings.timeout
  have hsound : c.Sound := sound_run t route past
  have hdated : Dated (ledger (start.steps past)) c := (dated_ofTuning t route).run past
  refine ⟨⟨htimeout.trans t.effectiveTimeout_eq, fun attempt hlt => ?_⟩, fun r hr => ⟨?_, ?_⟩,
    fun hopen m now => hsound.write_refused_iff hopen htimeout m now, ?_⟩
  · -- seven minutes as often as an attempt can be numbered is a span that can be told
    have hnumber := attemptNumber_exact hlt
    refine ⟨hnumber, ?_⟩
    rw [← hnumber, htimeout]
    exact times_attemptNumber t attempt
  · intro hnever
    have hattempt := hdated.attempts r hr
    rw [hsettings.maxAttempts] at hattempt
    exact UInt32.le_antisymm (hnever ▸ hattempt) UInt32.zero_le
  · intro x hx hid hlt
    exact hdated.exact htimeout hr hx hid hlt
  · intro b e hturn houtcome r hr hlt hnumber exact
    have halike := alike_of_mem_turns hturn
    have hnext := nextDeadline?_exact halike htimeout hnumber
    constructor
    · intro hpast
      rw [Instant.after?, if_neg (not_le.mpr hpast)] at hnext
      obtain ⟨journal, hs⟩ := settle_of_nextDeadline?_eq_none hr hnext
      exact ⟨journal, pollEvent_of_mem_turns hturn hs⟩
    · intro hreached hopen hnew
      rw [Instant.after?, if_pos hreached] at hnext
      have hlt' : r.attempt < b.maxAttempts := by
        rw [halike.maxAttempts, hsettings.maxAttempts]
        exact hlt
      have hagent : b.agent.closed = false := (halike.closed.trans hsound.closed).trans hopen
      exact settle_of_nextDeadline?_eq_some hr houtcome hlt' hagent hnew hnext

/-- Near the end of the clock a request is repeated once, but not a second time,
and no other request is accepted. -/
theorem deadlines_exact_near_the_end :
    let request := Message.new ⟨⟨1⟩, .request⟩ .zero
    let other := Message.new ⟨⟨1⟩, .request⟩ ⟨List.replicate 12 1, rfl⟩
    let here : Endpoint := ⟨⟨.v4, [10, 0, 0, 2], rfl⟩, 40000⟩
    let there : Endpoint := ⟨⟨.v4, [198, 51, 100, 1], rfl⟩, 3478⟩
    let t : Tuning := { maxAttempts := 2 }
    let past := [.write request (Instant.latest - 1000000000),
      .event (.timeout (Instant.latest - 650000000)), .pollEvent,
      .event (.timeout (Instant.latest - 40000000))]
    let c := ((ofTuning t ⟨here, there, .udp⟩).run past).2
    c.requests.map Request.attempt = [1] ∧
      (∃ text, c.perform (.write other (Instant.latest - 40000000))
        = (.done (.error (.configuration text)), c)) ∧
      c.pollEvent.1 = some (.transaction ⟨.zero, .failed .transactionTimedOut⟩) := by
  intro request other here there t past c
  obtain ⟨-, -, hwrite, hturns⟩ := deadlines_exact t ⟨here, there, .udp⟩ past
  refine ⟨by decide +kernel, (hwrite (by decide +kernel) other _).mpr (by decide +kernel), ?_⟩
  have hturn : (c.take [], ⟨.zero, .failed .transactionTimedOut⟩) ∈ c.turns := by decide +kernel
  obtain ⟨hpast, -⟩ := hturns _ _ hturn rfl
    ⟨.zero, 1, Instant.latest - 1000000000, request.raw⟩ (by decide +kernel) (by decide)
    (by decide)
  obtain ⟨journal, hreported⟩ := hpast (by decide +kernel)
  exact congrArg Prod.fst hreported

end Client

end Stun
