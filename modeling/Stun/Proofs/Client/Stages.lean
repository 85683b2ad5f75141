/-
Stun/Proofs/Client/Stages.lean

What each call makes of one request.

Seen from one id, a client is in one of three stages: there is no request with
it, an attempt of its request is under way with the agent, or the end of an
attempt is queued there.  A call leaves the stage or changes it in one of four
ways (`Progress`), each with the datagrams that are queued for the id and the
outcome that is reported for it.  Requests with other ids do not come into it:
their events change nothing in a turn of the event loop, and of this id there
is one event at most (`At.drain`).

Main result: every call is progress of this kind, unless it accepts a request
while another one waits under its id (`At.perform`).
-/
import Mathlib.Data.List.Basic
import Stun.Proofs.Client.Answers
import Stun.Proofs.Client.Ledger

namespace Stun

namespace Client

/-! ### Stages -/

/-- How far the request with an id has come, if there is one. -/
inductive Stage where
  /-- No request has the id. -/
  | absent
  /-- The agent waits for an answer, until the deadline. -/
  | underway (r : Request) (deadline : Instant)
  /-- The attempt ended, and its event is queued. -/
  | ended (r : Request) (outcome : Outcome)

namespace Stage

/-- The request. -/
def request? : Stage → Option Request
  | .absent => none
  | .underway r _ => some r
  | .ended r _ => some r

/-- What the agent has under way with the id. -/
def tracked? (id : TransactionId) : Stage → Option Tracked
  | .underway _ deadline => some ⟨id, deadline⟩
  | _ => none

/-- The event of the id that is queued. -/
def event? (id : TransactionId) : Stage → Option Event
  | .ended _ outcome => some ⟨id, outcome⟩
  | _ => none

end Stage

/-- The tables of a client, as far as they concern an id, are those of a stage. -/
structure At (c : Client) (id : TransactionId) (s : Stage) : Prop where
  requests : c.requests.filter (·.id = id) = s.request?.toList
  tracked : c.agent.tracked.filter (·.id = id) = (s.tracked? id).toList
  events : c.agent.events.filter (·.id = id) = (s.event? id).toList

/-- An attempt whose deadline is before this counts as out of time. -/
def horizon (c : Client) (now : Instant) : Instant := (Instant.after? now c.rate).getD now

/-- The deadline of one attempt more. -/
def nextDeadline? (c : Client) (r : Request) : Option Instant :=
  c.deadline? (r.attempt + 1) (c.lastNow?.getD r.start)

/-- The step that a call is. -/
def step (c : Client) (call : Call) : Step := ⟨c, call, (c.perform call).1⟩

theorem steps_cons (c : Client) (call : Call) (calls : List Call) :
    c.steps (call :: calls) = c.step call :: (c.perform call).2.steps calls := rfl

/-- The call is one that ends an attempt with this deadline and this outcome. -/
inductive Ends (c : Client) (id : TransactionId) (deadline : Instant) : Call → Outcome → Prop
  | read {datagram : List UInt8} {m : Message} : Message.decode datagram = .ok m → m.id = id →
      Ends c id deadline (.read datagram) (.answered m)
  | timeout {now : Instant} : deadline < c.horizon now →
      Ends c id deadline (.event (.timeout now)) (.failed .transactionTimedOut)
  | close : Ends c id deadline (.event .close) (.failed .agentClosed)

/-- What a call can make of a request: the stages before and after it, and in
between the datagrams it queues and the outcome it reports. -/
inductive Progress (c : Client) (id : TransactionId) :
    Call → Stage → List Transmit → Option Outcome → Stage → Prop
  /-- Nothing happens to the request. -/
  | stays {call : Call} {s : Stage} :
      (c.step call).accepts id = false →
      Progress c id call s [] none s
  /-- The request is accepted and sent for the first time. -/
  | begins {m : Message} {now deadline : Instant} :
      (c.step (.write m now)).accepts id = true →
      c.deadline? 0 now = some deadline →
      Progress c id (.write m now) .absent [⟨now, c.route, m.raw⟩] none
        (.underway ⟨id, 0, now, m.raw⟩ deadline)
  /-- The attempt under way ends. -/
  | ends {call : Call} {r : Request} {deadline : Instant} {o : Outcome} :
      Ends c id deadline call o →
      Progress c id call (.underway r deadline) [] none (.ended r o)
  /-- The request is sent once more. -/
  | repeats {r : Request} {deadline : Instant} :
      r.attempt < c.maxAttempts → c.nextDeadline? r = some deadline →
      Progress c id .pollEvent (.ended r (.failed .transactionTimedOut))
        [⟨c.lastNow?.getD r.start, c.route, r.raw⟩] none
        (.underway { r with attempt := r.attempt + 1 } deadline)
  /-- The request ends.  A timeout ends it only where no attempt can follow. -/
  | reports {r : Request} {o : Outcome} :
      (o = .failed .transactionTimedOut →
        c.agent.closed = true ∨ c.maxAttempts ≤ r.attempt ∨ c.nextDeadline? r = none) →
      Progress c id .pollEvent (.ended r o) [] (some o) .absent

variable {c : Client} {id : TransactionId} {s : Stage}

/-! ### Reading a stage -/

theorem at_ofTuning (t : Tuning) (route : Route) (id : TransactionId) :
    (ofTuning t route).At id .absent := ⟨rfl, rfl, rfl⟩

theorem At.find?_eq (h : c.At id s) : c.requests.find? (·.id = id) = s.request? := by
  rw [← List.head?_filter, h.requests]
  cases s.request? <;> rfl

theorem At.mem_iff (h : c.At id s) {r : Request} :
    r ∈ c.requests ∧ r.id = id ↔ s.request? = some r := by
  have hmem : r ∈ c.requests.filter (·.id = id) ↔ r ∈ c.requests ∧ r.id = id := by simp
  rw [← hmem, h.requests]
  simp

theorem At.underway_of_isTracking (h : c.At id s) (ht : c.agent.isTracking id = true) :
    ∃ r deadline, s = .underway r deadline := by
  obtain ⟨t, hfound, rfl⟩ := List.mem_map.mp (Agent.isTracking_iff.mp ht)
  have hmem : t ∈ c.agent.tracked.filter (·.id = t.id) := List.mem_filter.mpr ⟨hfound, by simp⟩
  rw [h.tracked] at hmem
  cases s with
  | underway r deadline => exact ⟨r, deadline, rfl⟩
  | _ => cases hmem

/-! ### Other ids -/

section Filter

variable {α : Type} (f : α → TransactionId) (l : List α)

/-- An id that is kept keeps all it has. -/
theorem filter_kept (p : TransactionId → Prop) [DecidablePred p] (hp : p id) :
    (l.filter fun x => p (f x)).filter (f · = id) = l.filter (f · = id) := by
  rw [List.filter_filter]
  refine List.filter_congr fun x _ => ?_
  by_cases hx : f x = id
  · simp [hx, hp]
  · simp [hx]

/-- An id that is struck off keeps nothing. -/
theorem filter_struck (p : TransactionId → Prop) [DecidablePred p] (hp : ¬ p id) :
    (l.filter fun x => p (f x)).filter (f · = id) = [] := by
  rw [List.filter_filter]
  refine List.filter_eq_nil_iff.mpr fun x _ => ?_
  by_cases hx : f x = id
  · simp [hx, hp]
  · simp [hx]

theorem filter_other {id' : TransactionId} (hne : id' ≠ id) :
    (l.filter (f · ≠ id')).filter (f · = id) = l.filter (f · = id) :=
  filter_kept f l (· ≠ id') (Ne.symm hne)

theorem filter_own (id : TransactionId) : (l.filter (f · ≠ id)).filter (f · = id) = [] :=
  filter_struck f l (· ≠ id) (not_not_intro rfl)

/-- What an id has decides whether it has anything. -/
theorem mem_map_iff_filter : id ∈ l.map f ↔ l.filter (f · = id) ≠ [] := by
  simp [List.filter_eq_nil_iff]

/-- Sorting changes nothing where there is at most one. -/
theorem filter_mergeSort {o? : Option α} (le : α → α → Bool)
    (h : l.filter (f · = id) = o?.toList) :
    (l.mergeSort le).filter (f · = id) = o?.toList := by
  have hperm : ((l.mergeSort le).filter (f · = id)).Perm o?.toList :=
    h ▸ (List.mergeSort_perm l le).filter _
  cases o? with
  | none => exact hperm.eq_nil
  | some x => exact List.perm_singleton.mp hperm

end Filter

/-- Another request that is kept does not come into it. -/
theorem At.keep_other (h : c.At id s) {r : Request} {id' : TransactionId} (hid : r.id = id')
    (hne : id' ≠ id) {deadline : Instant} {c' : Client}
    (hrequests : c'.requests = c.requests.filter (·.id ≠ id') ++ [r])
    (htracked : c'.agent.tracked = c.agent.tracked ++ [⟨id', deadline⟩])
    (hevents : c'.agent.events = c.agent.events) : c'.At id s where
  requests := by
    rw [hrequests, List.filter_append, filter_other Request.id _ hne, h.requests]
    simp [hid, hne]
  tracked := by
    rw [htracked, List.filter_append, h.tracked]
    simp [hne]
  events := by rw [hevents, h.events]

/-- The request itself is kept, and begun again with the agent. -/
theorem at_keep {c' : Client} {r : Request} {deadline : Instant} (hid : r.id = id)
    (hrequests : c'.requests = c.requests.filter (·.id ≠ id) ++ [r])
    (htracked : c'.agent.tracked = c.agent.tracked ++ [⟨id, deadline⟩])
    (hnone : c.agent.tracked.filter (·.id = id) = [])
    (hevents : c'.agent.events.filter (·.id = id) = []) : c'.At id (.underway r deadline) where
  requests := by
    rw [hrequests, List.filter_append, filter_own Request.id]
    simp [hid, Stage.request?]
  tracked := by
    rw [htracked, List.filter_append, hnone]
    simp [Stage.tracked?]
  events := hevents

/-! ### Calls that are told something -/

theorem At.write (h : c.At id s) (m : Message) (now : Instant)
    (hnew : (c.step (.write m now)).accepts id = true → s = .absent) :
    ∃ s', Progress c id (.write m now) s (sentFor id (c.sendings (.write m now))) none s' ∧
      (handleWrite m now c).2.At id s' := by
  obtain ⟨-, e, he⟩ | ⟨-, -, ht, deadline, journal, hd, he⟩ := handleWrite_cases m now c
  · have hnone : c.sendings (.write m now) = [] := by
      rw [sendings, he]
      exact queuedFor_eq (List.append_nil _).symm m.id
    have hrefused : (c.step (.write m now)).accepts id = false := by
      simp [step, Step.accepts, perform, he]
    rw [hnone, he]
    exact ⟨s, .stays hrefused, h⟩
  · by_cases hid : m.id = id
    · have haccept : (c.step (.write m now)).accepts id = true := by
        simp [step, Step.accepts, perform, he, hid]
      -- so there is no other request that it would overwrite
      obtain rfl := hnew haccept
      have hsent : sentFor id (c.sendings (.write m now)) = [⟨now, c.route, m.raw⟩] := by
        rw [sendings, hid]
        exact sentFor_queuedFor (by rw [he]) id
      rw [hsent, he]
      subst hid
      exact ⟨_, .begins haccept hd, at_keep rfl rfl rfl h.tracked h.events⟩
    · have hother : (c.step (.write m now)).accepts id = false := by
        simp [step, Step.accepts, perform, he, hid]
      rw [sendings, sentFor_queuedFor_other hid, he]
      exact ⟨s, .stays hother, h.keep_other (r := ⟨m.id, 0, now, m.raw⟩) rfl hid rfl rfl rfl⟩

theorem At.read (h : c.At id s) (datagram : List UInt8) :
    ∃ s', Progress c id (.read datagram) s [] none s' ∧ (handleRead datagram c).2.At id s' := by
  obtain ⟨e, he⟩ | ⟨-, m, hd, he⟩ := handleRead_cases datagram c <;> rw [he]
  · exact ⟨s, .stays rfl, h⟩
  · obtain ⟨-, hp⟩ | ⟨-, -, journal, hp⟩ | ⟨-, ht, journal, hp⟩ := Agent.process_cases m c.agent <;>
      rw [hp]
    · exact ⟨s, .stays rfl, h.requests, h.tracked, h.events⟩
    · exact ⟨s, .stays rfl, h.requests, h.tracked, h.events⟩
    · by_cases hid : m.id = id
      · subst hid
        obtain ⟨r, deadline, rfl⟩ := h.underway_of_isTracking ht
        refine ⟨.ended r (.answered m), .ends (.read hd rfl), h.requests, ?_, ?_⟩
        · exact filter_own Tracked.id _ _
        · rw [List.filter_append, h.events]
          simp [Stage.event?]
      · refine ⟨s, .stays rfl, h.requests, ?_, ?_⟩
        · exact (filter_other Tracked.id _ hid).trans h.tracked
        · rw [List.filter_append, h.events]
          simp [hid]

/-- The agent ends some transactions, and the attempt under way is one of them. -/
theorem At.finish {r : Request} {deadline : Instant} (h : c.At id (.underway r deadline))
    {ended : List Tracked} {e : Error} {c' : Client} (hrequests : c'.requests = c.requests)
    (hended : ended.filter (·.id = id) = [⟨id, deadline⟩])
    (htracked : c'.agent.tracked.filter (·.id = id) = [])
    (hevents : c'.agent.events = c.agent.events ++ ended.map (Tracked.failed e)) :
    c'.At id (.ended r (.failed e)) where
  requests := hrequests ▸ h.requests
  tracked := htracked
  events := by
    have hfailed : (ended.map (Tracked.failed e)).filter (·.id = id) = [⟨id, .failed e⟩] := by
      rw [List.filter_map]
      exact congrArg (List.map (Tracked.failed e)) hended
    rw [hevents, List.filter_append, h.events, hfailed]
    rfl

/-- The agent ends some transactions, but none with this id. -/
theorem At.spare (h : c.At id s) {ended : List Tracked} {e : Error} {c' : Client}
    (hrequests : c'.requests = c.requests) (hended : ended.filter (·.id = id) = [])
    (htracked : c'.agent.tracked.filter (·.id = id) = c.agent.tracked.filter (·.id = id))
    (hevents : c'.agent.events = c.agent.events ++ ended.map (Tracked.failed e)) : c'.At id s where
  requests := hrequests ▸ h.requests
  tracked := htracked.trans h.tracked
  events := by
    have hfailed : (ended.map (Tracked.failed e)).filter (·.id = id) = [] := by
      rw [List.filter_map]
      exact congrArg (List.map (Tracked.failed e)) hended
    rw [hevents, List.filter_append, h.events, hfailed, List.append_nil]

/-- Of an id, the attempt under way is due if its deadline is past. -/
theorem At.filter_due (h : c.At id s) (now : Instant) :
    (c.agent.due now).filter (·.id = id) = ((s.tracked? id).filter (·.deadline < now)).toList := by
  refine filter_mergeSort Tracked.id _ Tracked.le ?_
  rw [List.filter_comm, h.tracked, Option.toList_filter]

theorem At.timeout (h : c.At id s) (now : Instant) :
    ∃ s', Progress c id (.event (.timeout now)) s [] none s' ∧
      (handleEvent (.timeout now) c).2.At id s' := by
  obtain ⟨-, he⟩ | ⟨-, horizon, hhorizon, he⟩ := handleEvent_timeout_cases now c <;> rw [he]
  · exact ⟨s, .stays rfl, h⟩
  · obtain ⟨-, hp⟩ | ⟨-, journal, hp⟩ := Agent.collect_cases horizon c.agent <;> rw [hp]
    · exact ⟨s, .stays rfl, h.requests, h.tracked, h.events⟩
    · -- the attempt is due if one is under way and its deadline is past
      have hdue := h.filter_due horizon
      by_cases hlate : ∃ r deadline, s = .underway r deadline ∧ deadline < horizon
      · obtain ⟨r, deadline, rfl, hlt⟩ := hlate
        have hended : (c.agent.due horizon).filter (·.id = id) = [⟨id, deadline⟩] := by
          rw [hdue]
          simp [Stage.tracked?, Option.filter, hlt]
        have hmem : id ∈ (c.agent.due horizon).map Tracked.id := by
          simp [mem_map_iff_filter, hended]
        exact ⟨_, .ends (.timeout (hlt.trans_eq hhorizon)), h.finish rfl hended
          (filter_struck Tracked.id _ (· ∉ (c.agent.due horizon).map Tracked.id)
            (not_not_intro hmem)) rfl⟩
      · have hended : (c.agent.due horizon).filter (·.id = id) = [] := by
          rw [hdue]
          cases s with
          | underway r deadline => simpa [Stage.tracked?] using hlate
          | _ => rfl
        have hnot : id ∉ (c.agent.due horizon).map Tracked.id := by
          simp [mem_map_iff_filter, hended]
        exact ⟨s, .stays rfl, h.spare rfl hended
          (filter_kept Tracked.id _ (· ∉ (c.agent.due horizon).map Tracked.id) hnot) rfl⟩

theorem At.close (h : c.At id s) :
    ∃ s', Progress c id (.event .close) s [] none s' ∧ (handleEvent .close c).2.At id s' := by
  obtain ⟨-, he⟩ | ⟨-, journal, he⟩ := handleEvent_close_cases c <;> rw [he]
  · exact ⟨s, .stays rfl, h⟩
  · obtain ⟨-, hp⟩ | ⟨-, journal', hp⟩ := Agent.close_cases { c.agent with journal } <;> rw [hp]
    · exact ⟨s, .stays rfl, h.requests, h.tracked, h.events⟩
    · have hended := filter_mergeSort Tracked.id c.agent.tracked Tracked.le h.tracked
      cases s with
      | underway r deadline => exact ⟨_, .ends .close, h.finish rfl hended rfl rfl⟩
      | _ => exact ⟨_, .stays rfl, h.spare rfl hended h.tracked.symm rfl⟩

/-! ### The event loop -/

/-- The outcome of the event, if it is one of the id. -/
def outcomeFor (id : TransactionId) : Option Event → Option Outcome
  | some e => if e.id = id then some e.outcome else none
  | none => none

/-- The events of other ids leave the request where it is. -/
theorem At.settle_other (h : c.At id s) {e : Event} {rest : List Event}
    (hevents : c.agent.events = e :: rest) (hne : e.id ≠ id) :
    (settle (c.take rest) e).2.At id s := by
  have hrest : (c.take rest).At id s := by
    refine ⟨h.requests, h.tracked, ?_⟩
    have hsame := h.events
    rwa [hevents, List.filter_cons_of_neg (by simpa using hne)] at hsame
  obtain ⟨-, he⟩ | ⟨r, hr, ⟨-, journal, he⟩ | ⟨-, -, -, -, deadline, journal, -, he⟩⟩ :=
    settle_cases (c.take rest) e <;> rw [he]
  · exact hrest
  · exact ⟨(filter_other Request.id _ hne).trans h.requests, hrest.tracked, hrest.events⟩
  · have hid : r.id = e.id := id_of_find? hr
    exact hrest.keep_other (r := { r with attempt := r.attempt + 1 }) hid hne rfl rfl rfl

/-- The event of the id is followed by another attempt, or handed on. -/
theorem At.settle_own {r : Request} {o : Outcome} (h : c.At id (.ended r o)) {rest : List Event}
    (hevents : c.agent.events = ⟨id, o⟩ :: rest) :
    ∃ s', Progress c id .pollEvent (.ended r o)
        (sentFor id (queuedFor id c (settle (c.take rest) ⟨id, o⟩).2))
        (outcomeFor id (settle (c.take rest) ⟨id, o⟩).1) s' ∧
      (settle (c.take rest) ⟨id, o⟩).2.At id s' := by
  have hfind : (c.take rest).requests.find? (·.id = id) = some r := h.find?_eq
  have hid : r.id = id := id_of_find? hfind
  -- it is the only event of the id, and the attempt that it ended is not under way
  have hrest : rest.filter (·.id = id) = [] := by
    have hone := h.events
    rw [hevents, List.filter_cons_of_pos (by simp)] at hone
    exact (List.cons.inj hone).2
  have hnot : c.agent.isTracking id = false := by
    rw [← Bool.not_eq_true]
    intro ht
    obtain ⟨_, _, hs⟩ := h.underway_of_isTracking ht
    cases hs
  obtain ⟨hmissing, -⟩ | ⟨r', hr', hcase⟩ := settle_cases (c.take rest) ⟨id, o⟩
  · exact absurd (mem_ids_of_find? hfind) hmissing
  · obtain rfl : r = r' := Option.some.inj (hfind.symm.trans hr')
    obtain ⟨hreason, journal, he⟩ | ⟨ho, hlt, -, -, deadline, journal, hd, he⟩ := hcase
    · have hsent : sentFor id (queuedFor id c (settle (c.take rest) ⟨id, o⟩).2) = [] :=
        sentFor_queuedFor (by rw [he]; exact (List.append_nil _).symm) id
      rw [hsent, he]
      refine ⟨.absent, ?_, ?_⟩
      · rw [outcomeFor, if_pos rfl]
        refine .reports fun ho => ?_
        obtain hne | hmax | hnone | hclosed | ht := hreason
        · exact absurd ho hne
        · exact .inr (.inl hmax)
        · exact .inr (.inr hnone)
        · exact .inl hclosed
        · exact absurd (ht.symm.trans hnot) Bool.noConfusion
      · exact ⟨filter_own Request.id _ id, h.tracked, hrest⟩
    · obtain rfl : o = .failed .transactionTimedOut := ho
      have hsent : sentFor id (queuedFor id c
          (settle (c.take rest) ⟨id, .failed .transactionTimedOut⟩).2)
          = [⟨c.lastNow?.getD r.start, c.route, r.raw⟩] :=
        sentFor_queuedFor (by rw [he]; rfl) id
      rw [hsent, he]
      exact ⟨_, .repeats hlt hd, at_keep hid rfl rfl h.tracked hrest⟩

/-- **One turn of the event loop.** -/
theorem At.turn (h : c.At id s) {e : Event} {rest : List Event}
    (hevents : c.agent.events = e :: rest) :
    ∃ s', Progress c id .pollEvent s (sentFor id (queuedFor e.id c (settle (c.take rest) e).2))
        (outcomeFor id (settle (c.take rest) e).1) s' ∧
      (settle (c.take rest) e).2.At id s' := by
  by_cases hid : e.id = id
  · have hone := h.events
    rw [hevents, List.filter_cons_of_pos (by simpa using hid)] at hone
    cases s with
    | ended r o =>
      obtain rfl : e = ⟨id, o⟩ := (List.cons.inj hone).1
      exact h.settle_own hevents
    | _ => cases hone
  · have hnone : outcomeFor id (settle (c.take rest) e).1 = none := by
      rcases hs : (settle (c.take rest) e).1 with - | e'
      · rfl
      · rw [outcomeFor, eq_of_settle hs, if_neg hid]
    rw [sentFor_queuedFor_other hid, hnone]
    exact ⟨s, .stays rfl, h.settle_other hevents hid⟩

/-- What an attempt depends on is the same. -/
structure Alike (c c' : Client) : Prop where
  route : c'.route = c.route
  timeout : c'.timeout = c.timeout
  maxAttempts : c'.maxAttempts = c.maxAttempts
  lastNow : c'.lastNow? = c.lastNow?
  closed : c'.agent.closed = c.agent.closed

theorem Alike.trans {c' c'' : Client} (h : Alike c c') (h' : Alike c' c'') : Alike c c'' where
  route := h'.route.trans h.route
  timeout := h'.timeout.trans h.timeout
  maxAttempts := h'.maxAttempts.trans h.maxAttempts
  lastNow := h'.lastNow.trans h.lastNow
  closed := h'.closed.trans h.closed

theorem Alike.nextDeadline? {c' : Client} (h : Alike c c') (r : Request) :
    c'.nextDeadline? r = c.nextDeadline? r := by
  simp only [Client.nextDeadline?, deadline?, h.timeout, h.lastNow]

theorem alike_settle (c : Client) (e : Event) (rest : List Event) :
    Alike c (settle (c.take rest) e).2 := by
  obtain ⟨-, he⟩ | ⟨r, -, ⟨-, journal, he⟩ | ⟨-, -, -, -, deadline, journal, -, he⟩⟩ :=
    settle_cases (c.take rest) e <;> rw [he] <;> exact ⟨rfl, rfl, rfl, rfl, rfl⟩

theorem alike_hint (c : Client) : Alike c c.hint.2 := by
  obtain ⟨lastHint?, he⟩ := hint_cases c
  rw [he]
  exact ⟨rfl, rfl, rfl, rfl, rfl⟩

/-- A poll makes of a request what it would make of it in a client that is alike. -/
theorem Progress.of_alike {c' : Client} (halike : Alike c c') {s s' : Stage}
    {sent : List Transmit} {o? : Option Outcome} (h : Progress c' id .pollEvent s sent o? s') :
    Progress c id .pollEvent s sent o? s' := by
  cases h with
  | stays _ => exact .stays rfl
  | ends hends => cases hends
  | repeats hlt hd =>
    rw [halike.lastNow, halike.route]
    rw [halike.maxAttempts] at hlt
    rw [halike.nextDeadline?] at hd
    exact .repeats hlt hd
  | reports hreason =>
    rw [halike.closed, halike.maxAttempts, halike.nextDeadline?] at hreason
    exact .reports hreason

/-- Two turns one after the other are progress together, since only one of
them can concern the id. -/
theorem Progress.trans {s₁ s₂ s₃ : Stage} {sent₁ sent₂ : List Transmit} {o? : Option Outcome}
    (h₁ : Progress c id .pollEvent s₁ sent₁ none s₂)
    (h₂ : Progress c id .pollEvent s₂ sent₂ o? s₃) :
    Progress c id .pollEvent s₁ (sent₁ ++ sent₂) o? s₃ := by
  cases h₁ with
  | stays _ => exact h₂
  | ends hends => cases hends
  | repeats hlt hd =>
    -- the attempt that was begun does not end in the same poll
    cases h₂ with
    | stays _ => exact .repeats hlt hd
    | ends hends => cases hends

/-- **The event loop.** -/
theorem At.drain (events : List Event) (h : c.At id s) (hevents : c.agent.events = events) :
    ∃ s', Progress c id .pollEvent s (sentFor id (drainSendings events c))
        (outcomeFor id (drain events c).1) s' ∧
      (drain events c).2.At id s' := by
  induction events generalizing c s with
  | nil => exact ⟨s, .stays rfl, h⟩
  | cons e rest ih =>
    obtain ⟨s₁, hturn, h₁⟩ := h.turn hevents
    have halike := alike_settle c e rest
    have hleft : (settle (c.take rest) e).2.agent.events = rest := settle_events _ _
    rw [drainSendings, sentFor_append]
    rcases hs : settle (c.take rest) e with ⟨- | e', c'⟩ <;> rw [hs] at hturn h₁ halike hleft
    · -- the rest of the loop runs on a client that is alike
      obtain ⟨s₂, hloop, h₂⟩ := ih h₁ hleft
      rw [drain_cons_none hs]
      exact ⟨s₂, hturn.trans (hloop.of_alike halike), h₂⟩
    · rw [drain_cons_some hs, sentFor_nil, List.append_nil]
      exact ⟨s₁, hturn, h₁⟩

theorem At.hint (h : c.At id s) : c.hint.2.At id s := by
  obtain ⟨lastHint?, he⟩ := hint_cases c
  rw [he]
  exact ⟨h.requests, h.tracked, h.events⟩

theorem At.pollEvent (h : c.At id s) :
    ∃ s', Progress c id .pollEvent s (sentFor id (c.sendings .pollEvent))
        (Step.reported? id (c.step .pollEvent)) s' ∧
      c.pollEvent.2.At id s' := by
  simp only [sendings, step, Step.reported?, perform, Client.pollEvent]
  have h₁ := h.hint
  have halike := alike_hint c
  rcases e₁ : c.hint with ⟨- | deadline, c₁⟩ <;> rw [e₁] at h₁ halike <;> dsimp only at h₁ halike ⊢
  · obtain ⟨s', hloop, h₂⟩ := h₁.drain c₁.agent.events rfl
    rcases e₂ : Client.drain c₁.agent.events c₁ with ⟨- | e, c₂⟩ <;> rw [e₂] at hloop h₂
    · refine ⟨s', ?_, h₂.hint⟩
      -- a deadline that is reported now is no outcome
      dsimp only
      rcases c₂.hint.1 with - | deadline <;> exact hloop.of_alike halike
    · exact ⟨s', hloop.of_alike halike, h₂⟩
  · exact ⟨s, .stays rfl, h₁⟩

/-! ### Calls -/

/-- **Every call is progress** of the request with an id, or leaves it where it
is, unless it accepts another one in its place. -/
theorem At.perform (h : c.At id s) (call : Call)
    (hnew : (c.step call).accepts id = true → s = .absent) :
    ∃ s', Progress c id call s (sentFor id (c.sendings call)) (Step.reported? id (c.step call)) s' ∧
      (c.perform call).2.At id s' := by
  cases call with
  | write m now => exact h.write m now hnew
  | read datagram => exact h.read datagram
  | event input =>
    cases input with
    | timeout now => exact h.timeout now
    | close => exact h.close
  | pollWrite =>
    refine ⟨s, .stays rfl, ?_⟩
    rw [Client.perform, pollWrite_eq]
    exact ⟨h.requests, h.tracked, h.events⟩
  | pollEvent => exact h.pollEvent

end Client

end Stun
