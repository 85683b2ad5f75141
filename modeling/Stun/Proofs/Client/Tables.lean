/-
Stun/Proofs/Client/Tables.lean

The tables of a client and of its agent stay in step.

A request that waits in the client's table is known to the agent: it is under
way there, or its end waits in the queue of events.  Between taking an event
and dealing with it this holds of all requests but one, and that one is then
struck off, or begun again with the agent (`Sound.turn`).  As both are closed
together, the agent never refuses what the client hands on, so what a client
refuses leaves it as it was (`Sound.perform_cases`).  Main result: the tables
are sound before and after every call of every run (`sound_run`).
-/
import Stun.Proofs.Client.Calls

namespace Stun

namespace Client

variable {c : Client} {id : TransactionId}

/-! ### Runs -/

/-- What every call keeps holds at the end of a run. -/
theorem run_preserves {P : Client → Prop} (hcall : ∀ c call, P c → P (c.perform call).2)
    (h : P c) (calls : List Call) : P (c.run calls).2 := by
  induction calls generalizing c with
  | nil => exact h
  | cons call calls ih => exact ih (hcall c call h)

/-- A run goes on from where its first call led. -/
theorem run_cons (c : Client) (call : Call) (calls : List Call) :
    (c.run (call :: calls)).2 = ((c.perform call).2.run calls).2 := rfl

/-! ### Soundness -/

/-- The request waits. -/
def isWaiting (c : Client) (id : TransactionId) : Bool := c.requests.any (·.id = id)

theorem isWaiting_iff : c.isWaiting id = true ↔ id ∈ c.requests.map Request.id := by
  simp [isWaiting]

/-- The client and its agent are closed together, no two requests have one id,
and the agent knows every request. -/
structure Sound (c : Client) : Prop where
  closed : c.agent.closed = c.closed
  distinct : (c.requests.map Request.id).Nodup
  known : ∀ id ∈ c.requests.map Request.id, c.agent.Knows id

theorem sound_ofTuning (t : Tuning) (route : Route) : (ofTuning t route).Sound where
  closed := rfl
  distinct := List.nodup_nil
  known := by simp [ofTuning]

/-- A call that touches no request is sound if the agent forgets none. -/
theorem Sound.of_knows (h : c.Sound) {c' : Client} (hrequests : c'.requests = c.requests)
    (hclosed : c'.agent.closed = c'.closed)
    (hknows : ∀ id, c.agent.Knows id → c'.agent.Knows id) : c'.Sound where
  closed := hclosed
  distinct := hrequests ▸ h.distinct
  known := fun id hid => hknows id (h.known id (hrequests ▸ hid))

/-- Where nothing is under way and nothing queued no request waits. -/
theorem Sound.requests_eq_nil (h : c.Sound) (htracked : c.agent.tracked = [])
    (hempty : c.agent.events = []) : c.requests = [] := by
  rw [← List.map_eq_nil_iff (f := Request.id), List.eq_nil_iff_forall_not_mem]
  intro id hid
  have hknown := h.known id hid
  rw [Agent.Knows, htracked, hempty] at hknown
  simp at hknown

theorem distinct_filter (h : (c.requests.map Request.id).Nodup) (id : TransactionId) :
    ((c.requests.filter (·.id ≠ id)).map Request.id).Nodup :=
  h.sublist (List.filter_sublist.map Request.id)

theorem mem_filter_iff {id' : TransactionId} :
    id' ∈ (c.requests.filter (·.id ≠ id)).map Request.id ↔
      id' ∈ c.requests.map Request.id ∧ id' ≠ id := by
  simp only [List.mem_map, List.mem_filter, decide_eq_true_eq]
  constructor
  · rintro ⟨r, ⟨hr, hne⟩, rfl⟩
    exact ⟨⟨r, hr, rfl⟩, hne⟩
  · rintro ⟨⟨r, hr, rfl⟩, hne⟩
    exact ⟨r, ⟨hr, hne⟩, rfl⟩

/-- A request that is kept in place of one with the same id is the only one. -/
theorem distinct_keep (h : (c.requests.map Request.id).Nodup) (r : Request) :
    ((c.requests.filter (·.id ≠ r.id) ++ [r]).map Request.id).Nodup := by
  rw [List.map_append, List.nodup_append]
  refine ⟨distinct_filter h r.id, List.pairwise_singleton _ _, ?_⟩
  intro id' hid' b hb
  rw [List.map_singleton, List.mem_singleton] at hb
  exact hb ▸ (mem_filter_iff.mp hid').2

/-- Beginning one request and keeping it leaves the tables sound, if all others are known. -/
theorem sound_keep {r : Request} {c' : Client} (h : (c.requests.map Request.id).Nodup)
    (hclosed : c'.agent.closed = c'.closed)
    (hrequests : c'.requests = c.requests.filter (·.id ≠ r.id) ++ [r])
    (hbegun : r.id ∈ c'.agent.tracked.map Tracked.id)
    (hothers : ∀ id ∈ c.requests.map Request.id, id ≠ r.id → c'.agent.Knows id) : c'.Sound where
  closed := hclosed
  distinct := hrequests ▸ distinct_keep h r
  known := by
    intro id hid
    rw [hrequests, List.map_append, List.mem_append] at hid
    rcases hid with hid | hid
    · obtain ⟨hwaits, hne⟩ := mem_filter_iff.mp hid
      exact hothers id hwaits hne
    · rw [List.map_singleton, List.mem_singleton] at hid
      exact hid ▸ .inl hbegun

/-! ### Turns and calls -/

/-- Taking an event makes the agent forget at most the transaction it ended. -/
theorem knows_take {e : Event} {rest : List Event} (hevents : c.agent.events = e :: rest)
    (h : c.agent.Knows id) (hne : id ≠ e.id) : (c.take rest).agent.Knows id := by
  rcases h with h | h
  · exact .inl h
  · rw [hevents, List.map_cons, List.mem_cons] at h
    exact .inr (h.resolve_left hne)

/-- **One turn of the event loop keeps the tables sound.** -/
theorem Sound.turn (h : c.Sound) {e : Event} {rest : List Event}
    (hevents : c.agent.events = e :: rest) : (settle (c.take rest) e).2.Sound := by
  obtain ⟨hnone, he⟩ | ⟨r, hr, ⟨-, journal, he⟩ | ⟨-, -, -, -, deadline, journal, -, he⟩⟩ :=
    settle_cases (c.take rest) e <;> rw [he]
  · constructor
    case closed => exact h.closed
    case distinct => exact h.distinct
    case known =>
      intro id hid
      exact knows_take hevents (h.known id hid) fun heq => hnone (heq ▸ hid)
  · constructor
    case closed => exact h.closed
    case distinct => exact distinct_filter h.distinct e.id
    case known =>
      intro id hid
      obtain ⟨hwaits, hne⟩ := mem_filter_iff.mp hid
      have hknown : (c.take rest).agent.Knows id := knows_take hevents (h.known id hwaits) hne
      exact hknown
  · have hid : r.id = e.id := id_of_find? hr
    refine sound_keep (r := { r with attempt := r.attempt + 1 }) h.distinct h.closed ?_ ?_ ?_
    · rw [hid]
      rfl
    · rw [hid]
      simp
    · intro id hwaits hne
      exact (knows_take hevents (h.known id hwaits) (hid ▸ hne)).track _ _

theorem Sound.handleWrite (h : c.Sound) (m : Message) (now : Instant) :
    (handleWrite m now c).2.Sound := by
  obtain ⟨-, e, he⟩ | ⟨-, -, -, deadline, journal, -, he⟩ := handleWrite_cases m now c <;>
    rw [he]
  · exact h
  · refine sound_keep (r := ⟨m.id, 0, now, m.raw⟩) h.distinct h.closed rfl (by simp) ?_
    exact fun id hwaits _ => (h.known id hwaits).track _ _

theorem Sound.handleRead (h : c.Sound) (datagram : List UInt8) :
    (handleRead datagram c).2.Sound := by
  obtain ⟨e, he⟩ | ⟨-, m, -, he⟩ := handleRead_cases datagram c <;> rw [he]
  · exact h
  · exact h.of_knows rfl ((Agent.closed_process m c.agent).trans h.closed)
      fun id hid => hid.process m

theorem Sound.handleEvent (h : c.Sound) (input : ClientInput) :
    (handleEvent input c).2.Sound := by
  cases input with
  | timeout now =>
    obtain ⟨-, he⟩ | ⟨-, horizon, -, he⟩ := handleEvent_timeout_cases now c <;> rw [he]
    · exact h
    · exact h.of_knows rfl ((Agent.closed_collect horizon c.agent).trans h.closed)
        fun id hid => hid.collect horizon
  | close =>
    obtain ⟨-, he⟩ | ⟨-, journal, he⟩ := handleEvent_close_cases c <;> rw [he]
    · exact h
    · refine h.of_knows rfl (Agent.closed_close _) fun id hid => ?_
      have hnoted : Agent.Knows { c.agent with journal } id := hid
      exact hnoted.close

theorem Sound.pollEvent (h : c.Sound) : c.pollEvent.2.Sound :=
  pollEvent_preserves (fun _ _ hc => ⟨hc.closed, hc.distinct, hc.known⟩)
    (fun _ _ _ hc hevents => hc.turn hevents) h

/-- **Every call keeps the tables sound**, whatever it answers. -/
theorem Sound.perform (h : c.Sound) (call : Call) : (c.perform call).2.Sound := by
  cases call with
  | write m now => exact h.handleWrite m now
  | read datagram => exact h.handleRead datagram
  | event input => exact h.handleEvent input
  | pollWrite =>
    rw [Client.perform, pollWrite_eq]
    exact ⟨h.closed, h.distinct, h.known⟩
  | pollEvent => exact h.pollEvent

/-- **A call** is refused and leaves the client as it was, or it tells an open
client something, which makes it forget what it reported, or it is a poll.  The
agent refuses nothing that an open client hands on. -/
theorem Sound.perform_cases (h : c.Sound) (call : Call) :
    (∃ err, c.perform call = (.done (.error err), c)) ∨
    (c.closed = false ∧ (c.perform call).1 = .done (.ok ()) ∧
      (c.perform call).2.lastHint? = none) ∨
    call = .pollWrite ∨ call = .pollEvent := by
  cases call with
  | write m now =>
    obtain ⟨-, e, he⟩ | ⟨hopen, -, -, deadline, journal, -, he⟩ := handleWrite_cases m now c <;>
      rw [Client.perform, he]
    · exact .inl ⟨e, rfl⟩
    · exact .inr (.inl ⟨hopen, rfl, rfl⟩)
  | read datagram =>
    obtain ⟨e, he⟩ | ⟨hopen, m, -, he⟩ := handleRead_cases datagram c <;> rw [Client.perform, he]
    · exact .inl ⟨e, rfl⟩
    · have hok := Agent.process_of_open (h.closed.trans hopen) m
      exact .inr (.inl ⟨hopen, congrArg Answer.done hok, rfl⟩)
  | event input =>
    cases input with
    | timeout now =>
      obtain ⟨-, he⟩ | ⟨hopen, horizon, -, he⟩ := handleEvent_timeout_cases now c <;>
        rw [Client.perform, he]
      · exact .inl ⟨_, rfl⟩
      · have hok := Agent.collect_of_open (h.closed.trans hopen) horizon
        exact .inr (.inl ⟨hopen, congrArg Answer.done hok, rfl⟩)
    | close =>
      obtain ⟨-, he⟩ | ⟨hopen, journal, he⟩ := handleEvent_close_cases c <;> rw [Client.perform, he]
      · exact .inl ⟨_, rfl⟩
      · have hagent : ({ c.agent with journal } : Agent).closed = false := h.closed.trans hopen
        exact .inr (.inl ⟨hopen, congrArg Answer.done (Agent.close_of_open hagent), rfl⟩)
  | pollWrite => exact .inr (.inr (.inl rfl))
  | pollEvent => exact .inr (.inr (.inr rfl))

/-- The tables are sound at the end of every run. -/
theorem sound_run (t : Tuning) (route : Route) (calls : List Call) :
    ((ofTuning t route).run calls).2.Sound :=
  run_preserves (fun _ call hc => hc.perform call) (sound_ofTuning t route) calls

end Client

end Stun
