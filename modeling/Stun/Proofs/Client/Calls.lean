/-
Stun/Proofs/Client/Calls.lean

What each call makes of a client.

As for the agent, one lemma for each call lists its cases, with all that is
needed for the case to occur, and only the journal is left open.  The event
loop is taken apart into its turns: `settle_cases` says what one event comes
to, and a property that every turn keeps is kept by the whole loop
(`drain_preserves`) and by the call that runs it (`pollEvent_preserves`).
-/
import Stun.Client.Client
import Stun.Proofs.Transaction.Calls

namespace Stun

namespace Client

variable {c : Client} {id : TransactionId}

/-! ### Beginning an attempt -/

theorem begin_cases (id : TransactionId) (attempt : UInt32) (now : Instant) (c : Client) :
    ((c.deadline? attempt now = none ∨ c.agent.closed = true ∨ c.agent.isTracking id = true) ∧
      ∃ e, begin id attempt now c = (.error e, c)) ∨
    (c.agent.closed = false ∧ c.agent.isTracking id = false ∧ ∃ deadline journal,
      c.deadline? attempt now = some deadline ∧ begin id attempt now c
        = (.ok (), { c with agent := { c.agent with
            tracked := c.agent.tracked ++ [⟨id, deadline⟩]
            journal } })) := by
  rcases hd : c.deadline? attempt now with - | deadline
  · exact .inl ⟨.inl rfl, _, by simp only [begin, hd]; rfl⟩
  · simp only [begin, hd]
    obtain ⟨hc, he⟩ | ⟨-, ht, he⟩ | ⟨hc, ht, journal, he⟩ := Agent.start_cases id deadline c.agent
    · exact .inl ⟨.inr (.inl hc), _, by rw [he]⟩
    · exact .inl ⟨.inr (.inr ht), _, by rw [he]⟩
    · exact .inr ⟨hc, ht, deadline, journal, rfl, by rw [he]⟩

/-! ### Calls that are told something -/

theorem handleWrite_cases (m : Message) (now : Instant) (c : Client) :
    ((c.closed = true ∨ c.deadline? 0 now = none ∨ c.agent.closed = true ∨
        c.agent.isTracking m.id = true) ∧
      ∃ e, handleWrite m now c = (.error e, c)) ∨
    (c.closed = false ∧ c.agent.closed = false ∧ c.agent.isTracking m.id = false ∧
      ∃ deadline journal, c.deadline? 0 now = some deadline ∧ handleWrite m now c
        = (.ok (), { c with
            agent := { c.agent with tracked := c.agent.tracked ++ [⟨m.id, deadline⟩], journal }
            requests := c.requests.filter (·.id ≠ m.id) ++ [⟨m.id, 0, now, m.raw⟩]
            outbound := c.outbound ++ [⟨now, c.route, m.raw⟩]
            lastNow? := some now
            lastHint? := none })) := by
  rcases Bool.eq_false_or_eq_true c.closed with hc | hc
  · exact .inl ⟨.inl hc, .clientClosed, by rw [handleWrite, if_pos hc]⟩
  · have hopen : ¬ c.closed = true := by simp [hc]
    rw [handleWrite, if_neg hopen]
    obtain ⟨hreason, e, he⟩ | ⟨hagent, ht, deadline, journal, hd, he⟩ :=
      begin_cases m.id 0 now c
    · exact .inl ⟨.inr hreason, e, by rw [he]⟩
    · exact .inr ⟨hc, hagent, ht, deadline, _, hd, by rw [he]; rfl⟩

theorem handleRead_cases (datagram : List UInt8) (c : Client) :
    (∃ e, handleRead datagram c = (.error e, c)) ∨
    (c.closed = false ∧ ∃ m, Message.decode datagram = .ok m ∧ handleRead datagram c
      = ((Agent.process m c.agent).1,
          { c with agent := (Agent.process m c.agent).2, lastHint? := none })) := by
  rcases Bool.eq_false_or_eq_true c.closed with hc | hc
  · exact .inl ⟨.clientClosed, by rw [handleRead, if_pos hc]⟩
  · have hopen : ¬ c.closed = true := by simp [hc]
    rw [handleRead, if_neg hopen]
    rcases Message.decode datagram with e | m
    · exact .inl ⟨e, rfl⟩
    · exact .inr ⟨hc, m, rfl, rfl⟩

theorem handleEvent_timeout_cases (now : Instant) (c : Client) :
    (c.closed = true ∧ handleEvent (.timeout now) c = (.error .clientClosed, c)) ∨
    (c.closed = false ∧ ∃ horizon, horizon = (Instant.after? now c.rate).getD now ∧
      handleEvent (.timeout now) c = ((Agent.collect horizon c.agent).1,
        { c with
          agent := (Agent.collect horizon c.agent).2
          lastNow? := some now
          lastHint? := none })) := by
  rcases Bool.eq_false_or_eq_true c.closed with hc | hc
  · exact .inl ⟨hc, by rw [handleEvent, if_pos hc]⟩
  · have hopen : ¬ c.closed = true := by simp [hc]
    exact .inr ⟨hc, _, rfl, by rw [handleEvent, if_neg hopen]⟩

theorem handleEvent_close_cases (c : Client) :
    (c.closed = true ∧ handleEvent .close c = (.error .clientClosed, c)) ∨
    (c.closed = false ∧ ∃ journal, handleEvent .close c
      = ((Agent.close { c.agent with journal }).1,
          { c with
            agent := (Agent.close { c.agent with journal }).2
            lastHint? := none
            closed := true })) := by
  rcases Bool.eq_false_or_eq_true c.closed with hc | hc
  · exact .inl ⟨hc, by rw [handleEvent, if_pos hc]⟩
  · have hopen : ¬ c.closed = true := by simp [hc]
    exact .inr ⟨hc, _, by rw [handleEvent, if_neg hopen]; rfl⟩

/-! ### Calls that are asked something -/

/-- A datagram that is taken leaves the queue, and nothing else changes. -/
theorem pollWrite_eq (c : Client) :
    c.pollWrite = (c.outbound.head?, { c with outbound := c.outbound.tail }) := by
  rcases c with ⟨_, _, _, _, _, _, outbound, _, _, _⟩
  cases outbound <;> rfl

/-- A hint is remembered, and nothing else changes. -/
theorem hint_cases (c : Client) : ∃ lastHint?, c.hint.2 = { c with lastHint? } := by
  rw [hint]
  rcases c.pollTimeout with - | deadline
  · exact ⟨c.lastHint?, rfl⟩
  · dsimp only
    by_cases h : c.lastHint? = some deadline
    · exact ⟨c.lastHint?, by rw [if_pos h]⟩
    · exact ⟨some deadline, by rw [if_neg h]⟩

/-- A request is sent once more under a new deadline, or its event is handed on. -/
theorem repeatRequest_cases (c : Client) (e : Event) (r : Request) :
    ((c.deadline? (r.attempt + 1) (c.lastNow?.getD r.start) = none ∨ c.agent.closed = true ∨
        c.agent.isTracking r.id = true) ∧
      ∃ journal, repeatRequest c e r
        = (some e, { c with agent := { c.agent with journal } })) ∨
    (c.agent.closed = false ∧ c.agent.isTracking r.id = false ∧ ∃ deadline journal,
      c.deadline? (r.attempt + 1) (c.lastNow?.getD r.start) = some deadline ∧
      repeatRequest c e r
        = (none, { c with
            agent := { c.agent with tracked := c.agent.tracked ++ [⟨r.id, deadline⟩], journal }
            requests := c.requests.filter (·.id ≠ r.id) ++ [{ r with attempt := r.attempt + 1 }]
            outbound := c.outbound ++ [⟨c.lastNow?.getD r.start, c.route, r.raw⟩] })) := by
  obtain ⟨hreason, err, he⟩ | ⟨hagent, ht, deadline, journal, hd, he⟩ :=
    begin_cases r.id (r.attempt + 1) (c.lastNow?.getD r.start) c
  · exact .inl ⟨hreason, _, by rw [repeatRequest, he]; rfl⟩
  · exact .inr ⟨hagent, ht, deadline, _, hd, by rw [repeatRequest, he]; rfl⟩

/-- A request that is found by its id has it. -/
theorem id_of_find? {r : Request} (h : c.requests.find? (·.id = id) = some r) : r.id = id := by
  simpa using List.find?_some h

theorem mem_ids_of_find? {r : Request} (h : c.requests.find? (·.id = id) = some r) :
    id ∈ c.requests.map Request.id :=
  List.mem_map.mpr ⟨r, List.mem_of_find?_eq_some h, id_of_find? h⟩

/-- An event ends its request, or the request is sent once more in place of
it, or there is no such request. -/
theorem settle_cases (c : Client) (e : Event) :
    (e.id ∉ c.requests.map Request.id ∧ settle c e = (none, c)) ∨
    ∃ r, c.requests.find? (·.id = e.id) = some r ∧
      (((e.outcome ≠ .failed .transactionTimedOut ∨ c.maxAttempts ≤ r.attempt ∨
          c.deadline? (r.attempt + 1) (c.lastNow?.getD r.start) = none ∨
          c.agent.closed = true ∨ c.agent.isTracking e.id = true) ∧
        ∃ journal, settle c e
          = (some e, { c with
              agent := { c.agent with journal }
              requests := c.requests.filter (·.id ≠ e.id) })) ∨
       (e.outcome = .failed .transactionTimedOut ∧ r.attempt < c.maxAttempts ∧
        c.agent.closed = false ∧ c.agent.isTracking e.id = false ∧ ∃ deadline journal,
          c.deadline? (r.attempt + 1) (c.lastNow?.getD r.start) = some deadline ∧
          settle c e
            = (none, { c with
                agent := { c.agent with tracked := c.agent.tracked ++ [⟨e.id, deadline⟩], journal }
                requests := c.requests.filter (·.id ≠ e.id) ++ [{ r with attempt := r.attempt + 1 }]
                outbound := c.outbound ++ [⟨c.lastNow?.getD r.start, c.route, r.raw⟩] }))) := by
  rcases hr : c.requests.find? (·.id = e.id) with - | r
  · refine .inl ⟨?_, by rw [settle, hr]⟩
    rw [List.find?_eq_none] at hr
    simpa using hr
  · refine .inr ⟨r, hr, ?_⟩
    have hid : r.id = e.id := id_of_find? hr
    by_cases hend : e.outcome ≠ .failed .transactionTimedOut ∨ c.maxAttempts ≤ r.attempt
    · have hsettle : settle c e = (some e, (c.drop e.id).reportEnd e r.attempt) := by
        simp only [settle, hr]
        exact if_pos hend
      refine .inl ⟨hend.imp_right .inl, ?_⟩
      rw [hsettle, reportEnd]
      cases e.outcome with
      | answered m => exact ⟨_, rfl⟩
      | failed err => exact ⟨_, rfl⟩
    · have hsettle : settle c e = (c.drop e.id).repeatRequest e r := by
        simp only [settle, hr]
        exact if_neg hend
      obtain ⟨houtcome, hattempt⟩ := not_or.mp hend
      rw [hsettle]
      obtain ⟨hreason, journal, he⟩ | ⟨hagent, ht, deadline, journal, hd, he⟩ :=
        repeatRequest_cases (c.drop e.id) e r <;> rw [he]
      · exact .inl ⟨.inr (.inr (hid ▸ hreason)), journal, rfl⟩
      · refine .inr ⟨Decidable.not_not.mp houtcome, UInt32.not_le.mp hattempt, hagent, hid ▸ ht,
          deadline, journal, hd, ?_⟩
        -- the request was already struck off when it is kept again
        simp only [drop, hid, List.filter_filter, Bool.and_self]

/-! ### The event loop -/

/-- The client with the oldest event taken from its agent. -/
def take (c : Client) (rest : List Event) : Client :=
  { c with agent := { c.agent with events := rest } }

/-- An event that is dealt with leaves the others queued. -/
theorem settle_events (c : Client) (e : Event) : (settle c e).2.agent.events = c.agent.events := by
  obtain ⟨-, h⟩ | ⟨r, -, ⟨-, journal, h⟩ | ⟨-, -, -, -, deadline, journal, -, h⟩⟩ :=
    settle_cases c e <;> rw [h]

/-- An event is handed on as it is, if at all. -/
theorem eq_of_settle {c : Client} {e e' : Event} (h : (settle c e).1 = some e') : e' = e := by
  obtain ⟨-, he⟩ | ⟨r, -, ⟨-, journal, he⟩ | ⟨-, -, -, -, deadline, journal, -, he⟩⟩ :=
    settle_cases c e <;> rw [he] at h
  · cases h
  · exact (Option.some.inj h).symm
  · cases h

/-- Dealing with an event neither opens nor closes the agent. -/
theorem closed_settle (c : Client) (e : Event) :
    (settle c e).2.agent.closed = c.agent.closed := by
  obtain ⟨-, h⟩ | ⟨r, -, ⟨-, journal, h⟩ | ⟨-, -, -, -, deadline, journal, -, h⟩⟩ :=
    settle_cases c e <;> rw [h]

theorem drain_cons_some {c c' : Client} {e e' : Event} {rest : List Event}
    (h : settle (c.take rest) e = (some e', c')) : drain (e :: rest) c = (some e', c') := by
  change settle { c with agent := { c.agent with events := rest } } e = _ at h
  rw [drain, h]

theorem drain_cons_none {c c' : Client} {e : Event} {rest : List Event}
    (h : settle (c.take rest) e = (none, c')) : drain (e :: rest) c = drain rest c' := by
  change settle { c with agent := { c.agent with events := rest } } e = _ at h
  rw [drain, h]

/-- **The loop keeps what each turn keeps.** -/
theorem drain_preserves {P : Client → Prop}
    (hturn : ∀ c e rest, P c → c.agent.events = e :: rest → P (settle (c.take rest) e).2) :
    ∀ c, P c → P (drain c.agent.events c).2 := by
  -- a turn leaves the queue that the loop goes on with
  have aux : ∀ events c, c.agent.events = events → P c → P (drain events c).2 := by
    intro events
    induction events with
    | nil => intro c _ h; exact h
    | cons e rest ih =>
      intro c hc h
      have hnext := hturn c e rest h hc
      have hevents : (settle (c.take rest) e).2.agent.events = rest := settle_events _ _
      rcases hs : settle (c.take rest) e with ⟨- | e', c'⟩ <;> rw [hs] at hnext hevents
      · rw [drain_cons_none hs]
        exact ih c' hevents hnext
      · rw [drain_cons_some hs]
        exact hnext
  exact fun c h => aux c.agent.events c rfl h

/-- The call that runs the loop keeps what a turn and a hint keep. -/
theorem pollEvent_preserves {P : Client → Prop}
    (hhint : ∀ c lastHint?, P c → P { c with lastHint? })
    (hturn : ∀ c e rest, P c → c.agent.events = e :: rest → P (settle (c.take rest) e).2)
    (h : P c) : P c.pollEvent.2 := by
  have hhint' : ∀ c : Client, P c → P c.hint.2 := by
    intro c hc
    obtain ⟨lastHint?, he⟩ := hint_cases c
    exact he ▸ hhint c lastHint? hc
  have h₁ := hhint' c h
  rw [pollEvent]
  rcases e₁ : c.hint with ⟨- | deadline, c₁⟩ <;> rw [e₁] at h₁
  · have h₂ := drain_preserves hturn c₁ h₁
    dsimp only
    rcases e₂ : drain c₁.agent.events c₁ with ⟨- | e, c₂⟩ <;> rw [e₂] at h₂
    · exact hhint' c₂ h₂
    · exact h₂
  · exact h₁

end Client

end Stun
