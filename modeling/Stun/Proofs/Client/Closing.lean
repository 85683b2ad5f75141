/-
Stun/Proofs/Client/Closing.lean

No request is forgotten, and closing ends all of them.

A request that waits is under way with the agent, or its end is queued there.
Closing leaves nothing under way, and a closed client refuses whatever it is
told (`Shut`).  No deadline is left to be reported then, and no attempt can be
begun, so an event that is dealt with ends its request even if it is a timeout
with attempts left (`Shut.turn`).  As long as a request waits there is an event
for it, so every poll reports one end until none waits (`Shut.pollEvent_cases`).

Main result: what comes out of a client after it was closed
(`settled_by_closing`).
-/
import Stun.Proofs.Client.Polling

namespace Stun

namespace Client

variable {c : Client}

/-! ### Closed clients -/

/-- The client was closed, and nothing is under way. -/
structure Shut (c : Client) : Prop where
  sound : c.Sound
  closed : c.closed = true
  tracked : c.agent.tracked = []

theorem Shut.pollTimeout (h : c.Shut) : c.pollTimeout = none := by
  rw [Client.pollTimeout, Agent.pollTimeout, h.tracked]
  rfl

theorem Shut.hint (h : c.Shut) : c.hint = (none, c) := by
  rw [Client.hint, h.pollTimeout]

/-- What waits has its end queued, so nothing waits where nothing is queued. -/
theorem Shut.requests_eq_nil (h : c.Shut) (hempty : c.agent.events = []) : c.requests = [] :=
  h.sound.requests_eq_nil h.tracked hempty

/-! ### Requests that end -/

/-- The requests that wait in `c` are those that the events end and those that
still wait in `c'`. -/
def Settles (c : Client) (ended : List Event) (c' : Client) : Prop :=
  (ended.map Event.id ++ c'.requests.map Request.id).Perm (c.requests.map Request.id)

theorem Settles.trans {c₁ c₂ : Client} {front back : List Event} (h : c.Settles front c₁)
    (h' : c₁.Settles back c₂) : c.Settles (front ++ back) c₂ := by
  rw [Settles, List.map_append, List.append_assoc]
  exact (h'.append_left _).trans h

theorem Settles.pending_eq {c' : Client} {ended : List Event} (h : c.Settles ended c') :
    ended.length + c'.pending = c.pending := by
  have hlength := h.length_eq
  rwa [List.length_append, List.length_map, List.length_map, List.length_map] at hlength

/-- Where none waits any more, each has ended. -/
theorem Settles.perm {c' : Client} {ended : List Event} (h : c.Settles ended c')
    (hnone : c'.pending = 0) : (ended.map Event.id).Perm (c.requests.map Request.id) := by
  have hnil : c'.requests = [] := List.eq_nil_of_length_eq_zero hnone
  rwa [Settles, hnil, List.map_nil, List.append_nil] at h

/-- An id is counted once if its request waits. -/
theorem Sound.count_eq (h : c.Sound) (id : TransactionId) :
    (c.requests.map Request.id).count id = (c.isWaiting id).toNat := by
  rw [h.distinct.count]
  rcases hw : c.isWaiting id with - | -
  · rw [if_neg fun hmem => by simp [isWaiting_iff.mpr hmem] at hw]
    rfl
  · rw [if_pos (isWaiting_iff.mp hw)]
    rfl

/-! ### Polls -/

/-- **One turn** of the event loop begins no attempt. -/
theorem Shut.turn (h : c.Shut) {e : Event} {rest : List Event}
    (hevents : c.agent.events = e :: rest) :
    (settle (c.take rest) e).2.Shut ∧ (settle (c.take rest) e).2.outbound = c.outbound := by
  have hsound := h.sound.turn hevents
  obtain ⟨-, he⟩ | ⟨r, -, ⟨-, journal, he⟩ | ⟨-, -, hopen, -⟩⟩ := settle_cases (c.take rest) e
  · rw [he] at hsound ⊢
    exact ⟨⟨hsound, h.closed, h.tracked⟩, rfl⟩
  · rw [he] at hsound ⊢
    exact ⟨⟨hsound, h.closed, h.tracked⟩, rfl⟩
  · -- no attempt can follow
    exact absurd (hopen.symm.trans (h.sound.closed.trans h.closed)) Bool.noConfusion

theorem Shut.drain (h : c.Shut) : (drain c.agent.events c).2.Shut := by
  refine drain_preserves (P := Shut) ?_ c h
  exact fun c e rest hc hevents => (hc.turn hevents).1

theorem Shut.pollEvent (h : c.Shut) :
    c.pollEvent.2.Shut ∧ c.pollEvent.2.outbound = c.outbound := by
  refine pollEvent_preserves (P := fun c' => c'.Shut ∧ c'.outbound = c.outbound) ?_ ?_ ⟨h, rfl⟩
  · rintro c₁ lastHint? ⟨h₁, hqueue⟩
    exact ⟨⟨⟨h₁.sound.closed, h₁.sound.distinct, h₁.sound.known⟩, h₁.closed, h₁.tracked⟩, hqueue⟩
  · rintro c₁ e rest ⟨h₁, hqueue⟩ hevents
    obtain ⟨h₂, hqueue'⟩ := h₁.turn hevents
    exact ⟨h₂, hqueue'.trans hqueue⟩

/-- A poll reports the end of a request, or there is none that waits. -/
theorem Shut.pollEvent_cases (h : c.Shut) :
    (∃ e, c.pollEvent.1 = some (.transaction e)) ∨
    (c.pollEvent.1 = none ∧ c.pollEvent.2.requests = []) := by
  obtain ⟨deadline, hdue, -⟩ | ⟨-, e, c', -, he⟩ | ⟨-, c', hd, hempty, he⟩ :=
    Client.pollEvent_cases c
  · rw [h.hint] at hdue
    cases hdue
  · exact .inl ⟨e, by rw [he]⟩
  · have hshut := h.drain
    rw [hd] at hshut
    rw [he, hshut.hint]
    exact .inr ⟨rfl, hshut.requests_eq_nil hempty⟩

/-- **A poll** reports an end, and the others that waited wait on. -/
theorem Shut.returned_pollEvent (h : c.Shut) :
    ∃ e? : Option Event, c.pollEvent.1 = e?.map .transaction ∧
      c.Settles e?.toList c.pollEvent.2 := by
  have hreported : ∃ e? : Option Event, c.pollEvent.1 = e?.map .transaction := by
    obtain ⟨e, he⟩ | ⟨hnone, -⟩ := h.pollEvent_cases
    · exact ⟨some e, he⟩
    · exact ⟨none, hnone⟩
  obtain ⟨e?, he⟩ := hreported
  -- of each id as many are reported or wait as waited before
  refine ⟨e?, he, List.perm_iff_count.mpr fun id => ?_⟩
  have hreport : (e?.toList.map Event.id).count id
      = (c.pollEvent.1.any (reportsEnd id)).toNat := by
    rw [he]
    rcases e? with - | e
    · rfl
    · by_cases hid : e.id = id <;> simp [reportsEnd, hid]
  rw [List.count_append, hreport, h.pollEvent.1.sound.count_eq, h.sound.count_eq,
    pollEvent_balance c id]

/-- Polls report as long as a request waits. -/
theorem Shut.pollEvent_eq_none_iff (h : c.Shut) : c.pollEvent.1 = none ↔ c.pending = 0 := by
  obtain ⟨e?, he, hsettles⟩ := h.returned_pollEvent
  have hpending := hsettles.pending_eq
  rcases e? with - | e
  · obtain ⟨e, hsome⟩ | ⟨-, hleft⟩ := h.pollEvent_cases
    · rw [he] at hsome
      cases hsome
    · rw [pending, hleft, Option.toList_none, List.length_nil, List.length_nil] at hpending
      exact ⟨fun _ => hpending.symm, fun _ => he⟩
  · rw [Option.toList_some, List.length_singleton] at hpending
    rw [he, Option.map_some]
    simp only [reduceCtorEq, false_iff]
    omega

/-- **Polling a closed client**: as many polls as requests wait report one end
each, and the next reports nothing. -/
theorem Shut.polls (h : c.Shut) :
    let polls := List.replicate (c.pending + 1) Call.pollEvent
    ∃ ended : List Event, c.Settles ended (c.run polls).2 ∧
      (c.run polls).1 = ended.map (fun e => .event (some (.transaction e))) ++ [.event none] ∧
      (c.run polls).2.pending = 0 ∧ (c.run polls).2.outbound = c.outbound := by
  -- on how many requests wait, since each poll reports one of them
  induction hn : c.pending generalizing c with
  | zero =>
    have hnone := h.pollEvent_eq_none_iff.mpr hn
    obtain ⟨e?, he, hsettles⟩ := h.returned_pollEvent
    obtain rfl : e? = none := Option.map_eq_none_iff.mp (he.symm.trans hnone)
    refine ⟨[], hsettles, ?_, ?_, h.pollEvent.2⟩
    · show [Answer.event c.pollEvent.1] = _
      rw [hnone]
      rfl
    · have hpending := hsettles.pending_eq
      rw [hn] at hpending
      exact (Nat.add_eq_zero_iff.mp hpending).2
  | succ n ih =>
    obtain ⟨e?, he, hsettles⟩ := h.returned_pollEvent
    obtain ⟨hshut, hqueue⟩ := h.pollEvent
    rcases e? with - | e
    · have hzero := h.pollEvent_eq_none_iff.mp he
      omega
    · have hpending := hsettles.pending_eq
      rw [Option.toList_some, List.length_singleton] at hpending
      have hless : c.pollEvent.2.pending = n := by omega
      obtain ⟨ended, hrest, hanswers, hnone, hsame⟩ := ih hshut hless
      refine ⟨e :: ended, hsettles.trans hrest, ?_, hnone, hsame.trans hqueue⟩
      show Answer.event c.pollEvent.1 ::
        (c.pollEvent.2.run (List.replicate (n + 1) .pollEvent)).1 = _
      rw [he, hanswers]
      rfl

/-! ### Calls -/

/-- What a closed client is told it refuses. -/
theorem Shut.perform_cases (h : c.Shut) (call : Call) :
    (∃ err, c.perform call = (.done (.error err), c)) ∨ call = .pollWrite ∨ call = .pollEvent := by
  obtain hrefused | ⟨hopen, -⟩ | hpoll := h.sound.perform_cases call
  · exact .inl hrefused
  · exact absurd (hopen.symm.trans h.closed) Bool.noConfusion
  · exact .inr hpoll

/-- **One call**: the client stays closed, no datagram is queued, and at most one
end is reported. -/
theorem Shut.perform (h : c.Shut) (call : Call) :
    (c.perform call).2.Shut ∧ (c.step call).taken ++ (c.perform call).2.outbound = c.outbound ∧
      ∃ e? : Option Event, (c.step call).returned? = e?.map .transaction ∧
        c.Settles e?.toList (c.perform call).2 := by
  obtain ⟨err, he⟩ | rfl | rfl := h.perform_cases call
  · simp only [step, Step.taken, Step.returned?, he]
    exact ⟨h, rfl, none, rfl, .refl _⟩
  · simp only [step, Step.taken, Step.returned?, Client.perform, pollWrite_eq]
    refine ⟨⟨⟨h.sound.closed, h.sound.distinct, h.sound.known⟩, h.closed, h.tracked⟩, ?_,
      none, rfl, .refl _⟩
    cases c.outbound <;> rfl
  · exact ⟨h.pollEvent.1, h.pollEvent.2, h.returned_pollEvent⟩

/-- **Runs of a closed client**: the ends that are reported and the requests
that wait are the requests that waited before. -/
theorem Shut.run (h : c.Shut) (calls : List Call) :
    (c.run calls).2.Shut ∧
      (c.steps calls).flatMap Step.taken ++ (c.run calls).2.outbound = c.outbound ∧
      ∃ ended : List Event, returned (c.steps calls) = ended.map .transaction ∧
        c.Settles ended (c.run calls).2 := by
  induction calls generalizing c with
  | nil => exact ⟨h, rfl, [], rfl, .refl _⟩
  | cons call calls ih =>
    obtain ⟨hshut, hqueue, e?, he, hsettles⟩ := h.perform call
    obtain ⟨hlast, hqueue', ended, hended, hrest⟩ := ih hshut
    refine ⟨hlast, ?_, e?.toList ++ ended, ?_, hsettles.trans hrest⟩
    · rw [steps_cons, run_cons, List.flatMap_cons, List.append_assoc, hqueue', hqueue]
    · rw [steps_cons, returned_cons, he, hended, List.map_append]
      cases e? <;> rfl

/-! ### Closing -/

/-- **Closing** is not refused, and touches neither requests nor datagrams. -/
theorem Sound.close (h : c.Sound) (hopen : c.closed = false) :
    (Client.handleEvent .close c).1 = .ok () ∧ (Client.handleEvent .close c).2.Shut ∧
      c.Settles [] (Client.handleEvent .close c).2 ∧
      (Client.handleEvent .close c).2.outbound = c.outbound := by
  have hsound := h.handleEvent .close
  obtain ⟨hclosed, -⟩ | ⟨-, journal, he⟩ := handleEvent_close_cases c
  · simp [hopen] at hclosed
  · rw [he] at hsound ⊢
    obtain ⟨hagent, -⟩ | ⟨-, journal', hp⟩ := Agent.close_cases { c.agent with journal }
    · exact absurd (hagent.symm.trans (h.closed.trans hopen)) Bool.noConfusion
    · rw [hp] at hsound ⊢
      exact ⟨rfl, ⟨hsound, rfl, rfl⟩, .refl _, rfl⟩

/-- **No request is forgotten, and closing ends all of them.**  After any run,
every request that waits is under way with the agent, or its end is queued
there.  If the client is open, closing it is not refused; whatever is called
afterwards, the reports are ends of requests that waited when it was closed,
one for each that does not wait any more, no datagram is queued, and no
deadline is left.  Asked often enough, the client reports one end for each of
these requests, then nothing, and no request waits. -/
theorem settled_by_closing (t : Tuning) (route : Route) (past : List Call) :
    let c := ((ofTuning t route).run past).2
    let shut := (handleEvent .close c).2
    (∀ id, c.isWaiting id = true →
      (∃ deadline, ⟨id, deadline⟩ ∈ c.agent.tracked) ∨ ∃ outcome, ⟨id, outcome⟩ ∈ c.agent.events) ∧
    (c.closed = false →
      (handleEvent .close c).1 = .ok () ∧
      (∀ later, let last := (shut.run later).2
        (∃ ended : List Event, returned (shut.steps later) = ended.map .transaction ∧
          (ended.map Event.id ++ last.requests.map Request.id).Perm (c.requests.map Request.id)) ∧
        (shut.steps later).flatMap Step.taken ++ last.outbound = c.outbound ∧
        last.pollTimeout = none) ∧
      let polls := List.replicate (c.pending + 1) Call.pollEvent
      let last := (shut.run polls).2
      ∃ ended : List Event, (ended.map Event.id).Perm (c.requests.map Request.id) ∧
        (shut.run polls).1 = ended.map (fun e => .event (some (.transaction e))) ++ [.event none] ∧
        last.pending = 0 ∧ last.outbound = c.outbound ∧ last.pollTimeout = none) := by
  intro c shut
  have hsound : c.Sound := sound_run t route past
  refine ⟨fun id hw => ?_, fun hopen => ?_⟩
  · rcases hsound.known id (isWaiting_iff.mp hw) with hmem | hmem
    · obtain ⟨tracked, ht, rfl⟩ := List.mem_map.mp hmem
      exact .inl ⟨tracked.deadline, ht⟩
    · obtain ⟨e, he, rfl⟩ := List.mem_map.mp hmem
      exact .inr ⟨e.outcome, he⟩
  · obtain ⟨hok, hshut, hkept, hqueue⟩ := hsound.close hopen
    refine ⟨hok, fun later => ?_, ?_⟩
    · obtain ⟨hlast, hsame, ended, hended, hsettles⟩ := hshut.run later
      exact ⟨⟨ended, hended, hkept.trans hsettles⟩, hsame.trans hqueue, hlast.pollTimeout⟩
    · have hpolls := hshut.polls
      have hpending : shut.pending = c.pending := (Nat.zero_add _).symm.trans hkept.pending_eq
      rw [hpending, hqueue] at hpolls
      obtain ⟨ended, hsettles, hanswers, hnone, hsame⟩ := hpolls
      exact ⟨ended, (hkept.trans hsettles).perm hnone, hanswers, hnone, hsame,
        (hshut.run _).1.pollTimeout⟩

/-- One request has run out of time, with attempts left, and another is under
way: closing ends both, and none is sent again. -/
theorem settled_by_closing_early :
    let first := Message.new ⟨⟨1⟩, .request⟩ .zero
    let second := Message.new ⟨⟨1⟩, .request⟩ ⟨List.replicate 12 1, rfl⟩
    let here : Endpoint := ⟨⟨.v4, [10, 0, 0, 2], rfl⟩, 40000⟩
    let there : Endpoint := ⟨⟨.v4, [198, 51, 100, 1], rfl⟩, 3478⟩
    let past := [.write first 0, .write second 5000000000, .event (.timeout 300000000)]
    let c := ((ofTuning {} ⟨here, there, .udp⟩).run past).2
    let shut := (handleEvent .close c).2
    let polls := List.replicate (c.pending + 1) Call.pollEvent
    c.closed = false ∧ c.requests.map Request.id = [first.id, second.id] ∧
      c.agent.events = [⟨first.id, .failed .transactionTimedOut⟩] ∧
      returned (shut.steps polls) = [.transaction ⟨first.id, .failed .transactionTimedOut⟩,
        .transaction ⟨second.id, .failed .agentClosed⟩] ∧
      (shut.run polls).2.pending = 0 ∧ (shut.run polls).2.outbound = c.outbound := by
  intro first second here there past c shut polls
  have hopen : c.closed = false := by decide +kernel
  obtain ⟨-, hclosing⟩ := settled_by_closing {} ⟨here, there, .udp⟩ past
  obtain ⟨-, -, ended, -, -, hnone, hqueue, -⟩ := hclosing hopen
  refine ⟨hopen, by decide +kernel, by decide +kernel, by decide +kernel, ?_⟩
  simp only [polls, shut, c]
  exact ⟨hnone, hqueue⟩

end Client

end Stun
