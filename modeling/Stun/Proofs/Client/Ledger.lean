/-
Stun/Proofs/Client/Ledger.lean

Which datagram was queued for which request.

A datagram in the outbound queue does not tell for which request it stands
there; two requests may even have the same octets.  The step that queues it
does tell: a write queues for the id of its message, and a turn of the event
loop for the id of the event that it deals with.  The ledger of a run lists
the datagrams in the order they were queued, each under that id.

Main result: nothing is missing in the ledger and nothing is added to it; the
datagrams that were taken and those that are still queued are just its entries
in order (`taken_append_outbound`).
-/
import Stun.Proofs.Client.Conservation

namespace Stun

namespace Client

variable {c : Client} {id : TransactionId}

/-! ### Entries -/

/-- A datagram, under the id of the request for which it was queued. -/
structure Sending where
  id : TransactionId
  transmit : Transmit
deriving DecidableEq

/-- The datagrams that `after` has queued behind those of `before`. -/
def queuedFor (id : TransactionId) (before after : Client) : List Sending :=
  (after.outbound.drop before.outbound.length).map (⟨id, ·⟩)

/-- What the event loop queues, turn by turn. -/
def drainSendings : List Event → Client → List Sending
  | [], _ => []
  | e :: rest, c =>
    queuedFor e.id c (settle (c.take rest) e).2 ++
      match settle (c.take rest) e with
      | (some _, _) => []
      | (none, c') => drainSendings rest c'

/-- What a call queues. -/
def sendings (c : Client) : Call → List Sending
  | .write m now => queuedFor m.id c (handleWrite m now c).2
  | .pollEvent =>
    match c.hint with
    | (some _, _) => []
    | (none, c') => drainSendings c'.agent.events c'
  | _ => []

/-- What a run queues. -/
def ledger (steps : List Step) : List Sending :=
  steps.flatMap fun s => s.before.sendings s.call

/-- The datagrams of a ledger that were queued for one id. -/
def sentFor (id : TransactionId) (entries : List Sending) : List Transmit :=
  (entries.filter (·.id = id)).map Sending.transmit

/-- The datagram that a step takes, if it takes one. -/
def Step.taken (s : Step) : List Transmit :=
  match s.answer with
  | .transmit t? => t?.toList
  | _ => []

@[simp] theorem ledger_nil : ledger [] = [] := rfl

@[simp] theorem ledger_cons (s : Step) (steps : List Step) :
    ledger (s :: steps) = s.before.sendings s.call ++ ledger steps := rfl

@[simp] theorem sentFor_nil (id : TransactionId) : sentFor id [] = [] := rfl

@[simp] theorem sentFor_append (id : TransactionId) (front back : List Sending) :
    sentFor id (front ++ back) = sentFor id front ++ sentFor id back := by
  simp [sentFor]

/-! ### Nothing missing, nothing added -/

/-- Datagrams that are queued behind are entered in their order. -/
theorem queuedFor_eq {before after : Client} {ts : List Transmit}
    (h : after.outbound = before.outbound ++ ts) (id : TransactionId) :
    queuedFor id before after = ts.map (⟨id, ·⟩) := by
  rw [queuedFor, h, List.drop_left]

theorem map_queuedFor {before after : Client} {ts : List Transmit}
    (h : after.outbound = before.outbound ++ ts) (id : TransactionId) :
    (queuedFor id before after).map Sending.transmit = ts := by
  rw [queuedFor_eq h, List.map_map]
  exact List.map_id ts

/-- What is queued for an id is sent for it. -/
theorem sentFor_queuedFor {before after : Client} {ts : List Transmit}
    (h : after.outbound = before.outbound ++ ts) (id : TransactionId) :
    sentFor id (queuedFor id before after) = ts := by
  have hall : (queuedFor id before after).filter (·.id = id) = queuedFor id before after :=
    List.filter_eq_self.mpr fun x hx => by
      obtain ⟨t, -, rfl⟩ := List.mem_map.mp hx
      exact decide_eq_true rfl
  rw [sentFor, hall, map_queuedFor h]

/-- What is queued for another id is not. -/
theorem sentFor_queuedFor_other {id' : TransactionId} (hne : id' ≠ id) (before after : Client) :
    sentFor id (queuedFor id' before after) = [] := by
  have hnone : (queuedFor id' before after).filter (·.id = id) = [] :=
    List.filter_eq_nil_iff.mpr fun x hx => by
      obtain ⟨t, -, rfl⟩ := List.mem_map.mp hx
      simpa using hne
  rw [sentFor, hnone, List.map_nil]

theorem outbound_hint (c : Client) : c.hint.2.outbound = c.outbound := by
  obtain ⟨lastHint?, he⟩ := hint_cases c
  rw [he]

theorem outbound_settle (c : Client) (e : Event) :
    ∃ ts, (settle c e).2.outbound = c.outbound ++ ts := by
  obtain ⟨-, h⟩ | ⟨r, -, ⟨-, journal, h⟩ | ⟨-, -, -, -, deadline, journal, -, h⟩⟩ :=
    settle_cases c e <;> rw [h]
  · exact ⟨[], (List.append_nil _).symm⟩
  · exact ⟨[], (List.append_nil _).symm⟩
  · exact ⟨_, rfl⟩

theorem outbound_drain (events : List Event) (c : Client) :
    (drain events c).2.outbound
      = c.outbound ++ (drainSendings events c).map Sending.transmit := by
  induction events generalizing c with
  | nil => exact (List.append_nil _).symm
  | cons e rest ih =>
    obtain ⟨ts, hts⟩ := outbound_settle (c.take rest) e
    have hmap : (queuedFor e.id c (settle (c.take rest) e).2).map Sending.transmit = ts :=
      map_queuedFor hts e.id
    rw [drainSendings, List.map_append, hmap]
    rcases hs : settle (c.take rest) e with ⟨- | e', c'⟩ <;> rw [hs] at hts
    · rw [drain_cons_none hs, ih c', hts]
      exact List.append_assoc _ _ _
    · rw [drain_cons_some hs, List.map_nil, List.append_nil]
      exact hts

/-- **One step**: what it takes and leaves is what was queued, and what it queues. -/
theorem taken_append_perform (c : Client) (call : Call) :
    Step.taken ⟨c, call, (c.perform call).1⟩ ++ (c.perform call).2.outbound
      = c.outbound ++ (c.sendings call).map Sending.transmit := by
  cases call with
  | write m now =>
    obtain ⟨-, e, he⟩ | ⟨-, -, -, deadline, journal, -, he⟩ := handleWrite_cases m now c
    · simp [Step.taken, perform, sendings, queuedFor, he]
    · simp [Step.taken, perform, sendings, queuedFor, he]
  | read datagram =>
    obtain ⟨e, he⟩ | ⟨-, m, -, he⟩ := handleRead_cases datagram c <;>
      simp [Step.taken, perform, sendings, he]
  | event input =>
    cases input with
    | timeout now =>
      obtain ⟨-, he⟩ | ⟨-, horizon, -, he⟩ := handleEvent_timeout_cases now c <;>
        simp [Step.taken, perform, sendings, he]
    | close =>
      obtain ⟨-, he⟩ | ⟨-, journal, he⟩ := handleEvent_close_cases c <;>
        simp [Step.taken, perform, sendings, he]
  | pollWrite =>
    simp only [Step.taken, perform, sendings, pollWrite_eq]
    cases c.outbound <;> simp
  | pollEvent =>
    simp only [Step.taken, perform, sendings, pollEvent, List.nil_append]
    have h₁ := outbound_hint c
    rcases e₁ : c.hint with ⟨- | deadline, c₁⟩ <;> rw [e₁] at h₁ <;> dsimp only at h₁ ⊢
    · have h₂ := outbound_drain c₁.agent.events c₁
      rw [h₁] at h₂
      rcases e₂ : drain c₁.agent.events c₁ with ⟨- | e, c₂⟩ <;> rw [e₂] at h₂
      · exact (outbound_hint c₂).trans h₂
      · exact h₂
    · rw [h₁, List.map_nil, List.append_nil]

/-- **The ledger is complete**: the datagrams taken in a run and those left in
the queue are those queued before and the entries of the ledger, in order. -/
theorem taken_append_outbound (c : Client) (calls : List Call) :
    (c.steps calls).flatMap Step.taken ++ (c.run calls).2.outbound
      = c.outbound ++ (ledger (c.steps calls)).map Sending.transmit := by
  induction calls generalizing c with
  | nil => simp [steps, run]
  | cons call calls ih =>
    have hstep := taken_append_perform c call
    have hrest := ih (c.perform call).2
    rw [run_cons, steps, List.flatMap_cons, List.append_assoc, hrest, ← List.append_assoc, hstep,
      ledger_cons, List.map_append, List.append_assoc]

end Client

end Stun
