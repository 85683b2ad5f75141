/-
Stun/Proofs/Client/Conservation.lean

How many requests are accepted, and how many of them end.

Every call balances: what is accepted and what waited before is what ended,
what waits after, and what was overwritten, namely a request that still waited
when another one was accepted under its id.  The agent refuses only an id that
is under way there.  Once a request was answered or ran out of time, and until
that event is taken, the client's table holds it while the agent no longer
does; a second one is then accepted in its place, and of the two only one end
is reported.  Main result: a run ends every accepted request exactly once
unless this happens in it (`accepted_eq_ended_iff`), and it can happen
(`answered_then_overwritten`).
-/
import Stun.Proofs.Client.Tables

namespace Stun

namespace Client

variable {c : Client} {id : TransactionId}

/-! ### Steps -/

/-- A call in a run, with the client that took it and what it answered. -/
structure Step where
  before : Client
  call : Call
  answer : Answer

/-- The steps of a run. -/
def steps (c : Client) : List Call → List Step
  | [] => []
  | call :: calls => ⟨c, call, (c.perform call).1⟩ :: (c.perform call).2.steps calls

theorem steps_answers (c : Client) (calls : List Call) :
    (c.steps calls).map Step.answer = (c.run calls).1 := by
  induction calls generalizing c with
  | nil => rfl
  | cons call calls ih => exact congrArg ((c.perform call).1 :: ·) (ih _)

/-- What every call keeps holds before each step, whose answer is that of the call. -/
theorem of_mem_steps {P : Client → Prop} (hcall : ∀ c call, P c → P (c.perform call).2)
    (h : P c) {calls : List Call} {s : Step} (hs : s ∈ c.steps calls) :
    P s.before ∧ s.answer = (s.before.perform s.call).1 := by
  induction calls generalizing c with
  | nil => cases hs
  | cons call calls ih =>
    rcases List.mem_cons.mp hs with rfl | hs
    · exact ⟨h, rfl⟩
    · exact ih (hcall c call h) hs

/-- The step accepts a request. -/
def Step.accepts (id : TransactionId) (s : Step) : Bool :=
  match s.call, s.answer with
  | .write m _, .done (.ok ()) => m.id = id
  | _, _ => false

/-- The event reports that a request ended. -/
def reportsEnd (id : TransactionId) : ClientEvent → Bool
  | .transaction e => e.id = id
  | .timeout _ => false

/-- The step reports that a request ended. -/
def Step.ends (id : TransactionId) (s : Step) : Bool :=
  match s.answer with
  | .event e? => e?.any (reportsEnd id)
  | _ => false

/-- The step accepts a request while one with its id waits. -/
def Step.overwrites (id : TransactionId) (s : Step) : Bool :=
  s.accepts id && s.before.isWaiting id

/-! ### Balance of the event loop -/

theorem any_filter_id (requests : List Request) (id id' : TransactionId) :
    (requests.filter (·.id ≠ id')).any (·.id = id)
      = (requests.any (·.id = id) && decide (id ≠ id')) := by
  induction requests with
  | nil => rfl
  | cons r rest ih =>
    by_cases hr : r.id = id'
    · have hkeep : (r :: rest).filter (·.id ≠ id') = rest.filter (·.id ≠ id') := by simp [hr]
      rw [hkeep, ih, List.any_cons]
      by_cases hid : id = id'
      · simp [hid]
      · simp [hr, hid, Ne.symm hid]
    · have hkeep : (r :: rest).filter (·.id ≠ id') = r :: rest.filter (·.id ≠ id') := by simp [hr]
      rw [hkeep, List.any_cons, ih, List.any_cons, Bool.and_or_distrib_right]
      by_cases hid : id = id'
      · simp [hid, hr]
      · simp [hid]

/-- A request that is kept waits, and the others wait as before. -/
theorem any_keep (requests : List Request) (r : Request) (id : TransactionId) :
    (requests.filter (·.id ≠ r.id) ++ [r]).any (·.id = id)
      = (requests.any (·.id = id) || decide (id = r.id)) := by
  rw [List.any_append, any_filter_id, List.any_cons, List.any_nil]
  by_cases hid : id = r.id
  · simp [hid]
  · simp [hid, Ne.symm hid]

/-- Dealing with an event ends a request that waited, or none. -/
theorem settle_balance (c : Client) (e : Event) (id : TransactionId) :
    (c.isWaiting id).toNat
      = ((settle c e).1.any (·.id = id)).toNat + ((settle c e).2.isWaiting id).toNat := by
  obtain ⟨-, he⟩ | ⟨r, hr, hcase⟩ := settle_cases c e
  · simp [he]
  · have hid : r.id = e.id := id_of_find? hr
    have hwaits : c.requests.any (·.id = e.id) = true :=
      List.any_eq_true.mpr ⟨r, List.mem_of_find?_eq_some hr, by simp [hid]⟩
    obtain ⟨-, journal, he⟩ | ⟨-, -, -, -, deadline, journal, -, he⟩ := hcase
    · -- the request is struck off, and the event that is handed on makes up for it
      simp only [he, isWaiting, any_filter_id]
      by_cases h : id = e.id
      · simp [h, hwaits]
      · simp [h, Ne.symm h]
    · -- the request is kept with another count, so it waits as before
      have hkeep := any_keep c.requests { r with attempt := r.attempt + 1 } id
      rw [hid] at hkeep
      simp only [he, isWaiting, hid, hkeep]
      by_cases h : id = e.id
      · simp [h, hwaits]
      · simp [h]

theorem drain_balance (events : List Event) (c : Client) (id : TransactionId) :
    (c.isWaiting id).toNat
      = ((drain events c).1.any (·.id = id)).toNat + ((drain events c).2.isWaiting id).toNat := by
  induction events generalizing c with
  | nil => simp [drain]
  | cons e rest ih =>
    have hturn : (c.isWaiting id).toNat = _ := settle_balance (c.take rest) e id
    rcases hs : settle (c.take rest) e with ⟨- | e', c'⟩ <;> rw [hs] at hturn
    · rw [hturn, drain_cons_none hs, Option.any_none, Bool.toNat_false, Nat.zero_add]
      exact ih c'
    · rw [hturn, drain_cons_some hs]

theorem isWaiting_hint (c : Client) (id : TransactionId) :
    c.hint.2.isWaiting id = c.isWaiting id := by
  obtain ⟨lastHint?, he⟩ := hint_cases c
  rw [he]
  rfl

/-- A hint reports no end. -/
theorem any_reportsEnd_hint (id : TransactionId) (deadline? : Option Instant) :
    (deadline?.map ClientEvent.timeout).any (reportsEnd id) = false := by
  cases deadline? <;> rfl

theorem pollEvent_balance (c : Client) (id : TransactionId) :
    (c.isWaiting id).toNat
      = (c.pollEvent.1.any (reportsEnd id)).toNat + (c.pollEvent.2.isWaiting id).toNat := by
  have h₁ := isWaiting_hint c id
  rw [pollEvent]
  rcases e₁ : c.hint with ⟨- | deadline, c₁⟩ <;> rw [e₁] at h₁
  · have h₂ := drain_balance c₁.agent.events c₁ id
    rw [← h₁, h₂]
    dsimp only
    rcases drain c₁.agent.events c₁ with ⟨- | e, c₂⟩
    · rw [any_reportsEnd_hint, isWaiting_hint]
      rfl
    · rfl
  · rw [← h₁]
    exact (Nat.zero_add _).symm

/-! ### Balance of calls and runs -/

/-- What a step accepts, ends and overwrites makes up for what waits after it. -/
theorem perform_balance (c : Client) (call : Call) (id : TransactionId) :
    let s : Step := ⟨c, call, (c.perform call).1⟩
    (s.accepts id).toNat + (c.isWaiting id).toNat
      = (s.ends id).toNat + ((c.perform call).2.isWaiting id).toNat + (s.overwrites id).toNat := by
  cases call with
  | write m now =>
    obtain ⟨-, e, he⟩ | ⟨-, -, -, deadline, journal, -, he⟩ := handleWrite_cases m now c
    · simp [perform, he, Step.accepts, Step.ends, Step.overwrites]
    · -- the accepted request waits now; one that waited before was overwritten
      have hkeep := any_keep c.requests ⟨m.id, 0, now, m.raw⟩ id
      simp only [perform, he, Step.accepts, Step.ends, Step.overwrites, isWaiting, hkeep]
      by_cases h : id = m.id
      · simp [h]
      · simp [h, Ne.symm h]
  | read datagram =>
    obtain ⟨e, he⟩ | ⟨-, m, -, he⟩ := handleRead_cases datagram c <;>
      simp [perform, he, Step.accepts, Step.ends, Step.overwrites, isWaiting]
  | event input =>
    cases input with
    | timeout now =>
      obtain ⟨-, he⟩ | ⟨-, horizon, -, he⟩ := handleEvent_timeout_cases now c <;>
        simp [perform, he, Step.accepts, Step.ends, Step.overwrites, isWaiting]
    | close =>
      obtain ⟨-, he⟩ | ⟨-, journal, he⟩ := handleEvent_close_cases c <;>
        simp [perform, he, Step.accepts, Step.ends, Step.overwrites, isWaiting]
  | pollWrite =>
    simp [perform, pollWrite_eq, Step.accepts, Step.ends, Step.overwrites, isWaiting]
  | pollEvent =>
    rw [pollEvent_balance c id]
    simp [perform, Step.accepts, Step.ends, Step.overwrites]

/-- **Runs balance**, from any client. -/
theorem run_balance (c : Client) (calls : List Call) (id : TransactionId) :
    (c.steps calls).countP (·.accepts id) + (c.isWaiting id).toNat
      = (c.steps calls).countP (·.ends id) + ((c.run calls).2.isWaiting id).toNat
        + (c.steps calls).countP (·.overwrites id) := by
  induction calls generalizing c with
  | nil => simp [steps, run]
  | cons call calls ih =>
    have hstep := perform_balance c call id
    have hrest := ih (c.perform call).2
    have hcount : ∀ p : Step → Bool, (c.steps (call :: calls)).countP p
        = ((c.perform call).2.steps calls).countP p
          + (p ⟨c, call, (c.perform call).1⟩).toNat := by
      intro p
      rw [steps, List.countP_cons]
      cases p ⟨c, call, (c.perform call).1⟩ <;> rfl
    rw [hcount, hcount, hcount, run_cons]
    dsimp only at hstep
    omega

/-! ### Ends of accepted requests -/

/-- A request is accepted by a client that is open, can tell its deadline, and
has none under way with its id. -/
theorem accepts_write_iff (h : c.Sound) (m : Message) (now : Instant) :
    (⟨c, .write m now, (c.perform (.write m now)).1⟩ : Step).accepts m.id = true ↔
      c.closed = false ∧ c.deadline? 0 now ≠ none ∧ c.agent.isTracking m.id = false := by
  obtain ⟨hreason, e, he⟩ | ⟨hc, -, ht, deadline, journal, hd, he⟩ := handleWrite_cases m now c
  · simp only [perform, he, Step.accepts, Bool.false_eq_true, false_iff]
    rintro ⟨hc, hd, ht⟩
    rw [h.closed, hc, ht] at hreason
    simp [hd] at hreason
  · simp [perform, he, Step.accepts, hc, hd, ht]

/-- A request that waits and is not under way has its end queued. -/
theorem Sound.mem_events (h : c.Sound) (hw : c.isWaiting id = true)
    (ht : c.agent.isTracking id = false) : id ∈ c.agent.events.map Event.id := by
  refine (h.known id (isWaiting_iff.mp hw)).resolve_left fun htracked => ?_
  rw [Agent.isTracking_iff.mpr htracked] at ht
  cases ht

/-- **Accepted requests end exactly once, unless one is overwritten.**  In any
run, the accepted requests with an id are those that ended, the one that
waits, and those that were overwritten; so the first two make up all of them
exactly if no request was accepted while one with its id waited.  A write
overwrites just when the request that waits has ended but its event was not
taken. -/
theorem accepted_eq_ended_iff (t : Tuning) (route : Route) (calls : List Call)
    (id : TransactionId) :
    let c := ofTuning t route
    let accepted := (c.steps calls).countP (·.accepts id)
    let ended := (c.steps calls).countP (·.ends id)
    let waiting := ((c.run calls).2.isWaiting id).toNat
    accepted = ended + waiting + (c.steps calls).countP (·.overwrites id) ∧
    (accepted = ended + waiting ↔
      ∀ s ∈ c.steps calls, s.accepts id = true → s.before.isWaiting id = false) ∧
    ∀ s ∈ c.steps calls, ∀ m now, s.call = .write m now →
      (s.overwrites m.id = true ↔
        s.before.closed = false ∧ s.before.deadline? 0 now ≠ none ∧
        s.before.isWaiting m.id = true ∧ s.before.agent.isTracking m.id = false ∧
        m.id ∈ s.before.agent.events.map Event.id) := by
  intro c accepted ended waiting
  have hbalance : accepted + (c.isWaiting id).toNat
      = ended + waiting + (c.steps calls).countP (·.overwrites id) := run_balance c calls id
  have hfresh : (c.isWaiting id).toNat = 0 := rfl
  rw [hfresh, Nat.add_zero] at hbalance
  refine ⟨hbalance, ?_, ?_⟩
  · have hnone : accepted = ended + waiting ↔ (c.steps calls).countP (·.overwrites id) = 0 := by
      omega
    rw [hnone, List.countP_eq_zero]
    simp only [Step.overwrites, Bool.and_eq_true, not_and, Bool.not_eq_true]
  · intro s hs m now hcall
    obtain ⟨hsound, hanswer⟩ :=
      of_mem_steps (fun _ call hc => hc.perform call) (sound_ofTuning t route) hs
    obtain ⟨before, call, answer⟩ := s
    dsimp only at hcall hanswer hsound ⊢
    subst hcall hanswer
    rw [Step.overwrites, Bool.and_eq_true, accepts_write_iff hsound m now]
    constructor
    · rintro ⟨⟨hc, hd, ht⟩, hw⟩
      exact ⟨hc, hd, hw, ht, hsound.mem_events hw ht⟩
    · rintro ⟨hc, hd, hw, ht, -⟩
      exact ⟨⟨hc, hd, ht⟩, hw⟩

/-- A request is answered, and written again before that is reported: two are
accepted, one ends, and none waits. -/
theorem answered_then_overwritten :
    let request := Message.new ⟨⟨1⟩, .request⟩ .zero
    let response := Message.new ⟨⟨1⟩, .successResponse⟩ .zero
    let calls := [.write request 0, .read response.encode, .write request 1, .pollEvent, .pollEvent]
    let here : Endpoint := ⟨⟨.v4, [10, 0, 0, 2], rfl⟩, 40000⟩
    let there : Endpoint := ⟨⟨.v4, [198, 51, 100, 1], rfl⟩, 3478⟩
    let c := ofTuning {} ⟨here, there, .udp⟩
    (c.steps calls).countP (·.accepts .zero) = 2 ∧ (c.steps calls).countP (·.ends .zero) = 1 ∧
      (c.run calls).2.isWaiting .zero = false ∧ (c.run calls).2.pending = 0 := by
  decide +kernel

end Client

end Stun
