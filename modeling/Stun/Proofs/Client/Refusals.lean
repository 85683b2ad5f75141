/-
Stun/Proofs/Client/Refusals.lean

Why a call is refused.

A client may be refused by itself, by the clock, by its agent or by the octets
of a datagram.  Where it asks its agent it has already changed itself, so that
nothing is left behind is no matter of the order in which it checks.  It holds
because the agent refuses only an id that is under way: client and agent are
closed together (`Sound.closed`), and an open agent takes whatever else an open
client hands on.

So the reasons can be told from the client and the call alone (`Refusal`).
Each is the one that is named (`Refusal.perform_eq`), and where there is none
the call is taken (`Sound.refusal_or_taken`).  Main result: a call is refused
for just these reasons and leaves no trace (`refused_without_trace`).
-/
import Stun.Proofs.Client.Tables
import Stun.Proofs.Wire.Defects

namespace Stun

/-- What is wrong with a datagram has nothing to do with who is closed. -/
theorem Message.decode_ne_closed {bs : List UInt8} {e : Error} (h : decode bs = .error e) :
    e ≠ .clientClosed ∧ e ≠ .agentClosed := by
  cases defect_of_decode h <;> simp

namespace Client

variable {c c' : Client} {call : Call} {err : Error}

/-! ### Reasons -/

/-- Why a client refuses a call, and the error it names. -/
inductive Refusal (c : Client) : Call → Error → Prop
  /-- Nothing can be told to a client that is closed. -/
  | closed {call : Call} : c.closed = true → call ≠ .pollWrite → call ≠ .pollEvent →
      Refusal c call .clientClosed
  /-- The clock does not reach the deadline of the first attempt. -/
  | clock {m : Message} {now : Instant} : c.closed = false → c.deadline? 0 now = none →
      Refusal c (.write m now)
        (.configuration s!"RTO {Duration.text c.timeout} overflows the clock")
  /-- A transaction with the id is under way. -/
  | tracked {m : Message} {now : Instant} : c.closed = false → c.deadline? 0 now ≠ none →
      c.agent.isTracking m.id = true → Refusal c (.write m now) .transactionExists
  /-- The datagram is no message. -/
  | undecodable {datagram : List UInt8} {e : Error} : c.closed = false →
      Message.decode datagram = .error e → Refusal c (.read datagram) e

/-- **A reason is named**, and the client stays as it is. -/
theorem Refusal.perform_eq (h : Refusal c call err) (hsound : c.Sound) :
    c.perform call = (.done (.error err), c) := by
  cases h with
  | closed hc hwrite hevent =>
    cases call with
    | write m now => rw [perform, handleWrite, if_pos hc]
    | read datagram => rw [perform, handleRead, if_pos hc]
    | event input => rw [perform, handleEvent, if_pos hc]
    | pollWrite => exact absurd rfl hwrite
    | pollEvent => exact absurd rfl hevent
  | @clock m now hopen hnone =>
    have hneg := ne_true_of_eq_false hopen
    have hbegin : begin m.id 0 now c = (.error (.configuration
        s!"RTO {Duration.text c.timeout} overflows the clock"), c) := by
      simp only [begin, hnone]
    rw [perform, handleWrite, if_neg hneg, hbegin]
  | @tracked m now hopen hsome htracked =>
    have hneg := ne_true_of_eq_false hopen
    have hbegin : begin m.id 0 now c = (.error .transactionExists, c) := by
      obtain ⟨deadline, hdeadline⟩ := Option.ne_none_iff_exists'.mp hsome
      -- the agent is open, so it looks at the id
      have hstart : Agent.start m.id deadline c.agent
          = (.error .transactionExists, c.agent) := by
        rw [Agent.start, if_neg (by simp [hsound.closed, hopen]), if_pos htracked]
      simp only [begin, hdeadline, hstart]
    rw [perform, handleWrite, if_neg hneg, hbegin]
  | undecodable hopen hdecode =>
    have hneg := ne_true_of_eq_false hopen
    rw [perform, handleRead, if_neg hneg, hdecode]

/-- An open client takes every time, and is closed once. -/
theorem Sound.handleEvent_of_open (h : c.Sound) (hopen : c.closed = false) (input : ClientInput) :
    (Client.handleEvent input c).1 = .ok () := by
  have hneg := ne_true_of_eq_false hopen
  have hagent : c.agent.closed = false := h.closed.trans hopen
  rw [Client.handleEvent, if_neg hneg]
  cases input with
  | timeout now => exact Agent.collect_of_open hagent _
  | close => exact Agent.close_of_open hagent

/-- **There is a reason, or the call is taken.**  By the time the agent is
asked, an open client cannot be refused any more but for the id. -/
theorem Sound.refusal_or_taken (h : c.Sound) (call : Call) :
    (∃ err, Refusal c call err) ∨ ∀ err, (c.perform call).1 ≠ .done (.error err) := by
  rcases Bool.eq_false_or_eq_true c.closed with hc | hopen
  · cases call with
    | pollWrite | pollEvent => exact .inr fun err => by simp [Client.perform]
    | _ => exact .inl ⟨_, .closed hc (by simp) (by simp)⟩
  have hagent : c.agent.closed = false := h.closed.trans hopen
  cases call with
  | write m now =>
    cases hd : c.deadline? 0 now with
    | none => exact .inl ⟨_, .clock hopen hd⟩
    | some deadline =>
      have hreached : c.deadline? 0 now ≠ none := by simp [hd]
      obtain ⟨hreason, -⟩ | ⟨-, -, -, deadline', journal, -, he⟩ := handleWrite_cases m now c
      · rcases hreason with hc | hnone | hclosed | htracked
        · simp [hopen] at hc
        · exact absurd hnone hreached
        · simp [hagent] at hclosed
        · exact .inl ⟨_, .tracked hopen hreached htracked⟩
      · rw [Client.perform, he]
        exact .inr fun err => by simp
  | read datagram =>
    cases hd : Message.decode datagram with
    | error e => exact .inl ⟨e, .undecodable hopen hd⟩
    | ok m =>
      refine .inr fun err => ?_
      have hneg := ne_true_of_eq_false hopen
      rw [Client.perform, Client.handleRead, if_neg hneg, hd]
      dsimp only
      rw [Agent.process_of_open hagent m]
      simp
  | event input =>
    refine .inr fun err => ?_
    rw [Client.perform]
    dsimp only
    rw [h.handleEvent_of_open hopen input]
    simp
  | pollWrite | pollEvent => exact .inr fun err => by simp [Client.perform]

/-- A call is refused exactly if there is a reason, and then leaves the client as it was. -/
theorem Sound.perform_eq_error_iff (h : c.Sound) :
    c.perform call = (.done (.error err), c') ↔ c' = c ∧ Refusal c call err := by
  constructor
  · intro he
    rcases h.refusal_or_taken call with ⟨err', hreason⟩ | htaken
    · -- only one error is answered, so it is the one of this reason
      rw [hreason.perform_eq h] at he
      obtain ⟨hanswer, hsame⟩ := Prod.mk.inj he
      obtain rfl : err' = err := by
        cases hanswer
        rfl
      exact ⟨hsame.symm, hreason⟩
    · exact absurd (congrArg Prod.fst he) (htaken err)
  · rintro ⟨rfl, hreason⟩
    exact hreason.perform_eq h

/-- **What each reason says of the client and the call.** -/
theorem Refusal.cases_of_open (h : Refusal c call err) (hopen : c.closed = false) :
    (∃ m now, call = .write m now ∧
      (err = .transactionExists ∨ ∃ reason, err = .configuration reason)) ∨
    ∃ datagram, call = .read datagram ∧ Message.decode datagram = .error err := by
  cases h with
  | closed hc => simp [hopen] at hc
  | clock => exact .inl ⟨_, _, rfl, .inr ⟨_, rfl⟩⟩
  | tracked => exact .inl ⟨_, _, rfl, .inl rfl⟩
  | undecodable _ hdecode => exact .inr ⟨_, rfl, hdecode⟩

theorem Refusal.clientClosed_iff (h : Refusal c call err) :
    err = .clientClosed ↔ c.closed = true := by
  cases h with
  | closed hc => exact ⟨fun _ => hc, fun _ => rfl⟩
  | clock hopen => simp [hopen]
  | tracked hopen => simp [hopen]
  | undecodable hopen hdecode => simp [hopen, (Message.decode_ne_closed hdecode).1]

theorem Refusal.ne_agentClosed (h : Refusal c call err) : err ≠ .agentClosed := by
  cases h with
  | undecodable _ hdecode => exact (Message.decode_ne_closed hdecode).2
  | _ => simp

/-! ### Refusals in a run -/

/-- **A refused call leaves no trace, and is refused for a reason of its own.**
After every run client and agent are closed together.  A call is refused
exactly if the client is closed and the call is no poll, or the clock ends
before the first deadline of a request, or a transaction with its id is under
way, or a datagram is no message; the error that comes back is that of the
reason, and the client that comes back is the one that was called.  So a closed
client is told apart by its error, the agent's own is never seen, and a client
that is open takes every time and can be closed. -/
theorem refused_without_trace (t : Tuning) (route : Route) (past : List Call) :
    let c := ((ofTuning t route).run past).2
    c.agent.closed = c.closed ∧
    (∀ call err c', c.perform call = (.done (.error err), c') ↔ c' = c ∧ Refusal c call err) ∧
    (∀ call err, Refusal c call err →
      (err = .clientClosed ↔ c.closed = true) ∧ err ≠ .agentClosed ∧
      (c.closed = false →
        (∃ m now, call = .write m now ∧
          (err = .transactionExists ∨ ∃ reason, err = .configuration reason)) ∨
        ∃ datagram, call = .read datagram ∧ Message.decode datagram = .error err)) ∧
    (c.closed = false → ∀ input, (c.perform (.event input)).1 = .done (.ok ())) := by
  intro c
  have hsound : c.Sound := sound_run t route past
  refine ⟨hsound.closed, fun call err c' => hsound.perform_eq_error_iff, ?_, ?_⟩
  · intro call err hreason
    exact ⟨hreason.clientClosed_iff, hreason.ne_agentClosed, hreason.cases_of_open⟩
  · intro hopen input
    exact congrArg Answer.done (hsound.handleEvent_of_open hopen input)

end Client

end Stun
