/-
Stun/Proofs/Client/Repetition.lean

How often a request is sent.

A request is sent when it is accepted and once with every attempt that follows,
so as long as it waits its datagrams are one more than its attempts
(`Account.counted`).  An attempt follows only where one is left and the clock
reaches its deadline.  Every step keeps the account of an id over the steps
that came before it (`Account.after`); it is enough that no second request is
accepted with the id.

Main result: what is sent for a request that is accepted once, how often, and
until when (`sent_of_accepted_once`).
-/
import Stun.Proofs.Client.Stages

namespace Stun

namespace Client

variable {c : Client} {id : TransactionId} {s : Stage} {t : Tuning} {route : Route}
  {past : List Step}

/-! ### Runs in pieces -/

theorem steps_append (c : Client) (front back : List Call) :
    c.steps (front ++ back) = c.steps front ++ (c.run front).2.steps back := by
  induction front generalizing c with
  | nil => rfl
  | cons call front ih => exact congrArg (_ :: ·) (ih (c.perform call).2)

theorem ledger_append (front back : List Step) :
    ledger (front ++ back) = ledger front ++ ledger back :=
  List.flatMap_append

/-! ### Settings -/

/-- Where a client sends to, how long it waits and how often it repeats are the
same. -/
structure SameSettings (c c' : Client) : Prop where
  route : c'.route = c.route
  timeout : c'.timeout = c.timeout
  rate : c'.rate = c.rate
  maxAttempts : c'.maxAttempts = c.maxAttempts

theorem SameSettings.trans {c' c'' : Client} (h : SameSettings c c') (h' : SameSettings c' c'') :
    SameSettings c c'' where
  route := h'.route.trans h.route
  timeout := h'.timeout.trans h.timeout
  rate := h'.rate.trans h.rate
  maxAttempts := h'.maxAttempts.trans h.maxAttempts

theorem settings_settle (c : Client) (e : Event) (rest : List Event) :
    SameSettings c (settle (c.take rest) e).2 := by
  obtain ⟨-, he⟩ | ⟨r, -, ⟨-, journal, he⟩ | ⟨-, -, -, -, deadline, journal, -, he⟩⟩ :=
    settle_cases (c.take rest) e <;> rw [he] <;> exact ⟨rfl, rfl, rfl, rfl⟩

/-- No call changes the settings. -/
theorem settings_perform (c : Client) (call : Call) : SameSettings c (c.perform call).2 := by
  cases call with
  | write m now =>
    obtain ⟨-, e, he⟩ | ⟨-, -, -, deadline, journal, -, he⟩ := handleWrite_cases m now c <;>
      rw [perform, he] <;> exact ⟨rfl, rfl, rfl, rfl⟩
  | read datagram =>
    obtain ⟨e, he⟩ | ⟨-, m, -, he⟩ := handleRead_cases datagram c <;>
      rw [perform, he] <;> exact ⟨rfl, rfl, rfl, rfl⟩
  | event input =>
    cases input with
    | timeout now =>
      obtain ⟨-, he⟩ | ⟨-, horizon, -, he⟩ := handleEvent_timeout_cases now c <;>
        rw [perform, he] <;> exact ⟨rfl, rfl, rfl, rfl⟩
    | close =>
      obtain ⟨-, he⟩ | ⟨-, journal, he⟩ := handleEvent_close_cases c <;>
        rw [perform, he] <;> exact ⟨rfl, rfl, rfl, rfl⟩
  | pollWrite =>
    rw [perform, pollWrite_eq]
    exact ⟨rfl, rfl, rfl, rfl⟩
  | pollEvent =>
    exact pollEvent_preserves (P := SameSettings c) (fun _ _ h => ⟨h.1, h.2, h.3, h.4⟩)
      (fun c' e rest h _ => h.trans (settings_settle c' e rest)) ⟨rfl, rfl, rfl, rfl⟩

/-- No run changes the settings. -/
theorem settings_run (c : Client) (calls : List Call) : SameSettings c (c.run calls).2 :=
  run_preserves (P := SameSettings c) (fun c' call h => h.trans (settings_perform c' call))
    ⟨rfl, rfl, rfl, rfl⟩ calls

/-! ### The account of an id -/

/-- What the steps so far come to for an id, in which at most one request was
accepted with it. -/
structure Account (t : Tuning) (route : Route) (id : TransactionId) (past : List Step) (c : Client)
    (s : Stage) : Prop where
  routed : c.route = route
  budget : c.maxAttempts = t.maxAttempts
  stage : c.At id s
  /-- Before the request is accepted nothing is sent. -/
  fresh : past.countP (·.accepts id) = 0 → s = .absent ∧ sentFor id (ledger past) = []
  /-- It is the accepted request that is sent. -/
  carried : ∀ p ∈ past, ∀ m now, p.call = .write m now → p.accepts id = true →
    (∀ x ∈ sentFor id (ledger past), x.payload = m.raw ∧ x.route = route) ∧
      ∀ r, s.request? = some r → r.raw = m.raw
  counted : ∀ r, s.request? = some r →
    (sentFor id (ledger past)).length = r.attempt.toNat + 1
  bounded : (sentFor id (ledger past)).length ≤ t.maxAttempts.toNat + 1

theorem account_ofTuning (t : Tuning) (route : Route) (id : TransactionId) :
    Account t route id [] (ofTuning t route) .absent where
  routed := rfl
  budget := rfl
  stage := at_ofTuning t route id
  fresh _ := ⟨rfl, rfl⟩
  carried _ hp := absurd hp List.not_mem_nil
  counted _ hr := by cases hr
  bounded := Nat.zero_le _

theorem Ends.accepts {deadline : Instant} {call : Call} {o : Outcome}
    (h : Ends c id deadline call o) : (c.step call).accepts id = false := by
  cases h <;> rfl

theorem countP_concat (past : List Step) (p : Step) :
    (past ++ [p]).countP (·.accepts id) = past.countP (·.accepts id) + (p.accepts id).toNat := by
  rw [List.countP_append, List.countP_singleton]
  cases p.accepts id <;> rfl

theorem sentFor_concat (id : TransactionId) (past : List Step) (c : Client) (call : Call) :
    sentFor id (ledger (past ++ [c.step call]))
      = sentFor id (ledger past) ++ sentFor id (c.sendings call) := by
  rw [ledger_append, sentFor_append, ledger_cons, ledger_nil, List.append_nil, step]

/-- A step that accepts and sends nothing leaves the account, or closes it. -/
theorem Account.quiet (h : Account t route id past c s) {call : Call} {s' : Stage}
    (haccept : (c.step call).accepts id = false) (hsent : sentFor id (c.sendings call) = [])
    (hstage : (c.perform call).2.At id s')
    (hrequest : ∀ r, s'.request? = some r → s.request? = some r)
    (habsent : s = .absent → s' = .absent) :
    Account t route id (past ++ [c.step call]) (c.perform call).2 s' := by
  have hsame : sentFor id (ledger (past ++ [c.step call])) = sentFor id (ledger past) := by
    rw [sentFor_concat, hsent, List.append_nil]
  obtain ⟨hroute, -, -, hmax⟩ := settings_perform c call
  constructor
  case routed => exact hroute.trans h.routed
  case budget => exact hmax.trans h.budget
  case stage => exact hstage
  case fresh =>
    rw [countP_concat, haccept, hsame]
    exact fun hzero => (h.fresh hzero).imp_left habsent
  case carried =>
    rw [hsame]
    intro p hp m now hcall haccepts
    rcases List.mem_append.mp hp with hp | hp
    · exact (h.carried p hp m now hcall haccepts).imp_right fun hraw r hr => hraw r (hrequest r hr)
    · rw [List.mem_singleton.mp hp, haccept] at haccepts
      cases haccepts
  case counted =>
    rw [hsame]
    exact fun r hr => h.counted r (hrequest r hr)
  case bounded => exact hsame ▸ h.bounded

/-- The step that accepts the request sends it for the first time. -/
theorem Account.begun (h : Account t route id past c s)
    (hzero : past.countP (·.accepts id) = 0) {m : Message} {now deadline : Instant}
    (haccept : (c.step (.write m now)).accepts id = true)
    (hsent : sentFor id (c.sendings (.write m now)) = [⟨now, c.route, m.raw⟩])
    (hstage : (c.perform (.write m now)).2.At id (.underway ⟨id, 0, now, m.raw⟩ deadline)) :
    Account t route id (past ++ [c.step (.write m now)]) (c.perform (.write m now)).2
      (.underway ⟨id, 0, now, m.raw⟩ deadline) := by
  have hone : sentFor id (ledger (past ++ [c.step (.write m now)]))
      = [⟨now, c.route, m.raw⟩] := by
    rw [sentFor_concat, (h.fresh hzero).2, hsent, List.nil_append]
  obtain ⟨hroute, -, -, hmax⟩ := settings_perform c (.write m now)
  constructor
  case routed => exact hroute.trans h.routed
  case budget => exact hmax.trans h.budget
  case stage => exact hstage
  case fresh =>
    rw [countP_concat, haccept]
    intro hnone
    cases hnone
  case carried =>
    rw [hone]
    intro p hp m' now' hcall haccepts
    rcases List.mem_append.mp hp with hp | hp
    · exact absurd haccepts (List.countP_eq_zero.mp hzero p hp)
    · obtain rfl := List.mem_singleton.mp hp
      cases hcall
      refine ⟨fun x hx => ?_, fun r hr => ?_⟩
      · rw [List.mem_singleton.mp hx]
        exact ⟨rfl, h.routed⟩
      · cases hr
        rfl
  case counted =>
    rw [hone]
    intro r hr
    cases hr
    rfl
  case bounded =>
    rw [hone]
    exact Nat.succ_le_succ (Nat.zero_le _)

/-- The count of attempts does not wrap around below the attempts allowed. -/
theorem toNat_succ_of_lt {attempt maxAttempts : UInt32} (h : attempt < maxAttempts) :
    (attempt + 1).toNat = attempt.toNat + 1 := by
  have hlt : attempt.toNat < maxAttempts.toNat := UInt32.lt_iff_toNat_lt.mp h
  have hmax := maxAttempts.toNat_lt
  rw [UInt32.toNat_add, UInt32.toNat_one]
  omega

/-- A step that begins another attempt sends the request once more. -/
theorem Account.repeated {r : Request} {o : Outcome} (h : Account t route id past c (.ended r o))
    (hlt : r.attempt < c.maxAttempts) {deadline : Instant}
    (hsent : sentFor id (c.sendings .pollEvent) = [⟨c.lastNow?.getD r.start, c.route, r.raw⟩])
    (hstage : (c.perform .pollEvent).2.At id
      (.underway { r with attempt := r.attempt + 1 } deadline)) :
    Account t route id (past ++ [c.step .pollEvent]) (c.perform .pollEvent).2
      (.underway { r with attempt := r.attempt + 1 } deadline) := by
  have hmore : sentFor id (ledger (past ++ [c.step .pollEvent]))
      = sentFor id (ledger past) ++ [⟨c.lastNow?.getD r.start, c.route, r.raw⟩] := by
    rw [sentFor_concat, hsent]
  have hcounted := h.counted r rfl
  obtain ⟨hroute, -, -, hmax⟩ := settings_perform c .pollEvent
  constructor
  case routed => exact hroute.trans h.routed
  case budget => exact hmax.trans h.budget
  case stage => exact hstage
  case fresh =>
    rw [countP_concat]
    intro hzero
    obtain ⟨hs, -⟩ := h.fresh (Nat.eq_zero_of_add_eq_zero_right hzero)
    cases hs
  case carried =>
    rw [hmore]
    intro p hp m now hcall haccepts
    rcases List.mem_append.mp hp with hp | hp
    · obtain ⟨hsame, hraw⟩ := h.carried p hp m now hcall haccepts
      refine ⟨fun x hx => ?_, fun r' hr' => ?_⟩
      · rcases List.mem_append.mp hx with hx | hx
        · exact hsame x hx
        · rw [List.mem_singleton.mp hx]
          exact ⟨hraw r rfl, h.routed⟩
      · cases hr'
        exact hraw r rfl
    · rw [List.mem_singleton.mp hp] at haccepts
      cases haccepts
  case counted =>
    rw [hmore, List.length_append, hcounted]
    intro r' hr'
    cases hr'
    exact congrArg (· + 1) (toNat_succ_of_lt hlt).symm
  case bounded =>
    rw [h.budget] at hlt
    have hbelow : r.attempt.toNat < t.maxAttempts.toNat := UInt32.lt_iff_toNat_lt.mp hlt
    rw [hmore, List.length_append, hcounted, List.length_singleton]
    omega

/-- **One step** keeps the account. -/
theorem Account.after (h : Account t route id past c s) (call : Call)
    (honce : (past ++ [c.step call]).countP (·.accepts id) ≤ 1) :
    ∃ s', Account t route id (past ++ [c.step call]) (c.perform call).2 s' := by
  -- a step that accepts the request is the first that does
  have hnew : (c.step call).accepts id = true → past.countP (·.accepts id) = 0 := by
    intro haccept
    rw [countP_concat, haccept, Bool.toNat_true] at honce
    omega
  obtain ⟨s', hprogress, hstage⟩ := h.stage.perform call fun haccept => (h.fresh (hnew haccept)).1
  refine ⟨s', ?_⟩
  generalize hsent : sentFor id (c.sendings call) = sent at hprogress
  generalize Step.reported? id (c.step call) = o? at hprogress
  cases hprogress with
  | stays haccept => exact h.quiet haccept hsent hstage (fun _ hr => hr) fun hs => hs
  | begins haccept _ => exact h.begun (hnew haccept) haccept hsent hstage
  | ends hends =>
    refine h.quiet hends.accepts hsent hstage (fun _ hr => hr) fun hs => ?_
    cases hs
  | repeats hlt _ => exact h.repeated hlt hsent hstage
  | reports _ =>
    refine h.quiet rfl hsent hstage (fun _ hr => ?_) fun _ => rfl
    cases hr

/-- **Every run has its account.** -/
theorem Account.run (h : Account t route id past c s) (calls : List Call)
    (honce : (past ++ c.steps calls).countP (·.accepts id) ≤ 1) :
    ∃ s', Account t route id (past ++ c.steps calls) (c.run calls).2 s' := by
  -- each call moves its step from what is to come to what is past
  induction calls generalizing past c s with
  | nil =>
    rw [steps, List.append_nil]
    exact ⟨s, h⟩
  | cons call calls ih =>
    have hsplit : past ++ c.steps (call :: calls)
        = past ++ [c.step call] ++ (c.perform call).2.steps calls := by
      rw [List.append_assoc]
      rfl
    rw [hsplit] at honce ⊢
    obtain ⟨s', h'⟩ := h.after call (by rw [List.countP_append] at honce; omega)
    exact ih h' honce

/-- The attempts of a request stay within those allowed. -/
theorem Account.attempt_le (h : Account t route id past c s) {r : Request}
    (hr : s.request? = some r) : r.attempt ≤ t.maxAttempts := by
  have hcounted := h.counted r hr
  have hbounded := h.bounded
  rw [UInt32.le_iff_toNat_le]
  omega

/-- A request that runs out of time, where another attempt would have had a
deadline, was sent as often as it can be. -/
theorem Account.exhausted (h : Account t route id past c s) {r : Request}
    (hr : s.request? = some r) (hsound : c.Sound) (hopen : c.closed = false)
    (hreason : c.agent.closed = true ∨ c.maxAttempts ≤ r.attempt ∨ c.nextDeadline? r = none)
    (hreach : ∀ r ∈ c.requests, r.id = id → r.attempt < t.maxAttempts →
      c.nextDeadline? r ≠ none) :
    (sentFor id (ledger past)).length = t.maxAttempts.toNat + 1 := by
  have hmax : t.maxAttempts ≤ r.attempt := by
    rcases hreason with hclosed | hmax | hnext
    · rw [hsound.closed, hopen] at hclosed
      cases hclosed
    · exact h.budget ▸ hmax
    · obtain ⟨hmem, hid⟩ := h.stage.mem_iff.mpr hr
      exact UInt32.not_lt.mp fun hlt => hreach r hmem hid hlt hnext
  have hcounted := h.counted r hr
  rw [hcounted, UInt32.le_antisymm (h.attempt_le hr) hmax]

/-! ### After the end -/

/-- Without a request nothing is sent. -/
theorem At.sentFor_absent (h : c.At id .absent) {calls : List Call}
    (hnone : ∀ p ∈ c.steps calls, ¬ p.accepts id = true) :
    sentFor id (ledger (c.steps calls)) = [] := by
  induction calls generalizing c with
  | nil => rfl
  | cons call calls ih =>
    have hfirst : ¬ (c.step call).accepts id = true := hnone _ List.mem_cons_self
    obtain ⟨s', hprogress, hafter⟩ := h.perform call fun haccept => absurd haccept hfirst
    generalize Step.reported? id (c.step call) = o? at hprogress
    generalize hsent : sentFor id (c.sendings call) = sent at hprogress
    rw [steps, ledger_cons, sentFor_append, hsent]
    cases hprogress with
    | stays _ => exact ih hafter fun p hp => hnone p (List.mem_cons_of_mem _ hp)
    | begins haccept _ => exact absurd haccept hfirst

/-- An end that is reported is that of a request that waited. -/
theorem At.reported (h : c.At id s) {e : Event} (hid : e.id = id)
    (he : c.pollEvent.1 = some (.transaction e)) :
    ∃ r, s = .ended r e.outcome ∧ c.pollEvent.2.At id .absent ∧
      sentFor id (c.sendings .pollEvent) = [] ∧
      (e.outcome = .failed .transactionTimedOut →
        c.agent.closed = true ∨ c.maxAttempts ≤ r.attempt ∨ c.nextDeadline? r = none) := by
  obtain ⟨s', hprogress, hafter⟩ := h.pollEvent
  have hreported : Step.reported? id (c.step .pollEvent) = some e.outcome := by
    simp [Step.reported?, step, Client.perform, he, hid]
  rw [hreported] at hprogress
  generalize sentFor id (c.sendings .pollEvent) = sent at hprogress
  cases hprogress with
  | @reports r o hreason => exact ⟨r, rfl, hafter, rfl, hreason⟩

/-! ### Requests that are accepted once -/

/-- **What is sent for a request.**  Every datagram that is taken or still
queued stands in the ledger.  If a request is accepted once with an id, those
of that id carry the octets of its message over the route of the client.  As
long as it waits they are one more than its attempts, which stay within those
allowed, and there are never more than these and one.  After its end was
reported there are no more.  If that end was a timeout, reported while the
client was open and the clock would have reached the deadline of another
attempt, all of them were sent. -/
theorem sent_of_accepted_once (t : Tuning) (route : Route) (calls : List Call) (id : TransactionId)
    (honce : ((ofTuning t route).steps calls).countP (·.accepts id) = 1) :
    let c := ofTuning t route
    let sent := sentFor id (ledger (c.steps calls))
    (c.steps calls).flatMap Step.taken ++ (c.run calls).2.outbound
      = (ledger (c.steps calls)).map Sending.transmit ∧
    (∀ s ∈ c.steps calls, ∀ m now, s.call = .write m now → s.accepts id = true →
      ∀ x ∈ sent, x.payload = m.raw ∧ x.route = route) ∧
    sent.length ≤ t.maxAttempts.toNat + 1 ∧
    (∀ front back, calls = front ++ back → ∀ r ∈ (c.run front).2.requests, r.id = id →
      (sentFor id (ledger (c.steps front))).length = r.attempt.toNat + 1 ∧
        r.attempt ≤ t.maxAttempts) ∧
    ∀ front back e, calls = front ++ .pollEvent :: back → e.id = id →
      let before := (c.run front).2
      before.pollEvent.1 = some (.transaction e) →
      sentFor id (ledger (before.pollEvent.2.steps back)) = [] ∧
      (e.outcome = .failed .transactionTimedOut → before.closed = false →
        (∀ r ∈ before.requests, r.id = id → r.attempt < t.maxAttempts →
          before.nextDeadline? r ≠ none) →
        sent.length = t.maxAttempts.toNat + 1) := by
  intro c sent
  -- a part of the run accepts no more than the whole, so it has an account as well
  have haccount : ∀ front back, calls = front ++ back →
      ∃ s, Account t route id (c.steps front) (c.run front).2 s := by
    rintro front back rfl
    rw [steps_append, List.countP_append] at honce
    exact (account_ofTuning t route id).run front (by rw [List.nil_append]; omega)
  obtain ⟨_, hwhole⟩ := haccount calls [] (List.append_nil _).symm
  refine ⟨?_, ?_, hwhole.bounded, ?_, ?_⟩
  · exact taken_append_outbound c calls
  · intro s hs m now hcall haccept
    exact (hwhole.carried s hs m now hcall haccept).1
  · intro front back hsplit r hr hid
    obtain ⟨s, hfront⟩ := haccount front back hsplit
    have hrequest := hfront.stage.mem_iff.mp ⟨hr, hid⟩
    exact ⟨hfront.counted r hrequest, hfront.attempt_le hrequest⟩
  · intro front back e hsplit hid before he
    obtain ⟨s, hfront⟩ := haccount front _ hsplit
    obtain ⟨r, rfl, hafter, hquiet, hreason⟩ := hfront.stage.reported hid he
    -- the request was accepted before its end was reported, and no other after that
    have hsteps : c.steps calls
        = c.steps front ++ before.step .pollEvent :: before.pollEvent.2.steps back := by
      rw [hsplit, steps_append]
      rfl
    have hnone : (before.pollEvent.2.steps back).countP (·.accepts id) = 0 := by
      have hborn : (c.steps front).countP (·.accepts id) ≠ 0 := by
        intro hzero
        obtain ⟨hs, -⟩ := hfront.fresh hzero
        cases hs
      rw [hsteps, List.countP_append, List.countP_cons] at honce
      omega
    have hrest : sentFor id (ledger (before.pollEvent.2.steps back)) = [] :=
      hafter.sentFor_absent (List.countP_eq_zero.mp hnone)
    refine ⟨hrest, fun ho hopen hreach => ?_⟩
    have hsent : sent = sentFor id (ledger (c.steps front)) := by
      have hpoll : sentFor id (before.sendings .pollEvent) = [] := hquiet
      simp only [sent, hsteps, ledger_append, ledger_cons, sentFor_append, hrest, step, hpoll,
        List.append_nil]
    rw [hsent]
    exact hfront.exhausted rfl (sound_run t route front) hopen (hreason ho) hreach

/-- With one repetition a request that is never answered is sent twice. -/
theorem sent_twice_unanswered :
    let request := Message.new ⟨⟨1⟩, .request⟩ .zero
    let here : Endpoint := ⟨⟨.v4, [10, 0, 0, 2], rfl⟩, 40000⟩
    let there : Endpoint := ⟨⟨.v4, [198, 51, 100, 1], rfl⟩, 3478⟩
    let c := ofTuning { maxAttempts := 1 } ⟨here, there, .udp⟩
    let front := [.write request 0, .event (.timeout 300000000), .pollEvent,
      .event (.timeout 900000000)]
    let before := (c.run front).2
    let calls := front ++ [.pollEvent, .pollWrite, .pollWrite]
    (c.steps calls).countP (·.accepts .zero) = 1 ∧
      before.pollEvent.1 = some (.transaction ⟨.zero, .failed .transactionTimedOut⟩) ∧
      before.closed = false ∧
      (∀ r ∈ before.requests, r.id = .zero → r.attempt < 1 → before.nextDeadline? r ≠ none) ∧
      (sentFor .zero (ledger (c.steps calls))).length = 2 := by
  intro request here there c front before calls
  have honce : (c.steps calls).countP (·.accepts .zero) = 1 := by decide +kernel
  have hend : before.pollEvent.1 = some (.transaction ⟨.zero, .failed .transactionTimedOut⟩) := by
    decide +kernel
  obtain ⟨-, -, -, -, hends⟩ := sent_of_accepted_once { maxAttempts := 1 } ⟨here, there, .udp⟩
    calls .zero honce
  obtain ⟨-, hlast⟩ := hends front [.pollWrite, .pollWrite] _ rfl rfl hend
  refine ⟨honce, hend, ?_, ?_, hlast rfl ?_ ?_⟩
  all_goals decide +kernel

end Client

end Stun
