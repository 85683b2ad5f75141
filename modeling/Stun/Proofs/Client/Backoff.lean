/-
Stun/Proofs/Client/Backoff.lean

When a request is sent again.

The time that a repetition is sent with is the one the client was told last, by
whomever: the write of another request moves it as well.  What keeps two
datagrams of a request apart is therefore not their distance in calls but a
chain of three facts.  The deadline of an attempt is the time of its datagram
plus as many timeouts as there were attempts (`deadline?_eq`); an attempt ends
for lack of time only when it is told a time that comes within the resolution
of the deadline; and from then on the time that was told last does not go back
(`Timely`).  `Paced` carries the three along for the datagrams of one request.

Main result: between two datagrams of a request that follow each other as many
timeouts pass as the first is late in their order, less the resolution
(`sent_spaced`).
-/
import Stun.Proofs.Client.Repetition

namespace Stun

/-! ### What timeouts amount to -/

/-- The timeout that a deadline counts: at most a minute, and seven times as
long for a client that never repeats. -/
def Tuning.exactTimeout (t : Tuning) : Nat :=
  if t.maxAttempts = 0 then 7 * min t.timeout longestTimeout else min t.timeout longestTimeout

/-- The bound is applied first, so seven times the timeout can be told. -/
theorem Tuning.effectiveTimeout_eq (t : Tuning) : t.effectiveTimeout = t.exactTimeout := by
  have hbase : min t.timeout longestTimeout ≤ 60000000000 := Nat.min_le_right _ _
  have hspan : min t.timeout longestTimeout * defaultAttempts ≤ Duration.longest :=
    Nat.le_trans (Nat.mul_le_mul_right _ hbase) (by decide)
  rw [effectiveTimeout, exactTimeout, Duration.times, Nat.min_eq_left hspan, Nat.mul_comm]
  rfl

/-- No timeout that takes effect is longer than seven minutes. -/
theorem Tuning.effectiveTimeout_le (t : Tuning) : t.effectiveTimeout ≤ 420000000000 := by
  have hbase : min t.timeout longestTimeout ≤ 60000000000 := Nat.min_le_right _ _
  rw [effectiveTimeout_eq, exactTimeout]
  split
  · exact Nat.mul_le_mul_left 7 hbase
  · exact Nat.le_trans hbase (by decide)

namespace Client

variable {c : Client} {id : TransactionId} {s : Stage} {t : Tuning}

/-- The count of timeouts up to a deadline stays below the longest span, so it
is exact. -/
theorem times_attemptNumber (t : Tuning) (attempt : UInt32) :
    Duration.times t.effectiveTimeout (attemptNumber attempt)
      = t.effectiveTimeout * attemptNumber attempt := by
  have hnumber : attemptNumber attempt ≤ 4294967295 := Nat.min_le_right _ _
  have hspan : t.effectiveTimeout * attemptNumber attempt ≤ Duration.longest :=
    Nat.le_trans (Nat.mul_le_mul t.effectiveTimeout_le hnumber) (by decide)
  exact Nat.min_eq_left hspan

theorem deadline?_eq (htimeout : c.timeout = t.effectiveTimeout) {attempt : UInt32}
    {now deadline : Instant} (h : c.deadline? attempt now = some deadline) :
    deadline = now + (t.effectiveTimeout * attemptNumber attempt : Nat) := by
  rw [deadline?, htimeout, times_attemptNumber, Instant.after?] at h
  split at h
  · exact (Option.some.inj h).symm
  · cases h

/-- An attempt whose number can be told is counted exactly. -/
theorem attemptNumber_exact {attempt : UInt32} (h : attempt.toNat < 4294967295) :
    attemptNumber attempt = attempt.toNat + 1 := Nat.min_eq_left h

/-- So is an attempt that another one can follow. -/
theorem attemptNumber_of_lt {attempt maxAttempts : UInt32} (h : attempt < maxAttempts) :
    attemptNumber attempt = attempt.toNat + 1 := by
  have hlt : attempt.toNat < maxAttempts.toNat := UInt32.lt_iff_toNat_lt.mp h
  have hmax := maxAttempts.toNat_lt
  exact attemptNumber_exact (by omega)

/-- What is before the horizon is before the time and the resolution. -/
theorem horizon_le (c : Client) (now : Instant) : c.horizon now ≤ now + c.rate := by
  rw [horizon, Instant.after?]
  split
  · exact Int.le_refl _
  · exact Int.le_add_of_nonneg_right (Int.natCast_nonneg _)

/-! ### The times that are told -/

/-- The time that a step tells the client, unless it is refused. -/
def Step.told? (s : Step) : Option Instant :=
  match s.call, s.answer with
  | .write _ now, .done (.ok ()) => some now
  | .event (.timeout now), .done (.ok ()) => some now
  | _, _ => none

/-- A write that is accepted tells its time. -/
theorem told_of_accepts {m : Message} {now : Instant}
    (h : (c.step (.write m now)).accepts id = true) :
    (c.step (.write m now)).told? = some now := by
  simp only [Step.accepts, step] at h
  split at h
  case h_1 hcall hanswer =>
    cases hcall
    simp only [Step.told?, step, hanswer]
  case h_2 => cases h

/-- The times that a run tells, in order. -/
def told (steps : List Step) : List Instant := steps.filterMap Step.told?

/-- The client remembers the time that was told last. -/
theorem Sound.lastNow?_perform (h : c.Sound) (call : Call) :
    (c.perform call).2.lastNow? = (c.step call).told?.or c.lastNow? := by
  cases call with
  | write m now =>
    obtain ⟨-, e, he⟩ | ⟨-, -, -, deadline, journal, -, he⟩ := handleWrite_cases m now c <;>
      simp [step, Step.told?, Client.perform, he]
  | read datagram =>
    obtain ⟨e, he⟩ | ⟨-, m, -, he⟩ := handleRead_cases datagram c <;>
      simp [step, Step.told?, Client.perform, he]
  | event input =>
    cases input with
    | timeout now =>
      obtain ⟨-, he⟩ | ⟨hopen, horizon, -, he⟩ := handleEvent_timeout_cases now c
      · simp [step, Step.told?, Client.perform, he]
      · -- what the client takes the agent takes too, so the time counts as told
        have hok := Agent.collect_of_open (h.closed.trans hopen) horizon
        simp [step, Step.told?, Client.perform, he, hok]
    | close =>
      obtain ⟨-, he⟩ | ⟨-, journal, he⟩ := handleEvent_close_cases c <;>
        simp [step, Step.told?, Client.perform, he]
  | pollWrite => simp [step, Step.told?, Client.perform, pollWrite_eq]
  | pollEvent =>
    exact pollEvent_preserves (P := fun c' => c'.lastNow? = c.lastNow?) (fun _ _ h => h)
      (fun c' e rest h _ => (alike_settle c' e rest).lastNow.trans h) rfl

/-- The times that calls tell do not go back, nor before what was told last. -/
def Timely (c : Client) (calls : List Call) : Prop :=
  (c.lastNow?.toList ++ told (c.steps calls)).Pairwise (· ≤ ·)

theorem Timely.later {call : Call} {calls : List Call} (h : Timely c (call :: calls))
    {last now : Instant} (hlast : c.lastNow? = some last)
    (hnow : (c.step call).told? = some now) : last ≤ now := by
  have hsteps : told (c.steps (call :: calls)) = now :: told ((c.perform call).2.steps calls) := by
    rw [steps_cons, told, List.filterMap_cons, hnow]
    rfl
  rw [Timely, hsteps, hlast] at h
  exact (List.pairwise_append.mp h).2.2 last List.mem_cons_self now List.mem_cons_self

theorem Timely.tail {call : Call} {calls : List Call} (hsound : c.Sound)
    (h : Timely c (call :: calls)) : Timely (c.perform call).2 calls := by
  rw [Timely, steps_cons, told, List.filterMap_cons] at h
  rw [Timely, hsound.lastNow?_perform]
  cases hnow : (c.step call).told? with
  | none =>
    rw [hnow] at h
    exact h
  | some now =>
    rw [hnow] at h
    exact (List.pairwise_append.mp h).2.1

theorem Timely.drop {front back : List Call} (hsound : c.Sound) (h : Timely c (front ++ back)) :
    Timely (c.run front).2 back := by
  induction front generalizing c with
  | nil => exact h
  | cons call front ih => exact ih (hsound.perform call) (h.tail hsound)

theorem Timely.take {front back : List Call} (h : Timely c (front ++ back)) : Timely c front := by
  rw [Timely, steps_append, told, List.filterMap_append, ← List.append_assoc] at h
  exact (List.pairwise_append.mp h).1

/-! ### Datagrams that keep their distance -/

/-- Each datagram follows the one before it no earlier, and later than the
deadline of that attempt less the resolution. -/
def Spaced (t : Tuning) (sent : List Transmit) : Prop :=
  ∀ (k : Nat) (x y : Transmit), sent[k]? = some x → sent[k + 1]? = some y →
    x.now ≤ y.now ∧ x.now + (k + 1) * t.effectiveTimeout - t.effectiveRate < y.now

theorem spaced_singleton (t : Tuning) (x : Transmit) : Spaced t [x] := by
  intro k x y _ hy
  cases hy

theorem Spaced.concat {front : List Transmit} {x y : Transmit} (h : Spaced t (front ++ [x]))
    (hle : x.now ≤ y.now)
    (hlt : x.now + (front.length + 1) * t.effectiveTimeout - t.effectiveRate < y.now) :
    Spaced t (front ++ [x] ++ [y]) := by
  intro k x' y' hx hy
  rcases Nat.lt_trichotomy (k + 1) (front ++ [x]).length with hk | hk | hk
  · rw [List.getElem?_append_left (by omega)] at hx
    rw [List.getElem?_append_left hk] at hy
    exact h k x' y' hx hy
  · -- the new datagram follows the last one
    have hlast : k = front.length := by
      rw [List.length_append, List.length_singleton] at hk
      omega
    subst hlast
    have hx' : x = x' := by simpa using hx
    have hy' : y = y' := by simpa using hy
    subst hx' hy'
    exact ⟨hle, hlt⟩
  · rw [List.getElem?_eq_none] at hy
    · cases hy
    · rw [List.length_append, List.length_singleton]
      omega

/-! ### One request -/

/-- The datagrams of a request that were sent so far keep their distance, and
the next one will.  With the attempt under way comes its deadline, and with an
attempt that ran out of time the time that was told for it. -/
structure Paced (t : Tuning) (id : TransactionId) (sent : List Transmit) (c : Client) (s : Stage) :
    Prop where
  timeout : c.timeout = t.effectiveTimeout
  rate : c.rate = t.effectiveRate
  stage : c.At id s
  spaced : Spaced t sent
  /-- The last datagram is that of the attempt, and no later than what was told. -/
  latest : ∀ r, s.request? = some r → ∃ front x last, sent = front ++ [x] ∧
    front.length = r.attempt.toNat ∧ c.lastNow? = some last ∧ x.now ≤ last
  waits : ∀ r deadline x, s = .underway r deadline → sent.getLast? = some x →
    deadline = x.now + (t.effectiveTimeout * attemptNumber r.attempt : Nat)
  late : ∀ r x last, s = .ended r (.failed .transactionTimedOut) → sent.getLast? = some x →
    c.lastNow? = some last →
    x.now + (t.effectiveTimeout * attemptNumber r.attempt : Nat) < last + t.effectiveRate

/-- The datagram of the first attempt. -/
theorem At.begun (h : c.At id .absent) (htimeout : c.timeout = t.effectiveTimeout)
    (hrate : c.rate = t.effectiveRate) (hsound : c.Sound) {call : Call}
    (haccept : (c.step call).accepts id = true) :
    ∃ s, Paced t id (sentFor id (c.sendings call)) (c.perform call).2 s := by
  obtain ⟨s', hprogress, hstage⟩ := h.perform call fun _ => rfl
  have hsettings := settings_perform c call
  have hlast := hsound.lastNow?_perform call
  refine ⟨s', ?_⟩
  generalize sentFor id (c.sendings call) = sent at hprogress ⊢
  generalize Step.reported? id (c.step call) = o? at hprogress
  cases hprogress with
  | stays hrefused => exact absurd (haccept.symm.trans hrefused) nofun
  | @begins m now deadline _ hd =>
    rw [told_of_accepts haccept] at hlast
    constructor
    case timeout => exact hsettings.timeout.trans htimeout
    case rate => exact hsettings.rate.trans hrate
    case stage => exact hstage
    case spaced => exact spaced_singleton t _
    case latest =>
      intro r hr
      obtain rfl := Option.some.inj hr
      exact ⟨[], _, now, rfl, rfl, hlast, Int.le_refl _⟩
    case waits =>
      intro r deadline' x hs hx
      cases hs
      obtain rfl := Option.some.inj hx
      exact deadline?_eq htimeout hd
    case late =>
      intro r x last hs
      cases hs

/-- What was told last is later than what was told before. -/
theorem Sound.le_lastNow (h : c.Sound) {call : Call} {calls : List Call}
    (htimely : Timely c (call :: calls)) {last last' : Instant} (hlast : c.lastNow? = some last)
    (hlast' : (c.perform call).2.lastNow? = some last') : last ≤ last' := by
  rw [h.lastNow?_perform] at hlast'
  cases htold : (c.step call).told? with
  | none =>
    rw [htold, Option.none_or, hlast] at hlast'
    exact Int.le_of_eq (Option.some.inj hlast')
  | some now =>
    rw [htold, Option.some_or] at hlast'
    obtain rfl := Option.some.inj hlast'
    exact htimely.later hlast htold

/-- A time that ended an attempt was told: had it been refused, the attempt
would still be under way. -/
theorem At.told_of_ended {r r' : Request} {deadline now : Instant} {o : Outcome}
    (h : c.At id (.underway r deadline)) (hsound : c.Sound)
    (hafter : (c.perform (.event (.timeout now))).2.At id (.ended r' o)) :
    (c.step (.event (.timeout now))).told? = some now := by
  rcases hsound.perform_cases (.event (.timeout now)) with ⟨err, he⟩ | ⟨-, hok, -⟩ | hpoll | hpoll
  · have htracked := hafter.tracked
    rw [he, h.tracked] at htracked
    cases htracked
  · simp only [Step.told?, step, hok]
  · cases hpoll
  · cases hpoll

/-- A step that sends nothing keeps the distance, if it leaves the attempt
where it is, or ends it as late as is said. -/
theorem Paced.quiet {sent : List Transmit} (h : Paced t id sent c s) (hsound : c.Sound)
    {call : Call} {calls : List Call} (htimely : Timely c (call :: calls)) {s' : Stage}
    (hstage : (c.perform call).2.At id s')
    (hrequest : ∀ r, s'.request? = some r → s.request? = some r)
    (hwaits : ∀ r deadline, s' = .underway r deadline → s = s')
    (hlate : ∀ r x last, s' = .ended r (.failed .transactionTimedOut) → sent.getLast? = some x →
      (c.perform call).2.lastNow? = some last →
      x.now + (t.effectiveTimeout * attemptNumber r.attempt : Nat) < last + t.effectiveRate) :
    Paced t id sent (c.perform call).2 s' where
  timeout := (settings_perform c call).timeout.trans h.timeout
  rate := (settings_perform c call).rate.trans h.rate
  stage := hstage
  spaced := h.spaced
  latest := by
    intro r hr
    obtain ⟨front, x, last, hsent, hlength, hlast, hle⟩ := h.latest r (hrequest r hr)
    obtain ⟨last', hlast'⟩ : ∃ last', (c.perform call).2.lastNow? = some last' := by
      rw [hsound.lastNow?_perform, hlast]
      cases (c.step call).told? with
      | none => exact ⟨last, rfl⟩
      | some now => exact ⟨now, rfl⟩
    have hlater := hsound.le_lastNow htimely hlast hlast'
    exact ⟨front, x, last', hsent, hlength, hlast', Int.le_trans hle hlater⟩
  waits r deadline x hs hx := h.waits r deadline x ((hwaits r deadline hs).trans hs) hx
  late := hlate

/-- An attempt that ran out of time stays late, since what was told last only grows. -/
theorem Paced.stays {sent : List Transmit} (h : Paced t id sent c s) (hsound : c.Sound)
    {call : Call} {calls : List Call} (htimely : Timely c (call :: calls))
    (hstage : (c.perform call).2.At id s) : Paced t id sent (c.perform call).2 s := by
  refine h.quiet hsound htimely hstage (fun _ hr => hr) (fun _ _ _ => rfl) ?_
  intro r x last' hs hx hlast'
  subst hs
  obtain ⟨-, -, last, -, -, hlast, -⟩ := h.latest r rfl
  have hlater := hsound.le_lastNow htimely hlast hlast'
  exact Int.lt_of_lt_of_le (h.late r x last rfl hx hlast) (Int.add_le_add_right hlater _)

/-- An attempt runs out of time when a time is told that is late enough. -/
theorem Paced.ended {sent : List Transmit} {r : Request} {deadline : Instant}
    (h : Paced t id sent c (.underway r deadline)) (hsound : c.Sound) {call : Call}
    {calls : List Call} (htimely : Timely c (call :: calls)) {o : Outcome}
    (hends : Ends c id deadline call o) (hstage : (c.perform call).2.At id (.ended r o)) :
    Paced t id sent (c.perform call).2 (.ended r o) := by
  refine h.quiet hsound htimely hstage (fun _ hr => hr) nofun ?_
  intro r' x last hs hx hlast
  cases hs
  cases hends with
  | @timeout now hlt =>
    rw [hsound.lastNow?_perform, h.stage.told_of_ended hsound hstage] at hlast
    obtain rfl := Option.some.inj hlast
    -- the deadline lies before the horizon, and that at most the resolution ahead
    have hhorizon := c.horizon_le now
    rw [h.rate] at hhorizon
    rw [← h.waits r deadline x rfl hx]
    exact Int.lt_of_lt_of_le hlt hhorizon

/-- A request that is sent once more keeps its distance from the time before. -/
theorem Paced.repeated {sent : List Transmit} {r : Request} {deadline : Instant}
    (h : Paced t id sent c (.ended r (.failed .transactionTimedOut))) (hsound : c.Sound)
    (hlt : r.attempt < c.maxAttempts) (hd : c.nextDeadline? r = some deadline)
    (hstage : (c.perform .pollEvent).2.At id
      (.underway { r with attempt := r.attempt + 1 } deadline)) :
    Paced t id (sent ++ [⟨c.lastNow?.getD r.start, c.route, r.raw⟩]) (c.perform .pollEvent).2
      (.underway { r with attempt := r.attempt + 1 } deadline) := by
  obtain ⟨front, x, last, rfl, hlength, hlast, hle⟩ := h.latest r rfl
  have hsettings := settings_perform c .pollEvent
  have hnow : c.lastNow?.getD r.start = last := by rw [hlast, Option.getD_some]
  have hkept : (c.perform .pollEvent).2.lastNow? = some last :=
    (hsound.lastNow?_perform .pollEvent).trans hlast
  -- the datagram before is that of the attempt that ran out of time
  have hlate := h.late r x last rfl List.getLast?_concat hlast
  rw [attemptNumber_of_lt hlt, ← hlength, Nat.mul_comm] at hlate
  push_cast at hlate
  rw [nextDeadline?, hnow] at hd
  rw [hnow]
  constructor
  case timeout => exact hsettings.timeout.trans h.timeout
  case rate => exact hsettings.rate.trans h.rate
  case stage => exact hstage
  case spaced => exact h.spaced.concat hle (Int.sub_right_lt_of_lt_add hlate)
  case latest =>
    intro r' hr'
    obtain rfl := Option.some.inj hr'
    refine ⟨front ++ [x], _, last, rfl, ?_, hkept, Int.le_refl _⟩
    rw [List.length_append, List.length_singleton, hlength]
    exact (toNat_succ_of_lt hlt).symm
  case waits =>
    intro r' deadline' x' hs hx'
    cases hs
    rw [List.getLast?_concat] at hx'
    obtain rfl := Option.some.inj hx'
    exact deadline?_eq h.timeout hd
  case late =>
    intro r' x' last' hs
    cases hs

/-- **One step** keeps the distance, if it does not accept another request. -/
theorem Paced.after {sent : List Transmit} (h : Paced t id sent c s) (hsound : c.Sound)
    {call : Call} {calls : List Call} (htimely : Timely c (call :: calls))
    (hother : (c.step call).accepts id = false) :
    ∃ s', Paced t id (sent ++ sentFor id (c.sendings call)) (c.perform call).2 s' := by
  obtain ⟨s', hprogress, hstage⟩ :=
    h.stage.perform call fun haccept => absurd (haccept.symm.trans hother) nofun
  refine ⟨s', ?_⟩
  generalize sentFor id (c.sendings call) = more at hprogress ⊢
  generalize Step.reported? id (c.step call) = o? at hprogress
  cases hprogress with
  | stays _ =>
    rw [List.append_nil]
    exact h.stays hsound htimely hstage
  | begins haccept _ => exact absurd (haccept.symm.trans hother) nofun
  | ends hends =>
    rw [List.append_nil]
    exact h.ended hsound htimely hends hstage
  | repeats hlt hd => exact h.repeated hsound hlt hd hstage
  | reports _ =>
    -- without a request there is nothing left to say
    rw [List.append_nil]
    refine h.quiet hsound htimely hstage nofun nofun ?_
    intro r x last hs
    cases hs

/-- **Every run** keeps the distance, until another request is accepted. -/
theorem Paced.run {sent : List Transmit} (h : Paced t id sent c s) (hsound : c.Sound)
    {calls : List Call} (htimely : Timely c calls)
    (hother : ∀ p ∈ c.steps calls, p.accepts id = false) :
    Spaced t (sent ++ sentFor id (ledger (c.steps calls))) := by
  induction calls generalizing c s sent with
  | nil =>
    rw [steps, ledger_nil, sentFor_nil, List.append_nil]
    exact h.spaced
  | cons call calls ih =>
    obtain ⟨s', h'⟩ := h.after hsound htimely (hother _ List.mem_cons_self)
    rw [steps, ledger_cons, sentFor_append, ← List.append_assoc]
    exact ih h' (hsound.perform call) (htimely.tail hsound)
      fun p hp => hother p (List.mem_cons_of_mem _ hp)

/-! ### Requests in a run -/

/-- Steps that are cut apart are those of calls that are cut apart. -/
theorem exists_of_steps_eq {calls : List Call} {front back : List Step}
    (h : c.steps calls = front ++ back) :
    ∃ calls₁ calls₂, calls = calls₁ ++ calls₂ ∧ front = c.steps calls₁ ∧
      back = (c.run calls₁).2.steps calls₂ := by
  induction front generalizing c calls with
  | nil => exact ⟨[], calls, rfl, rfl, h.symm⟩
  | cons p front ih =>
    cases calls with
    | nil => cases h
    | cons call calls =>
      obtain ⟨rfl, hrest⟩ := List.cons.inj h
      obtain ⟨calls₁, calls₂, rfl, rfl, rfl⟩ := ih hrest
      exact ⟨call :: calls₁, calls₂, rfl, rfl, rfl⟩

/-- Where no request waits there is none. -/
theorem At.eq_absent (h : c.At id s) (hnone : c.isWaiting id = false) : s = .absent := by
  have hfind := h.find?_eq
  have hmissing : c.requests.find? (·.id = id) = none := by
    rw [List.find?_eq_none]
    simpa [isWaiting] using hnone
  rw [hmissing] at hfind
  cases s with
  | absent => rfl
  | _ => cases hfind

/-- As long as no request is overwritten, the tables are those of a stage. -/
theorem At.run (h : c.At id s) {calls : List Call}
    (hfresh : ∀ p ∈ c.steps calls, p.overwrites id = false) :
    ∃ s', (c.run calls).2.At id s' := by
  induction calls generalizing c s with
  | nil => exact ⟨s, h⟩
  | cons call calls ih =>
    have hfirst : (c.step call).overwrites id = false := hfresh _ List.mem_cons_self
    have hnew : (c.step call).accepts id = true → s = .absent := by
      intro haccept
      rw [Step.overwrites, haccept, Bool.true_and] at hfirst
      exact h.eq_absent hfirst
    obtain ⟨s', -, hstage⟩ := h.perform call hnew
    exact ih hstage fun p hp => hfresh p (List.mem_cons_of_mem _ hp)

/-- **The datagrams of a request keep their distance**, whatever other requests,
answers and polls come in between.  It is enough that the times that are told do
not go back, and that no request is accepted with the id while one waits under
it.  Every datagram that is taken or still queued stands in the ledger; those of
a request are the ones of its id from the step that accepts it until another one
is accepted. -/
theorem sent_spaced (t : Tuning) (route : Route) (calls : List Call) (id : TransactionId)
    (hclock : (told ((ofTuning t route).steps calls)).Pairwise (· ≤ ·))
    (hfresh : ∀ p ∈ (ofTuning t route).steps calls, p.overwrites id = false) :
    let c := ofTuning t route
    (c.steps calls).flatMap Step.taken ++ (c.run calls).2.outbound
      = (ledger (c.steps calls)).map Sending.transmit ∧
    ∀ earlier p during later, c.steps calls = earlier ++ p :: (during ++ later) →
      p.accepts id = true → (∀ q ∈ during, q.accepts id = false) →
      Spaced t (sentFor id (ledger (p :: during))) := by
  intro c
  refine ⟨taken_append_outbound c calls, ?_⟩
  intro earlier p during later hsplit haccept hother
  have htimely : Timely c calls := hclock
  -- the run up to the request, the call that is accepted, and what follows it
  obtain ⟨front, rest, rfl, rfl, hrest⟩ := exists_of_steps_eq hsplit
  have hsound := sound_run t route front
  have hbefore := htimely.drop (sound_ofTuning t route)
  cases rest with
  | nil => cases hrest
  | cons call rest =>
    obtain ⟨rfl, hduring⟩ := List.cons.inj hrest
    obtain ⟨middle, last, rfl, rfl, -⟩ := exists_of_steps_eq hduring.symm
    have hquiet : ∀ q ∈ c.steps front, q.overwrites id = false := fun q hq =>
      hfresh q (hsplit ▸ List.mem_append_left _ hq)
    obtain ⟨s, hstage⟩ := (at_ofTuning t route id).run hquiet
    -- nothing waits under the id when the request is accepted
    have habsent : s = .absent := by
      have hnew := hfresh _ (hsplit ▸ List.mem_append_right _ List.mem_cons_self)
      rw [Step.overwrites, haccept, Bool.true_and] at hnew
      exact hstage.eq_absent hnew
    subst habsent
    have hsettings := settings_run c front
    obtain ⟨s', hpaced⟩ := hstage.begun (t := t) hsettings.timeout hsettings.rate hsound haccept
    have hafter := (hbefore.tail hsound).take
    rw [ledger_cons, sentFor_append]
    exact hpaced.run (hsound.perform call) hafter hother

/-- A request is sent three times, while another one that is written in between
moves the clock and runs out of time itself. -/
theorem sent_spaced_thrice :
    let request := Message.new ⟨⟨1⟩, .request⟩ .zero
    let other := Message.new ⟨⟨1⟩, .request⟩ ⟨List.replicate 12 1, rfl⟩
    let here : Endpoint := ⟨⟨.v4, [10, 0, 0, 2], rfl⟩, 40000⟩
    let there : Endpoint := ⟨⟨.v4, [198, 51, 100, 1], rfl⟩, 3478⟩
    let t : Tuning := { maxAttempts := 2 }
    let c := ofTuning t ⟨here, there, .udp⟩
    let during := [.event (.timeout 296000000), .write other 310000000, .pollEvent, .pollEvent,
      .event (.timeout 611000000), .pollEvent, .pollEvent, .event (.timeout 906000000), .pollEvent,
      .pollEvent]
    let calls := .write request 0 :: during
    (told (c.steps calls)).Pairwise (· ≤ ·) ∧
      (∀ p ∈ c.steps calls, p.overwrites .zero = false) ∧
      (sentFor .zero (ledger (c.steps calls))).map Transmit.now = [0, 310000000, 906000000] ∧
      Spaced t (sentFor .zero (ledger (c.steps calls))) := by
  intro request other here there t c during calls
  have hclock : (told (c.steps calls)).Pairwise (· ≤ ·) := by decide +kernel
  have hfresh : ∀ p ∈ c.steps calls, p.overwrites .zero = false := by decide +kernel
  obtain ⟨-, hspaced⟩ := sent_spaced t ⟨here, there, .udp⟩ calls .zero hclock hfresh
  refine ⟨hclock, hfresh, by decide +kernel, ?_⟩
  refine hspaced [] (c.step (.write request 0)) _ [] ?_ (by decide +kernel) (by decide +kernel)
  rw [List.append_nil]
  rfl

end Client

end Stun
