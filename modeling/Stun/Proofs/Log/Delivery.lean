/-
Stun/Proofs/Log/Delivery.lean

Every record that is accepted becomes a line of the file, once and in order.

What a history of calls ought to log is told without any sink: a roll keeps
what each handle speaks for, and `Roll.accepted` lists the records that the
calls make under it.  A family is such a roll with one threshold and a sink
(`ofRoll`), and an action changes the roll and hands on at most one record
(`perform_ofRoll`), or it is a turn of the writer.

What a file has been handed is always its lines, the record in the writer's
hand, and the queue, in this order (`Sink.Delivers`, one case for each state of
the writer).  The writer ends only when no handle is left, so that no record
comes after it: this is why dropping what is sent to a writer that has ended
loses nothing.

Main result: the file is what it held at first and a line for each of the
first records, of all of them once the handles are gone and the writer has
ended, and a sink in memory captures the same records (`delivered_in_order`).
-/
import Stun.Log.Logger

namespace Stun.Log

/-! ### Transcripts -/

/-- The lines of records, each with its end. -/
def transcript (records : List Record) : String :=
  String.join (records.map fun r => r.line ++ "\n")

theorem transcript_concat (records : List Record) (r : Record) :
    transcript (records ++ [r]) = transcript records ++ r.line ++ "\n" := by
  simp [transcript, String.append_assoc]

/-- A record with its time left out. -/
def Record.unstamped (r : Record) : Record := { r with stamp := "" }

namespace Family

/-! ### What a history ought to log -/

/-- What the handles of a family speak for, in the order they were made: a
component or none, and nothing at all where a handle was given up. -/
abbrev Roll := List (Option (Option String))

namespace Roll

/-- One handle, which speaks for no component. -/
def root : Roll := [some none]

/-- What the handle with a number speaks for. -/
def tag? (roll : Roll) (n : Nat) : Option (Option String) := (roll[n]?).join

/-- A handle is left. -/
def isLive (roll : Roll) : Bool := roll.any Option.isSome

/-- The roll after one more action: a clone speaks for what its original does,
and a handle for a component speaks for that. -/
def next (roll : Roll) : Action → Roll
  | .clone n =>
    match roll.tag? n with
    | some component? => roll ++ [some component?]
    | none => roll
  | .component n name =>
    match roll.tag? n with
    | some _ => roll ++ [some (some name)]
    | none => roll
  | .drop n => roll.set n none
  | .log .. => roll
  | .advance => roll

/-- The roll after a history. -/
def after (roll : Roll) (actions : List Action) : Roll := actions.foldl next roll

/-- The record that an action makes: an entry at least as severe as the
threshold, under what the handle speaks for. -/
def record? (roll : Roll) (threshold : Level) : Action → Option Record
  | .log n stamp e =>
    match roll.tag? n with
    | some component? =>
      if threshold.rank ≤ e.level.rank then some ⟨stamp, e.level, component?, e.text⟩ else none
    | none => none
  | _ => none

/-- The records that a history makes, in the order of its calls. -/
def accepted (roll : Roll) (threshold : Level) : List Action → List Record
  | [] => []
  | a :: rest => (roll.record? threshold a).toList ++ (roll.next a).accepted threshold rest

variable {roll : Roll} {threshold : Level}

theorem isLive_iff : roll.isLive = true ↔ ∃ n component?, roll.tag? n = some component? := by
  simp only [isLive, List.any_eq_true, List.mem_iff_getElem?, tag?, Option.join_eq_some_iff]
  constructor
  · rintro ⟨tag, ⟨n, hn⟩, htag⟩
    obtain ⟨component?, rfl⟩ := Option.isSome_iff_exists.mp htag
    exact ⟨n, component?, hn⟩
  · rintro ⟨n, component?, hn⟩
    exact ⟨some component?, ⟨n, hn⟩, rfl⟩

theorem isLive_of_tag? {n : Nat} {component? : Option String}
    (h : roll.tag? n = some component?) : roll.isLive = true :=
  isLive_iff.mpr ⟨n, component?, h⟩

/-- Only a handle that is left makes a record. -/
theorem isLive_of_record? {a : Action} {r : Record} (h : roll.record? threshold a = some r) :
    roll.isLive = true := by
  cases a with
  | log n stamp e =>
    rcases htag : roll.tag? n with - | component?
    · simp [record?, htag] at h
    · exact isLive_of_tag? htag
  | clone | component | drop | advance => simp [record?] at h

/-- Handles are made from handles, so where none is left none comes back. -/
theorem isLive_of_next {a : Action} (h : (roll.next a).isLive = true) : roll.isLive = true := by
  cases a with
  | clone n =>
    rcases htag : roll.tag? n with - | component?
    · simpa only [next, htag] using h
    · exact isLive_of_tag? htag
  | component n name =>
    rcases htag : roll.tag? n with - | component?
    · simpa only [next, htag] using h
    · exact isLive_of_tag? htag
  | drop n =>
    obtain ⟨tag, hmem, htag⟩ := List.any_eq_true.mp h
    rcases List.mem_or_eq_of_mem_set hmem with hmem | rfl
    · exact List.any_eq_true.mpr ⟨tag, hmem, htag⟩
    · cases htag
  | log | advance => exact h

end Roll

/-! ### Calls without their times -/

/-- An action as a call, without the time at which it is made; a turn of the
writer is none. -/
def Action.call? : Action → Option Action
  | .log n _ e => some (.log n "" e)
  | .advance => none
  | a => some a

/-- What a history ought to log depends on its calls alone, the times aside. -/
theorem Roll.accepted_calls (roll : Roll) (threshold : Level) (actions : List Action) :
    roll.accepted threshold (actions.filterMap Action.call?)
      = (roll.accepted threshold actions).map Record.unstamped := by
  induction actions generalizing roll with
  | nil => rfl
  | cons a rest ih =>
    cases a with
    | log n stamp e =>
      have hrecord : roll.record? threshold (.log n "" e)
          = (roll.record? threshold (.log n stamp e)).map Record.unstamped := by
        simp only [record?]
        split
        · split <;> rfl
        · rfl
      simp only [List.filterMap_cons, Action.call?, accepted, next, hrecord, ih, List.map_append]
      cases roll.record? threshold (.log n stamp e) <;> rfl
    | clone | component | drop | advance =>
      simp only [List.filterMap_cons, Action.call?, accepted, record?, next, ih,
        Option.toList_none, List.nil_append]

/-! ### Families as rolls -/

/-- The family of a roll: handles with one threshold, on a sink. -/
def ofRoll (threshold : Level) (roll : Roll) (sink : Sink) : Family :=
  ⟨roll.map (Option.map fun component? => ⟨threshold, component?⟩), sink⟩

theorem handle?_ofRoll (threshold : Level) (roll : Roll) (s : Sink) (n : Nat) :
    (ofRoll threshold roll s).handle? n
      = (roll.tag? n).map fun component? => ⟨threshold, component?⟩ := by
  rw [handle?, ofRoll, Roll.tag?, List.getElem?_map]
  rcases roll[n]? with - | - | component? <;> rfl

theorem isLive_ofRoll (threshold : Level) (roll : Roll) (s : Sink) :
    (ofRoll threshold roll s).isLive = roll.isLive := by
  simp only [isLive, ofRoll, List.any_map, Function.comp_def, Option.isSome_map, Roll.isLive]

/-- **One call**: the roll goes on, and the sink is handed the record that the
call makes. -/
theorem perform_ofRoll (threshold : Level) (roll : Roll) (s : Sink) {a : Action}
    (ha : a ≠ .advance) :
    (ofRoll threshold roll s).perform a
      = ofRoll threshold (roll.next a) ((roll.record? threshold a).elim s s.write) := by
  cases a with
  | clone n =>
    simp only [perform, clone, handle?_ofRoll, Roll.next, Roll.record?]
    rcases roll.tag? n with - | component? <;> simp [insert, ofRoll]
  | component n name =>
    simp only [perform, component, handle?_ofRoll, Roll.next, Roll.record?]
    rcases roll.tag? n with - | component? <;> simp [insert, ofRoll, Logger.forComponent]
  | drop n => simp [perform, drop, ofRoll, Roll.next, Roll.record?, List.map_set]
  | log n stamp e =>
    simp only [perform, log, handle?_ofRoll, Roll.next, Roll.record?]
    rcases roll.tag? n with - | component?
    · rfl
    · by_cases hlevel : threshold.rank ≤ e.level.rank <;>
        simp [hlevel, ofRoll, Logger.accept, Logger.isEnabled, Level.atLeast]
  | advance => exact absurd rfl ha

/-- **One turn of the writer** leaves the roll as it is. -/
theorem perform_advance_ofRoll (threshold : Level) (roll : Roll) (s : Sink) :
    (ofRoll threshold roll s).perform .advance = ofRoll threshold roll (s.advance roll.isLive) := by
  rw [perform, advance, isLive_ofRoll]
  rfl

theorem run_cons (f : Family) (a : Action) (rest : List Action) :
    f.run (a :: rest) = (f.perform a).run rest := rfl

/-! ### Sinks in memory -/

/-- **Runs in memory**: each record is captured as it is accepted. -/
theorem run_memory (threshold : Level) (roll : Roll) (lines : List String)
    (actions : List Action) :
    (ofRoll threshold roll (.memory lines)).run actions
      = ofRoll threshold (roll.after actions)
          (.memory (lines ++ (roll.accepted threshold actions).map Record.line)) := by
  induction actions generalizing roll lines with
  | nil => simp [run, Roll.after, Roll.accepted]
  | cons a rest ih =>
    rw [run_cons]
    by_cases ha : a = .advance
    · subst ha
      rw [perform_advance_ofRoll]
      exact ih roll lines
    · rw [perform_ofRoll threshold roll _ ha]
      rcases hrecord : roll.record? threshold a with - | r
      · simpa [Roll.after, Roll.accepted, hrecord] using ih (roll.next a) lines
      · simpa [Roll.after, Roll.accepted, hrecord, Sink.write]
          using ih (roll.next a) (lines ++ [r.line])

end Family

/-! ### Files -/

/-- The record in the hand of a writer. -/
def Writer.held : Writer → List Record
  | .holding r => [r]
  | .idle | .ended => []

/-- What has become of the records handed to a file that began with `content`,
where `live` tells whether a handle is left. -/
inductive Sink.Delivers (content : String) (live : Bool) : List Record → Sink → Prop
  /-- The first are lines, and the others wait. -/
  | idle (written queue : List Record) :
      Delivers content live (written ++ queue) (.file queue (content ++ transcript written) .idle)
  /-- One more is on its way to the file. -/
  | holding (written : List Record) (r : Record) (queue : List Record) :
      Delivers content live (written ++ r :: queue)
        (.file queue (content ++ transcript written) (.holding r))
  /-- All are lines, and none will come. -/
  | ended (written : List Record) (hlive : live = false) :
      Delivers content live written (.file [] (content ++ transcript written) .ended)

namespace Sink

variable {s : Sink} {content : String} {live : Bool} {sent : List Record}

/-- A file to which nothing was handed yet. -/
theorem delivers_opened (content : String) (live : Bool) :
    Delivers content live [] (.file [] content) := by
  have h : Delivers content live [] (.file [] (content ++ transcript []) .idle) := .idle [] []
  rwa [transcript, List.map_nil, String.join_nil, String.append_empty] at h

/-- While a handle is left, what is sent is put at the end. -/
theorem Delivers.write (h : Delivers content true sent s) (r : Record) :
    Delivers content true (sent ++ [r]) (s.write r) := by
  cases h with
  | idle written queue =>
    rw [List.append_assoc]
    exact .idle written (queue ++ [r])
  | holding written r' queue =>
    rw [List.append_assoc, List.cons_append]
    exact .holding written r' (queue ++ [r])
  | ended _ hlive => cases hlive

/-- A turn of the writer loses nothing and keeps the order. -/
theorem Delivers.advance (h : Delivers content live sent s) :
    Delivers content live sent (s.advance live) := by
  cases h with
  | idle written queue =>
    cases queue with
    | nil =>
      cases live with
      | true => exact .idle written []
      | false =>
        rw [List.append_nil]
        exact .ended written rfl
    | cons r queue => exact .holding written r queue
  | holding written r queue =>
    -- the record in the hand goes over from what waits to the lines
    have h : Delivers content live (written ++ [r] ++ queue)
        (.file queue (content ++ transcript (written ++ [r])) .idle) := .idle (written ++ [r]) queue
    rwa [transcript_concat, List.append_assoc, List.singleton_append, ← String.append_assoc,
      ← String.append_assoc] at h
  | ended _ hlive => exact .ended sent hlive

/-- Giving a handle up takes nothing back. -/
theorem Delivers.of_live {live' : Bool} (h : Delivers content live sent s)
    (hlive : live' = true → live = true) : Delivers content live' sent s := by
  cases h with
  | idle written queue => exact .idle written queue
  | holding written r queue => exact .holding written r queue
  | ended _ hended =>
    refine .ended sent (Bool.eq_false_iff.mpr fun h => ?_)
    rw [hended] at hlive
    exact Bool.false_ne_true (hlive h)

/-- The file holds the lines of the first records. -/
theorem Delivers.split (h : Delivers content live sent s) :
    ∃ written queue writer, s = .file queue (content ++ transcript written) writer ∧
      sent = written ++ (writer.held ++ queue) := by
  cases h with
  | idle written queue => exact ⟨written, queue, .idle, rfl, rfl⟩
  | holding written r queue => exact ⟨written, queue, .holding r, rfl, rfl⟩
  | ended => exact ⟨sent, [], .ended, rfl, (List.append_nil sent).symm⟩

/-- A writer that has ended leaves the lines of all records. -/
theorem Delivers.of_ended {queue : List Record} {held : String}
    (h : Delivers content live sent (.file queue held .ended)) :
    live = false ∧ held = content ++ transcript sent := by
  cases h with
  | ended _ hlive => exact ⟨hlive, rfl⟩

/-- Where no handle is left each turn is one of those that remain. -/
theorem turns_advance (s : Sink) : (s.advance false).turns = s.turns - 1 := by
  cases s with
  | memory | console => rfl
  | file queue content writer =>
    cases writer with
    | idle =>
      cases queue with
      | nil => rfl
      | cons r queue =>
        simp only [Sink.advance, turns, List.length_cons]
        omega
    | holding | ended => simp [Sink.advance, turns]

end Sink

namespace Family

variable {threshold : Level} {roll : Roll} {s : Sink} {content : String} {sent : List Record}

/-! ### Runs on a file -/

/-- **One action** hands on the record that it makes, behind those before it. -/
theorem delivers_perform (threshold : Level) (h : s.Delivers content roll.isLive sent)
    (a : Action) :
    ∃ s' : Sink, (ofRoll threshold roll s).perform a = ofRoll threshold (roll.next a) s' ∧
      s'.Delivers content (roll.next a).isLive (sent ++ (roll.record? threshold a).toList) := by
  by_cases ha : a = .advance
  · subst ha
    refine ⟨_, perform_advance_ofRoll threshold roll s, ?_⟩
    have hnone : roll.record? threshold .advance = none := rfl
    rw [hnone, Option.toList_none, List.append_nil]
    exact h.advance
  · refine ⟨_, perform_ofRoll threshold roll s ha, ?_⟩
    rcases hrecord : roll.record? threshold a with - | r
    · rw [Option.toList_none, List.append_nil]
      exact h.of_live Roll.isLive_of_next
    · -- the handle that makes the record is left, so the writer has not ended
      rw [Roll.isLive_of_record? hrecord] at h
      exact (h.write r).of_live fun _ => rfl

/-- **Runs on a file** hand on all records that are accepted. -/
theorem delivers_run (threshold : Level) (h : s.Delivers content roll.isLive sent)
    (actions : List Action) :
    ∃ s' : Sink, (ofRoll threshold roll s).run actions
        = ofRoll threshold (roll.after actions) s' ∧
      s'.Delivers content (roll.after actions).isLive
        (sent ++ roll.accepted threshold actions) := by
  induction actions generalizing roll s sent with
  | nil => exact ⟨s, rfl, by rwa [Roll.accepted, List.append_nil]⟩
  | cons a rest ih =>
    obtain ⟨s₁, hs₁, h₁⟩ := delivers_perform threshold h a
    obtain ⟨s₂, hs₂, h₂⟩ := ih h₁
    rw [run_cons, hs₁, Roll.accepted, ← List.append_assoc]
    exact ⟨s₂, hs₂, h₂⟩

/-- Without handles the writer ends in as many turns as it can take, whatever
else is tried in between. -/
theorem sink_run_of_turns (h : s.Delivers content false sent) (hlive : roll.isLive = false)
    {later : List Action} (hturns : s.turns ≤ later.count .advance) :
    ((ofRoll threshold roll s).run later).sink
      = .file [] (content ++ transcript sent) .ended := by
  induction later generalizing roll s with
  | nil =>
    cases h with
    | idle | holding => simp [Sink.turns] at hturns
    | ended => rfl
  | cons a rest ih =>
    rw [run_cons]
    by_cases ha : a = .advance
    · subst ha
      rw [perform_advance_ofRoll, hlive]
      rw [List.count_cons_self] at hturns
      refine ih h.advance hlive ?_
      rw [Sink.turns_advance]
      omega
    · -- a call finds no handle, so nothing is handed on and none is made
      rw [List.count_cons_of_ne ha] at hturns
      have hnone : roll.record? threshold a = none := by
        rcases hrecord : roll.record? threshold a with - | r
        · rfl
        · simp [Roll.isLive_of_record? hrecord] at hlive
      have hnext : (roll.next a).isLive = false :=
        Bool.eq_false_iff.mpr fun h => by simp [Roll.isLive_of_next h] at hlive
      rw [perform_ofRoll threshold roll s ha, hnone]
      exact ih h hnext hturns

/-! ### Delivery -/

/-- **Records are neither lost, nor doubled, nor reordered.**  Whatever is done
with the handles of a family on a file, and however that interleaves with the
turns of the writer: every handle has the threshold of the first, and speaks for
what the roll says.  The file is what it held at first and a line for each of
the first records that were accepted; the others wait, in their order.  If the
writer has ended, no handle is left and every record has its line.  And it does
end: once all handles are given up, after the turns that remain to it, whatever
else is tried.  Under the same calls, at whatever times, a family in memory
captures the lines of the same records in the same order, with their times. -/
theorem delivered_in_order (level : Level) (content : String) (actions : List Action) :
    let f := (ofSink level (.file [] content)).run actions
    let sent := Roll.root.accepted level actions
    (∀ n, f.handle? n
      = ((Roll.root.after actions).tag? n).map fun component? => ⟨level, component?⟩) ∧
    (∃ written queue writer, f.sink = .file queue (content ++ transcript written) writer ∧
      sent = written ++ (writer.held ++ queue)) ∧
    (∀ queue held, f.sink = .file queue held .ended →
      (∀ n, f.handle? n = none) ∧ held = content ++ transcript sent) ∧
    ((∀ n, f.handle? n = none) → ∀ later : List Action, f.sink.turns ≤ later.count .advance →
      (f.run later).sink = .file [] (content ++ transcript sent) .ended) ∧
    ∀ others : List Action, others.filterMap Action.call? = actions.filterMap Action.call? →
      let records := Roll.root.accepted level others
      ((ofSink level (.memory [])).run others).sink = .memory (records.map Record.line) ∧
        records.map Record.unstamped = sent.map Record.unstamped := by
  intro f sent
  obtain ⟨s, hf, hs⟩ := delivers_run level (Sink.delivers_opened content Roll.root.isLive) actions
  have hf : f = ofRoll level (Roll.root.after actions) s := hf
  have hs : s.Delivers content (Roll.root.after actions).isLive sent := hs
  have hgone : (∀ n, f.handle? n = none) ↔ (Roll.root.after actions).isLive = false := by
    simp only [hf, handle?_ofRoll, Option.map_eq_none_iff, ← Bool.not_eq_true, Roll.isLive_iff]
    simp [Option.eq_none_iff_forall_not_mem]
  refine ⟨fun n => by rw [hf, handle?_ofRoll], ?_, ?_, ?_, ?_⟩
  · rw [hf]
    exact hs.split
  · intro queue held hended
    have hsink : s = .file queue held .ended := by rw [← hended, hf]; rfl
    rw [hgone]
    exact (hsink ▸ hs).of_ended
  · intro hnone later hturns
    rw [hgone] at hnone
    rw [hnone] at hs
    rw [hf] at hturns ⊢
    exact sink_run_of_turns hs hnone hturns
  · intro others hcalls records
    refine ⟨?_, ?_⟩
    · have hrun := run_memory level Roll.root [] others
      exact congrArg Family.sink hrun
    · rw [← Roll.accepted_calls, ← Roll.accepted_calls, hcalls]

/-- The handles are given up while one record is in the hand of the writer and
one waits; what is tried afterwards is not accepted. -/
theorem delivered_in_order_given_up :
    let past (t : String) : List Action := [.component 0 "STUN", .log 1 t ⟨.info, "begun"⟩,
      .log 0 t ⟨.debug, "hidden"⟩, .clone 1, .drop 1, .log 2 t ⟨.warn, "late"⟩, .advance, .drop 0,
      .drop 2]
    let later : List Action := [.advance, .log 2 "3" ⟨.error, "gone"⟩, .clone 0, .advance,
      .advance, .advance]
    let f := (ofSink .info (.file [] "old;")).run (past "1")
    (∀ n, f.handle? n = none) ∧ f.sink.turns ≤ later.count .advance ∧
      f.sink = .file [⟨"1", .warn, some "STUN", "late"⟩] "old;"
        (.holding ⟨"1", .info, some "STUN", "begun"⟩) ∧
      (f.run later).sink
        = .file [] "old;[1] INFO [STUN]: begun\n[1] WARN [STUN]: late\n" .ended ∧
      (∀ n, (f.run later).handle? n = none) ∧
      (past "2").filterMap Action.call? = (past "1").filterMap Action.call? ∧
      ((ofSink .info (.memory [])).run (past "2")).sink
        = .memory ["[2] INFO [STUN]: begun", "[2] WARN [STUN]: late"] := by
  intro past later f
  obtain ⟨hhandles, -, -, hends, hmemory⟩ := delivered_in_order .info "old;" (past "1")
  have hgone : ∀ n, f.handle? n = none := by
    intro n
    rw [hhandles n]
    rcases n with - | - | - | n <;> rfl
  have hturns : f.sink.turns ≤ later.count .advance := by decide
  have hcalls : (past "2").filterMap Action.call? = (past "1").filterMap Action.call? := by decide
  obtain ⟨-, -, hended, -⟩ := delivered_in_order .info "old;" (past "1" ++ later)
  have hlast := hends hgone later hturns
  have hrun : f.run later = (ofSink .info (.file [] "old;")).run (past "1" ++ later) := rfl
  refine ⟨hgone, hturns, by decide, ?_, ?_, hcalls, ?_⟩
  · rw [hlast]
    decide
  · rw [hrun] at hlast ⊢
    exact (hended _ _ hlast).1
  · rw [(hmemory (past "2") hcalls).1]
    decide

end Family

end Stun.Log
