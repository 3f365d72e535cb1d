import Mathlib
import ChannelHeaders.Proofs.OperationEffects

/-!
# The event log of a run

The library reports at two places: when it resolves the headers of a topic that has none,
and when a publisher accepted a message.  Publishing passes through both, and may stop
before either.

The lines that an operation leaves are written down by how it was called and what it
answered, without the progress at which it was performed.  A run leaves the lines of its
operations, in their order, and nothing else.

**Results.**
* `adds_perform`: what one operation reports.
* `adds_run`: what a run reports.
* `log_of_run`: the whole log of a run, line by line.
-/

namespace ChannelHeaders

open Payload

namespace Operation

variable {σ : Type}

section Lines

/-- An event as it is written to a log: its level, and its fields by name. -/
abbrev Line := Level × List (String × String)

def line (e : Event) : Line :=
  (e.level, e.fields)

/-- The line for a topic without headers. -/
def warning (topic : String) : Line :=
  (.warn, [("message", "no header configuration found for topic"), ("topic", topic)])

/-- The line for a message that was published. -/
def note
    (topic : String)
    (headers : Nat)
    (m : Message) :
    Line :=
  (.debug, [("headers", toString headers), ("message", "published message"),
    ("message_id", m.id.text), ("topic", topic)])

/-- One line when a topic lacks headers, and none otherwise. -/
def warnings
    (spec : Specification)
    (topic : String) :
    List Line :=
  if spec.LacksHeaders topic then [warning topic] else []

/-- The lines that an operation leaves. -/
def Entry.lines : Entry σ → List Line
  | ⟨.resolveHeaders spec topic _, _⟩ => warnings spec topic
  | ⟨.inject spec topic _ _, _⟩ => warnings spec topic
  | ⟨.publish _ spec topic payload, .outcome outcome sent⟩ =>
      match Fields.decode payload.toUTF8, outcome with
      | .error _, _ => []
      | .ok _, .error _ => warnings spec topic
      | .ok _, .ok published =>
          warnings spec topic ++
            (sent.flatMap Prod.snd).map (note topic published.headers.size)
  | _ => []

end Lines

section Reports

variable (s : Surroundings) (p : Progress) (t : σ)

/-- The events in `log` are written behind those of `before`. -/
def Adds
    (before after : List Event)
    (log : List Line) :
    Prop :=
  ∃ events, after = before ++ events ∧ events.map line = log

theorem Adds.refl (events : List Event) : Adds events events [] :=
  ⟨[], (List.append_nil _).symm, rfl⟩

theorem Adds.trans
    {before between after : List Event}
    {log log' : List Line}
    (h : Adds before between log)
    (h' : Adds between after log') :
    Adds before after (log ++ log') := by
  obtain ⟨events, rfl, rfl⟩ := h
  obtain ⟨events', rfl, rfl⟩ := h'
  exact ⟨events ++ events', List.append_assoc before events events', List.map_append⟩

theorem adds_resolveHeaders
    (spec : Specification)
    (topic : String)
    (fields : Fields) :
    Adds p.events (ChannelHeaders.resolveHeaders s spec topic fields p).2.events
      (warnings spec topic) := by
  rw [resolveHeaders_eq]
  refine ⟨_, rfl, ?_⟩
  rw [warnings]
  split_ifs
  · rfl
  · rfl

/-- An accepted message is reported with its own identifier and the number of its headers. -/
theorem map_line_reportsOf
    {ι ε : Type}
    (topic : String)
    (m : Message)
    (r : ResolvedHeaders)
    (result : Option (Except ε ι)) :
    (reportsOf topic m r result).map line =
      match outcomeOf r result with
      | .error _ => []
      | .ok published => [note topic published.headers.size m] := by
  rcases result with _ | _ | _ <;> rfl

/-- The lines of a message that was sent: a warning for its topic, and a note if it was accepted. -/
theorem adds_sent
    {ι ε : Type}
    {payload : String}
    {fields : Fields}
    (h : Fields.decode payload.toUTF8 = .ok fields)
    (publisher : Publisher σ ι ε)
    (spec : Specification)
    (topic : String)
    (m : Message)
    (result : Option (Except ε ι)) :
    let resolution := ChannelHeaders.resolveHeaders s spec topic fields p
    Adds p.events (resolution.2.events ++ reportsOf topic m resolution.1 result)
      (Entry.lines ⟨.publish publisher spec topic payload,
        .outcome (outcomeOf resolution.1 result) [(⟨topic⟩, [m])]⟩) := by
  intro resolution
  have hlines := (adds_resolveHeaders s p spec topic fields).trans
    ⟨_, rfl, map_line_reportsOf topic m resolution.1 result⟩
  cases houtcome : outcomeOf resolution.1 result with
  | error e =>
      simp only [houtcome, List.append_nil] at hlines
      simpa only [Entry.lines, h] using hlines
  | ok published =>
      simp only [houtcome] at hlines
      simp only [Entry.lines, h]
      exact hlines

/-- An operation leaves its lines. -/
theorem adds_perform (operation : Operation σ) :
    Adds p.events (operation.perform s (p, t)).2.1.events
      (Entry.lines ⟨operation, (operation.perform s (p, t)).1⟩) := by
  cases operation with
  | resolveTemplate text fields =>
      have hevents :
          (perform s (.resolveTemplate text fields) (p, t)).2.1.events = p.events :=
        events_resolveTemplate s fields text p
      rw [hevents]
      exact Adds.refl p.events
  | resolveHeaders spec topic fields => exact adds_resolveHeaders s p spec topic fields
  | inject spec topic fields headers => exact adds_resolveHeaders s p spec topic fields
  | undeclaredFields spec topic => exact Adds.refl p.events
  | topics spec => exact Adds.refl p.events
  | messageSchema spec topic => exact Adds.refl p.events
  | publish publisher spec topic payload =>
      cases hdecode : Fields.decode payload.toUTF8 with
      | error e =>
          rw [perform_publish_error s spec topic p t hdecode]
          simpa only [Entry.lines, hdecode] using Adds.refl p.events
      | ok fields =>
          obtain ⟨m, -, -, hperform⟩ := perform_publish_ok s spec topic p t hdecode publisher
          rw [hperform]
          exact adds_sent s p hdecode publisher spec topic m _

/-- A run leaves the lines of its operations, one after another. -/
theorem adds_run (operations : List (Operation σ)) :
    ∀ p t, Adds p.events (run s operations (p, t)).2.1.events
      ((run s operations (p, t)).1.flatMap Entry.lines) := by
  induction operations with
  | nil => exact fun p _ => Adds.refl p.events
  | cons operation operations ih =>
      intro p t
      exact (adds_perform s p t operation).trans (ih _ _)

end Reports

/-- The log of a run is determined by its operations and their replies.  A payload is sent as one
message or not at all, so that at most one message is noted for it. -/
theorem log_of_run
    (s : Surroundings)
    (operations : List (Operation σ))
    (p : Progress)
    (t : σ) :
    let trace := (run s operations (p, t)).1
    let p' := (run s operations (p, t)).2.1
    trace.map Entry.operation = operations ∧
    (∀ entry ∈ trace, entry.SendsOnce) ∧
    ∃ events,
      p'.events = p.events ++ events ∧
      events.map line = trace.flatMap Entry.lines := by
  refine ⟨?_, ?_, adds_run s operations p t⟩
  · exact map_operation_run s operations (p, t)
  · exact run_sendsOnce s operations (p, t)

/-- A payload that is refused, one that gets no answer, and one that is accepted. -/
theorem log_of_run_orders :
    let templates : HeaderTemplates := .ofList [("x-id", "7")]
    let spec : Specification :=
      ⟨none, none, .ofList [("bills", ⟨none, some .empty⟩), ("orders", ⟨none, some templates⟩)],
        .empty⟩
    let silent : Publisher (List (Topic × List Message)) Nat String := .answering fun _ _ => []
    let accepting : Publisher (List (Topic × List Message)) Nat String :=
      .answering fun _ _ => [.ok 9]
    let operations : List (Operation (List (Topic × List Message))) :=
      [.publish silent spec "bills" "[", .publish silent spec "bills" "{}",
        .inject spec "orders" .empty .empty, .publish accepting spec "orders" "{}"]
    ∀ s : Surroundings,
      let trace := (run s operations (.start, [])).1
      let p' := (run s operations (.start, [])).2.1
      (∀ entry ∈ trace, entry.SendsOnce) ∧
      p'.events.map line =
        [(.warn, [("message", "no header configuration found for topic"), ("topic", "bills")]),
          (.debug, [("headers", "1"), ("message", "published message"),
            ("message_id", (s.identifier 1).text), ("topic", "orders")])] := by
  intro templates spec silent accepting operations s trace p'
  obtain ⟨-, honce, events, hevents, hlines⟩ := log_of_run s operations .start []
  refine ⟨honce, (congrArg (List.map line) hevents).trans (hlines.trans ?_)⟩
  simp only [operations, run, perform, ChannelHeaders.publish, decode_openBracket,
    decode_emptyObject, List.flatMap_cons, List.flatMap_nil, Entry.lines]
  rfl

end Operation

end ChannelHeaders
