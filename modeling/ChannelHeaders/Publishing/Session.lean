import ChannelHeaders.Publishing.Store

/-!
# Sessions with a shared store

A store is used through handles, all of which refer to the same store.  A handle opens
streams and publishes payloads, and more handles can be made from it.  A stream stays open
until it is dropped, whatever else is done in between.

A call of `publish` takes at most one result, from a stream that nobody else holds.  Hence
it counts as one action.

**Results.**
* `step_share`, `step_send`, `step_take_cons`, `step_take_nil`, `step_drop`,
  `step_publish_error`: what an action does.
* `run_append`: a session goes on where it stopped.
-/

namespace ChannelHeaders

open Payload

/-- The state of a session. -/
structure Session where
  store : Store
  progress : Progress
  /-- The number of handles. -/
  handles : Nat
  /-- Every stream that was opened, or nothing where it was dropped. -/
  streams : List (Option Store.Stream)

namespace Session

/-- What can be done in a session.  Handles and streams are numbered as they were made. -/
inductive Action where
  /-- Makes another handle from a handle. -/
  | share (handle : Nat)
  /-- Opens a stream for a batch. -/
  | send (handle : Nat) (topic : Topic) (batch : List Message)
  /-- Takes the next result of a stream. -/
  | take (stream : Nat)
  | drop (stream : Nat)
  /-- Publishes a payload. -/
  | publish (handle : Nat) (spec : Specification) (topic payload : String)

inductive Answer where
  | done
  /-- There is no such handle, or the stream is not open. -/
  | refused
  | result (id : Option Identifier)
  | outcome (o : Except (PublishError Empty) (Published Identifier))

/-- An action with its answer. -/
structure Entry where
  action : Action
  answer : Answer

/-- One handle on an empty store. -/
def start : Session :=
  ⟨.empty, .start, 1, []⟩

/-- A stream that is open. -/
def stream?
    (w : Session)
    (i : Nat) :
    Option Store.Stream :=
  w.streams[i]?.join

/-- Does one action. -/
def step (s : Surroundings) : Action → StateM Session Answer
  | .share handle => fun w =>
      if handle < w.handles then (.done, { w with handles := w.handles + 1 }) else (.refused, w)
  | .send handle topic batch => fun w =>
      if handle < w.handles then
        let (stream, store) := Store.send topic batch w.store
        (.done, { w with store, streams := w.streams ++ [some stream] })
      else (.refused, w)
  | .take i => fun w =>
      match w.stream? i with
      | none => (.refused, w)
      | some stream =>
          let ((id, rest), store) := Store.next stream w.store
          (.result id, { w with store, streams := w.streams.set i (some rest) })
  | .drop i => fun w =>
      match w.stream? i with
      | none => (.refused, w)
      | some _ => (.done, { w with streams := w.streams.set i none })
  | .publish handle spec topic payload => fun w =>
      if handle < w.handles then
        let (outcome, progress, store) :=
          ChannelHeaders.publish s spec Store.publisher topic payload (w.progress, w.store)
        (.outcome outcome, { w with store, progress })
      else (.refused, w)

/-- Does actions one after the other. -/
def run (s : Surroundings) : List Action → StateM Session (List Entry)
  | [] => return []
  | action :: actions => do
      let answer ← step s action
      let entries ← run s actions
      return ⟨action, answer⟩ :: entries

section Actions

variable {s : Surroundings} {w : Session}

/-- A stream that can be used was opened and not dropped. -/
theorem stream?_eq_some_iff
    {i : Nat}
    {stream : Store.Stream} :
    w.stream? i = some stream ↔ w.streams[i]? = some (some stream) := by
  rw [stream?, Option.join_eq_some_iff]

theorem step_share
    {handle : Nat}
    (h : handle < w.handles) :
    step s (.share handle) w = (.done, { w with handles := w.handles + 1 }) :=
  if_pos h

/-- Sending opens a stream and keeps nothing. -/
theorem step_send
    {handle : Nat}
    (h : handle < w.handles)
    (topic : Topic)
    (batch : List Message) :
    step s (.send handle topic batch) w =
      (.done, { w with streams := w.streams ++ [some ⟨topic, batch⟩] }) :=
  if_pos h

/-- Taking a result keeps the message, and the stream goes on behind it. -/
theorem step_take_cons
    {i : Nat}
    {topic : Topic}
    {m : Message}
    {ms : List Message}
    (h : w.stream? i = some ⟨topic, m :: ms⟩) :
    step s (.take i) w =
      (.result (some m.id),
        { w with
          store := w.store.keep topic m
          streams := w.streams.set i (some ⟨topic, ms⟩) }) := by
  simp only [step, h, Store.next_cons]

/-- Taking from a stream at its end changes nothing. -/
theorem step_take_nil
    {i : Nat}
    {topic : Topic}
    (h : w.stream? i = some ⟨topic, []⟩) :
    step s (.take i) w = (.result none, w) := by
  have hset : w.streams.set i (some ⟨topic, []⟩) = w.streams := by
    obtain ⟨hlt, hi⟩ := List.getElem?_eq_some_iff.mp (stream?_eq_some_iff.mp h)
    rw [← hi, List.set_getElem_self]
  simp only [step, h, Store.next_nil, hset]

theorem step_drop
    {i : Nat}
    {stream : Store.Stream}
    (h : w.stream? i = some stream) :
    step s (.drop i) w = (.done, { w with streams := w.streams.set i none }) := by
  simp only [step, h]

/-- A payload that cannot be decoded leaves the session as it was. -/
theorem step_publish_error
    {handle : Nat}
    (h : handle < w.handles)
    {payload : String}
    {e : DecodeError}
    (hdecode : Fields.decode payload.toUTF8 = .error e)
    (spec : Specification)
    (topic : String) :
    step s (.publish handle spec topic payload) w = (.outcome (.error (.decode e)), w) := by
  simp only [step, if_pos h, publish_of_decode_error hdecode]

end Actions

section Runs

theorem run_nil
    (s : Surroundings)
    (w : Session) :
    run s [] w = ([], w) :=
  rfl

theorem run_cons
    (s : Surroundings)
    (action : Action)
    (actions : List Action)
    (w : Session) :
    run s (action :: actions) w =
      (⟨action, (step s action w).1⟩ :: (run s actions (step s action w).2).1,
        (run s actions (step s action w).2).2) :=
  rfl

/-- Actions in a row start from where the earlier ones lead. -/
theorem run_append
    (s : Surroundings)
    (actions more : List Action)
    (w : Session) :
    run s (actions ++ more) w =
      ((run s actions w).1 ++ (run s more (run s actions w).2).1,
        (run s more (run s actions w).2).2) := by
  induction actions generalizing w with
  | nil =>
      rfl
  | cons action actions ih =>
      rw [List.cons_append, run_cons, ih, run_cons]
      rfl

end Runs

end Session
end ChannelHeaders
