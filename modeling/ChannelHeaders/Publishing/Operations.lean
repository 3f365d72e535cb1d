import ChannelHeaders.Publishing.Basic

/-!
# Operations one after another

A program uses the library by calling its operations, with any specifications, payloads and
publishers, in any order.  The operations share the surroundings and the progress.  The
publishers share a state, and each has identifiers and errors of its own.

An entry of a trace is what can be seen of one operation: how it was called, what it
answered, and for a payload which batches the publisher was asked to send.

**Results.**
* `firstResult_recording`: a publisher that is listened to gives the same results.
* `run_cons`: operations are performed one after another.
-/

namespace ChannelHeaders

open Payload

/-- The publisher that also keeps a list of the batches that it was asked to send. -/
def Publisher.recording
    {σ ι ε : Type}
    (publisher : Publisher σ ι ε) :
    Publisher (σ × List (Topic × List Message)) ι ε where
  Stream := publisher.Stream
  send topic batch := fun (t, sent) =>
    let (stream, t) := publisher.send topic batch t
    (stream, t, sent ++ [(topic, batch)])
  next stream := fun (t, sent) =>
    let (result, t) := publisher.next stream t
    (result, t, sent)

/-- The ways to call the library, with publishers that share the states `σ`. -/
inductive Operation (σ : Type) where
  | resolveTemplate (text : String) (fields : Fields)
  | resolveHeaders (spec : Specification) (topic : String) (fields : Fields)
  | inject (spec : Specification) (topic : String) (fields : Fields) (headers : Headers)
  | undeclaredFields (spec : Specification) (topic : String)
  | topics (spec : Specification)
  | messageSchema (spec : Specification) (topic : String)
  | publish {ι ε : Type} (publisher : Publisher σ ι ε) (spec : Specification)
      (topic payload : String)

namespace Operation

/-- What an operation answers. -/
inductive Reply where
  | text (value : String)
  | resolved (headers : ResolvedHeaders)
  | injected (headers : Headers)
  | names (names : List String)
  | schema (schema : Option MessageSchema)
  /-- The outcome of publishing, and the batches that the publisher was asked to send. -/
  | outcome {ι ε : Type} (outcome : Except (PublishError ε) (Published ι))
      (sent : List (Topic × List Message))

/-- An operation with its reply. -/
structure Entry (σ : Type) where
  operation : Operation σ
  reply : Reply

variable {σ : Type}

/-- Performs an operation. -/
def perform (s : Surroundings) : Operation σ → Progress × σ → Reply × Progress × σ
  | .resolveTemplate text fields, (p, t) =>
      let (value, p) := ChannelHeaders.resolveTemplate s fields text p
      (.text value, p, t)
  | .resolveHeaders spec topic fields, (p, t) =>
      let (headers, p) := ChannelHeaders.resolveHeaders s spec topic fields p
      (.resolved headers, p, t)
  | .inject spec topic fields headers, (p, t) =>
      let (headers, p) := ChannelHeaders.inject s spec topic fields headers p
      (.injected headers, p, t)
  | .undeclaredFields spec topic, state => (.names (spec.undeclaredFields topic), state)
  | .topics spec, state => (.names spec.topics, state)
  | .messageSchema spec topic, state => (.schema (spec.messageSchema? topic), state)
  | .publish publisher spec topic payload, (p, t) =>
      let (outcome, p, t, sent) :=
        ChannelHeaders.publish s spec publisher.recording topic payload (p, t, [])
      (.outcome outcome sent, p, t)

/-- Performs operations one after another. -/
def run (s : Surroundings) : List (Operation σ) → Progress × σ → List (Entry σ) × Progress × σ
  | [], state => ([], state)
  | operation :: operations, state =>
      let (reply, state) := operation.perform s state
      let (trace, state) := run s operations state
      (⟨operation, reply⟩ :: trace, state)

theorem run_cons
    (s : Surroundings)
    (operation : Operation σ)
    (operations : List (Operation σ))
    (state : Progress × σ) :
    run s (operation :: operations) state =
      (⟨operation, (operation.perform s state).1⟩ ::
          (run s operations (operation.perform s state).2).1,
        (run s operations (operation.perform s state).2).2) :=
  rfl

end Operation

/-- Recording changes no result, and notes the batch that was sent. -/
theorem Publisher.firstResult_recording
    {σ ι ε : Type}
    (publisher : Publisher σ ι ε)
    (topic : Topic)
    (batch : List Message)
    (t : σ)
    (sent : List (Topic × List Message)) :
    publisher.recording.firstResult topic batch (t, sent) =
      ((publisher.firstResult topic batch t).1, (publisher.firstResult topic batch t).2,
        sent ++ [(topic, batch)]) :=
  rfl

end ChannelHeaders
