import ChannelHeaders.Resolution

/-!
# Publishing payloads

A payload is published as the data of a message whose headers are resolved from the
payload's fields.  The transport is a publisher: it takes a batch of messages for a topic
and answers with a stream of results, one for each message in order.

**Algorithm.**  The payload is decoded, the headers are resolved, the message is made and
handed to the publisher as a batch of one, and the first result of the stream is the
outcome.  A payload that cannot be decoded reaches neither the headers nor the publisher.

**Results.**
* `publish_of_decode_error`: what happens to a payload that cannot be decoded.
-/

namespace ChannelHeaders

open Payload

/-- A transport with states `σ`, which answers with identifiers `ι` and errors `ε`. -/
structure Publisher (σ ι ε : Type) where
  /-- The streams of results that are open. -/
  Stream : Type
  /-- Takes a batch of messages for a topic and opens a stream. -/
  send : Topic → List Message → StateM σ Stream
  /-- Takes the next result from a stream, if there is one, and returns the stream behind it. -/
  next : Stream → StateM σ (Option (Except ε ι) × Stream)

namespace Publisher

variable {σ ι ε : Type}

/-- The first result for a batch. -/
def firstResult
    (p : Publisher σ ι ε)
    (topic : Topic)
    (batch : List Message) :
    StateM σ (Option (Except ε ι)) := do
  let stream ← p.send topic batch
  return (← p.next stream).1

/-- The publisher that keeps a list of what it was asked to send and answers as a function
says. -/
def answering (answer : Topic → List Message → List (Except ε ι)) :
    Publisher (List (Topic × List Message)) ι ε where
  Stream := List (Except ε ι)
  send topic batch := fun sent => (answer topic batch, sent ++ [(topic, batch)])
  next results := fun sent => ((results.head?, results.tail), sent)

end Publisher

/-- Why a payload was not published. -/
inductive PublishError (ε : Type) where
  /-- The payload has no fields. -/
  | decode (cause : DecodeError)
  | publish (cause : ε)
  /-- The publisher gave no result. -/
  | noResponse
deriving DecidableEq

/-- The message of a publishing error. -/
def PublishError.message {ε : Type} : PublishError ε → String
  | decode _ => "failed to decode message payload"
  | publish _ => "failed to publish a message"
  | noResponse => "publisher returned no result for the message"

/-- A payload that was published. -/
structure Published (ι : Type) where
  /-- The identifier that the publisher gave. -/
  id : ι
  /-- The headers of the message. -/
  headers : ResolvedHeaders
deriving DecidableEq

section Producer

variable {σ ι ε : Type}

/-- The message that carries a payload to a topic. -/
def makeMessage
    (s : Surroundings)
    (spec : Specification)
    (topic : String)
    (headers : ResolvedHeaders)
    (payload : String) :
    StateM Progress Message := do
  let id ← drawIdentifier s
  let time ← readClock s
  return ⟨id, time, spec.messagePointer? topic, headers.toHeaders, payload.toUTF8⟩

/-- What is reported of an attempt to publish. -/
def reportOutcome
    (topic : String)
    (message : Message)
    (headers : ResolvedHeaders) :
    Option (Except ε ι) → StateM Progress (Except (PublishError ε) (Published ι))
  | none => return .error .noResponse
  | some (.error e) => return .error (.publish e)
  | some (.ok id) => do
      report (.published topic message.id headers.size)
      return .ok ⟨id, headers⟩

/-- Publishes a payload to a topic. -/
def publish
    (s : Surroundings)
    (spec : Specification)
    (publisher : Publisher σ ι ε)
    (topic payload : String)
    (state : Progress × σ) :
    Except (PublishError ε) (Published ι) × Progress × σ :=
  match Fields.decode payload.toUTF8 with
  | .error e => (.error (.decode e), state)
  | .ok fields =>
      let (headers, p) := resolveHeaders s spec topic fields state.1
      let (message, p) := makeMessage s spec topic headers payload p
      let (result, t) := publisher.firstResult ⟨topic⟩ [message] state.2
      let (outcome, p) := reportOutcome topic message headers result p
      (outcome, p, t)

/-- A payload that cannot be decoded leaves everything as it was. -/
theorem publish_of_decode_error
    {payload : String}
    {e : DecodeError}
    (h : Fields.decode payload.toUTF8 = .error e)
    (s : Surroundings)
    (spec : Specification)
    (publisher : Publisher σ ι ε)
    (topic : String)
    (state : Progress × σ) :
    publish s spec publisher topic payload state = (.error (.decode e), state) := by
  rw [publish, h]

end Producer

end ChannelHeaders
