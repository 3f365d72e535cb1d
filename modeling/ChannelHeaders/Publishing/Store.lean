import ChannelHeaders.Publishing.Basic

/-!
# A publisher that keeps its messages

For tests: messages are kept in the order in which their results are taken.  Sending a
batch keeps nothing yet; each result that is taken from the stream keeps one message and
is its identifier.

**Results.**
* `next_cons`, `next_nil`: what taking a result does.
-/

namespace ChannelHeaders

/-- The messages kept, each with its topic, in the order in which they were taken. -/
structure Store where
  messages : List (Topic × Message)
deriving DecidableEq

/-- That an expected message was not published. -/
structure NotPublished where
  topic : Topic
  id : Identifier
deriving DecidableEq

/-- The words for a message that was not published. -/
def NotPublished.message (e : NotPublished) : String :=
  "Message with uuid " ++ e.id.text ++ " was not published to topic " ++ e.topic.text

namespace Store

/-- Nothing is kept. -/
def empty : Store :=
  ⟨[]⟩

/-- The number of messages kept. -/
def size (s : Store) : Nat :=
  s.messages.length

/-- Whether nothing is kept. -/
def isEmpty (s : Store) : Bool :=
  s.messages.isEmpty

/-- Keeps one more message. -/
def keep
    (topic : Topic)
    (m : Message)
    (s : Store) :
    Store :=
  ⟨s.messages ++ [(topic, m)]⟩

/-- Checks that a message with this identifier was published to this topic. -/
def expectPublished
    (s : Store)
    (topic : Topic)
    (id : Identifier) :
    Except NotPublished Unit :=
  if s.messages.any fun (t, m) => t = topic && m.id = id then .ok () else .error ⟨topic, id⟩

/-- The messages of a batch whose results are still to be taken. -/
structure Stream where
  /-- The topic of the batch. -/
  topic : Topic
  pending : List Message
deriving DecidableEq

/-- Opens a stream for a batch. -/
def send
    (topic : Topic)
    (batch : List Message) :
    StateM Store Stream :=
  return ⟨topic, batch⟩

/-- Takes the next result of a stream. -/
def next (stream : Stream) : StateM Store (Option Identifier × Stream) := fun s =>
  match stream.pending with
  | [] => ((none, stream), s)
  | m :: ms => ((some m.id, ⟨stream.topic, ms⟩), s.keep stream.topic m)

/-- The store as a publisher, which never fails. -/
def publisher : Publisher Store Identifier Empty where
  Stream := Stream
  send := send
  next stream := do
    let (result, stream) ← next stream
    return (result.map .ok, stream)

/-- Taking a result keeps its message. -/
theorem next_cons
    (topic : Topic)
    (m : Message)
    (ms : List Message)
    (s : Store) :
    next ⟨topic, m :: ms⟩ s = ((some m.id, ⟨topic, ms⟩), s.keep topic m) :=
  rfl

/-- At its end a stream gives no result and keeps nothing. -/
theorem next_nil
    (topic : Topic)
    (s : Store) :
    next ⟨topic, []⟩ s = ((none, ⟨topic, []⟩), s) :=
  rfl

end Store
end ChannelHeaders
