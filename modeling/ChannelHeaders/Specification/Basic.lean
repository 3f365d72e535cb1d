import ChannelHeaders.Collection.OrderedMap
import ChannelHeaders.Collection.SortedMap
import ChannelHeaders.Text.Affix

/-!
# Channel specifications

A specification says which topics there are, which header templates each topic carries,
and which messages are published on it.  Every part may be absent, and an absent part
differs from an empty one.

**Results.**
* `messagePointer?_eq_some_iff`: only a message that is defined elsewhere has a pointer.
* `messageSchema?_inline`, `messageSchema?_reference`: the schema of a topic's message is the
  one written in place, or the component that a pointer names.
-/

namespace ChannelHeaders

/-- A declared field of a payload. -/
structure Property where
  declaredType : Option String
deriving DecidableEq, Inhabited

/-- The declared shape of a payload.  It is descriptive only. -/
structure PayloadSchema where
  declaredType : Option String
  properties : SortedMap Property
deriving DecidableEq, Inhabited

/-- The declared shape of a message. -/
structure MessageSchema where
  payload : Option PayloadSchema
deriving DecidableEq, Inhabited

/-- The message that a channel publishes. -/
inductive PublishedMessage where
  /-- A pointer to a message that is defined elsewhere. -/
  | reference (pointer : String)
  /-- A message that is written in place. -/
  | inline (schema : MessageSchema)
deriving DecidableEq, Inhabited

/-- What a channel publishes. -/
structure Publication where
  message : Option PublishedMessage
deriving DecidableEq, Inhabited

/-- The header templates of a channel by header name, in the order of their declaration. -/
abbrev HeaderTemplates := OrderedMap String

/-- What a specification says about a topic. -/
structure Channel where
  /-- What is published. -/
  publication : Option Publication
  headers : Option HeaderTemplates
deriving DecidableEq, Inhabited

/-- Information about the document as a whole. -/
structure Info where
  title : Option String
  /-- The version of what is described. -/
  version : Option String
  description : Option String
deriving DecidableEq, Inhabited

/-- A channel specification. -/
structure Specification where
  /-- The version of the document format. -/
  asyncapi : Option String
  /-- Information about the document. -/
  info : Option Info
  /-- The channels by topic. -/
  channels : SortedMap Channel
  /-- The messages that pointers may name. -/
  messages : SortedMap MessageSchema
deriving DecidableEq, Inhabited

namespace Specification

/-- The specification that says nothing. -/
def empty : Specification :=
  ⟨none, none, .empty, .empty⟩

/-- The channel of a topic. -/
def channel?
    (s : Specification)
    (topic : String) :
    Option Channel :=
  s.channels.get? topic

/-- The topics, in byte order. -/
def topics (s : Specification) : List String :=
  s.channels.names

/-- What pointers to messages start with. -/
def pointerStem : String :=
  "#/components/messages/"

/-- The message that a topic publishes. -/
def publishedMessage?
    (s : Specification)
    (topic : String) :
    Option PublishedMessage :=
  ((s.channel? topic).bind Channel.publication).bind Publication.message

/-- The pointer to a topic's message, when the message is not written in place. -/
def messagePointer?
    (s : Specification)
    (topic : String) :
    Option String :=
  match s.publishedMessage? topic with
  | some (.reference pointer) => some pointer
  | _ => none

/-- The pointer of a topic is the reference that its published message is. -/
theorem messagePointer?_eq_some_iff
    {s : Specification}
    {topic pointer : String} :
    s.messagePointer? topic = some pointer ↔
      s.publishedMessage? topic = some (.reference pointer) := by
  rw [messagePointer?]
  cases s.publishedMessage? topic with
  | none => simp
  | some message => cases message <;> simp

/-- The message that a pointer names. -/
def component?
    (s : Specification)
    (pointer : String) :
    Option MessageSchema :=
  (Text.after? pointerStem pointer).bind s.messages.get?

/-- The schema of the message that a topic publishes. -/
def messageSchema?
    (s : Specification)
    (topic : String) :
    Option MessageSchema :=
  match s.publishedMessage? topic with
  | none => none
  | some (.inline schema) => some schema
  | some (.reference pointer) => s.component? pointer

/-- The header templates of a topic, when there are any. -/
def templates?
    (s : Specification)
    (topic : String) :
    Option HeaderTemplates :=
  ((s.channel? topic).bind Channel.headers).filter (!·.isEmpty)

theorem messageSchema?_inline
    {s : Specification}
    {topic : String}
    {schema : MessageSchema}
    (h : s.publishedMessage? topic = some (.inline schema)) :
    s.messageSchema? topic = some schema := by
  simp [messageSchema?, h]

/-- A pointer is followed to the component that it names. -/
theorem messageSchema?_reference
    {s : Specification}
    {topic pointer : String}
    (h : s.publishedMessage? topic = some (.reference pointer)) :
    s.messageSchema? topic = s.component? pointer := by
  simp [messageSchema?, h]

end Specification
end ChannelHeaders
