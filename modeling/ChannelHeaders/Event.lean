import ChannelHeaders.Identifier

/-!
# Events

What the library reports while it works: a warning when a topic has no header templates,
and a note for every message that was published.
-/

namespace ChannelHeaders

/-- How urgent an event is. -/
inductive Level where
  | warn
  | debug
deriving DecidableEq

/-- The word for a level. -/
def Level.text : Level → String
  | warn => "WARN"
  | debug => "DEBUG"

/-- A reported event. -/
inductive Event where
  /-- There are no header templates for a topic. -/
  | noTemplates (topic : String)
  /-- A message with so many headers was published. -/
  | published (topic : String) (message : Identifier) (headers : Nat)
deriving DecidableEq

namespace Event

/-- The level of an event. -/
def level : Event → Level
  | noTemplates _ => .warn
  | published _ _ _ => .debug

/-- The name of the field that holds the words of an event. -/
def wordsField : String :=
  "message"

/-- The fields of an event, by name. -/
def fields : Event → List (String × String)
  | noTemplates topic =>
      [(wordsField, "no header configuration found for topic"), ("topic", topic)]
  | published topic message headers =>
      [("headers", toString headers), (wordsField, "published message"),
        ("message_id", message.text), ("topic", topic)]

end Event
end ChannelHeaders
