import ChannelHeaders.Collection.SortedMap
import ChannelHeaders.Surroundings

/-!
# Messages and topics

What is handed to a transport: a message with its headers, addressed to a topic.  Topics
are names; they are compared exactly and ordered by their bytes.

**Results.**
* `Message.eq_iff`: equality of messages, part by part.
-/

namespace ChannelHeaders

/-- The name of a topic. -/
structure Topic where
  name : String
deriving DecidableEq

namespace Topic

/-- The topic without a name. -/
def unnamed : Topic :=
  ⟨""⟩

instance : Inhabited Topic :=
  ⟨unnamed⟩

/-- How a topic is written. -/
def text (t : Topic) : String :=
  t.name

/-- How two topics are ordered. -/
def compare (s t : Topic) : Ordering :=
  Text.compare s.name t.name

end Topic

/-- The headers of a message, in byte order of their names. -/
abbrev Headers := SortedMap String

/-- A message that is ready for a transport. -/
structure Message where
  id : Identifier
  /-- When the message was made. -/
  time : Instant
  /-- The pointer to the declared schema, when the channel has one. -/
  schema : Option String
  headers : Headers
  data : ByteArray

namespace Message

/-- Messages are equal when their parts are, the payloads byte by byte. -/
theorem eq_iff (m n : Message) :
    m = n ↔ m.id = n.id ∧ m.time = n.time ∧ m.schema = n.schema ∧ m.headers = n.headers ∧
      m.data.data = n.data.data := by
  constructor
  · rintro rfl
    exact ⟨rfl, rfl, rfl, rfl, rfl⟩
  · intro h
    obtain ⟨id, time, schema, headers, ⟨data⟩⟩ := m
    obtain ⟨id', time', schema', headers', ⟨data'⟩⟩ := n
    obtain ⟨rfl, rfl, rfl, rfl, h⟩ := h
    cases h
    rfl

instance : DecidableEq Message := fun m n =>
  decidable_of_iff _ (eq_iff m n).symm

end Message

end ChannelHeaders
