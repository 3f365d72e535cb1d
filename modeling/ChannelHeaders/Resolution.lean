import ChannelHeaders.Message
import ChannelHeaders.Payload.Fields
import ChannelHeaders.Specification.Basic
import ChannelHeaders.Template

/-!
# Resolving header templates

The headers of a message are the templates of its topic, each evaluated against the
fields of the payload, in the order of their declaration.  A topic without templates has
no headers, and a warning is reported for it.

**Results.**
* `resolveHeaders_of_none`: a topic without templates only gives the warning.
* `names_evaluateAll`: evaluation keeps the names and their order.
-/

namespace ChannelHeaders

open Payload

/-- The headers resolved for one message, in the order of their declaration. -/
structure ResolvedHeaders where
  /-- The names and values. -/
  pairs : List (String × String)
deriving DecidableEq, Inhabited

namespace ResolvedHeaders

/-- No headers. -/
def empty : ResolvedHeaders :=
  ⟨[]⟩

/-- The value of a header. -/
def get?
    (r : ResolvedHeaders)
    (name : String) :
    Option String :=
  Pairs.lookup name r.pairs

/-- The number of headers. -/
def size (r : ResolvedHeaders) : Nat :=
  r.pairs.length

/-- Whether there are no headers. -/
def isEmpty (r : ResolvedHeaders) : Bool :=
  r.pairs.isEmpty

/-- The headers as a transport takes them. -/
def toHeaders (r : ResolvedHeaders) : Headers :=
  .ofList r.pairs

end ResolvedHeaders

/-- The value of a template of a given class. -/
def Template.evaluate
    (s : Surroundings)
    (fields : Fields) :
    Template → StateM Progress String
  | literal text => return text
  | unknown text => return text
  | identifier => return (← drawIdentifier s).text
  | timestamp => return toString (← ChannelHeaders.timestamp s)
  | payloadField name => return ((fields.get? name).map Value.headerText).getD ""

/-- The value of a template. -/
def resolveTemplate
    (s : Surroundings)
    (fields : Fields)
    (text : String) :
    StateM Progress String :=
  (Template.parse text).evaluate s fields

/-- The values of named templates, one after another. -/
def evaluateAll
    (s : Surroundings)
    (fields : Fields) :
    List (String × String) → StateM Progress (List (String × String))
  | [] => return []
  | (name, text) :: ts => do
      let value ← resolveTemplate s fields text
      return (name, value) :: (← evaluateAll s fields ts)

/-- The headers of a message on a topic. -/
def resolveHeaders
    (s : Surroundings)
    (spec : Specification)
    (topic : String)
    (fields : Fields) :
    StateM Progress ResolvedHeaders :=
  match spec.templates? topic with
  | none => do
      report (.noTemplates topic)
      return .empty
  | some templates => return ⟨← evaluateAll s fields templates.entries⟩

/-- Adds the headers of a message on a topic to headers that a transport has, replacing those of
the same name. -/
def inject
    (s : Surroundings)
    (spec : Specification)
    (topic : String)
    (fields : Fields)
    (headers : Headers) :
    StateM Progress Headers :=
  return headers.insertAll (← resolveHeaders s spec topic fields).pairs

/-- The field that a template takes from the payload. -/
def referencedField? (text : String) : Option String :=
  match Template.parse text with
  | .payloadField name => some name
  | _ => none

/-- Whether the schema of a topic's message declares a payload field. -/
def Specification.declares
    (spec : Specification)
    (topic name : String) :
    Bool :=
  match (spec.messageSchema? topic).bind MessageSchema.payload with
  | none => false
  | some payload => payload.properties.contains name

/-- The payload fields that a topic's templates take and its message schema does not declare, once
for each template. -/
def Specification.undeclaredFields
    (spec : Specification)
    (topic : String) :
    List String :=
  match (spec.channel? topic).bind Channel.headers with
  | none => []
  | some templates =>
      (templates.entries.filterMap fun t => referencedField? t.2).filter
        (!spec.declares topic ·)

/-- A topic without templates has no headers, and a warning is reported. -/
theorem resolveHeaders_of_none
    {spec : Specification}
    {topic : String}
    (h : spec.templates? topic = none)
    (s : Surroundings)
    (fields : Fields)
    (p : Progress) :
    resolveHeaders s spec topic fields p =
      (.empty, { p with events := p.events ++ [.noTemplates topic] }) := by
  rw [resolveHeaders, h]
  rfl

/-- Evaluation keeps the names of the templates and their order. -/
theorem names_evaluateAll
    (s : Surroundings)
    (fields : Fields)
    (ts : List (String × String)) :
    ∀ p, Pairs.names (evaluateAll s fields ts p).1 = Pairs.names ts := by
  induction ts with
  | nil => exact fun _ => rfl
  | cons t ts ih => exact fun p => congrArg (t.1 :: ·) (ih _)

end ChannelHeaders
