import ChannelHeaders.Document.Tree
import ChannelHeaders.Specification.Basic
import ChannelHeaders.Specification.Shape

/-!
# Specifications from document trees

**Input.**  A document tree.

**Rules.**  Every node is looked at behind its tags.  A section may be absent, null or a
mapping, and fields that are not known are passed over.  Free names are strings, numbers
or booleans and count by their text; where the text repeats, the later entry replaces the
earlier one, except that a header keeps its first place.  A text that is only for
information is dropped when it is no scalar.

The sections are read in a fixed order, and entries in the order of the document; the
first node that is not as expected is reported.
-/

namespace ChannelHeaders
namespace Specification

open Document

/-- What reading a part of a document gives. -/
abbrev Shaped := Except ShapeError

/-- The entries of a mapping, in document order. -/
abbrev Entries := List (Tree × Tree)

/-- The entries of a section: a node that is absent, null or a mapping. -/
def readSection
    (place : Place)
    (t : Option Tree) :
    Shaped (Option Entries) :=
  match t.map Tree.peel with
  | none => .ok none
  | some .null => .ok none
  | some (.mapping es) => .ok (some es)
  | some _ => .error ⟨place, .mapping⟩

/-- The text under which an entry is known. -/
def readName
    (place : Place)
    (key : Tree) :
    Shaped String :=
  match key.scalar? with
  | some s => .ok s
  | none => .error ⟨place, .scalarKeys⟩

/-- Reads the entries of a mapping one after another, each under its name. -/
def readEntries
    {α : Type}
    (place : Place)
    (read : String → Tree → Shaped α) :
    Entries → Shaped (List (String × α))
  | [] => .ok []
  | (key, value) :: es => do
      let name ← readName place key
      let x ← read name value
      return (name, x) :: (← readEntries place read es)

/-- A text for information. -/
def readText (t : Option Tree) : Option String :=
  t.bind Tree.scalar?

/-- A declared field of a payload. -/
def readProperty
    (place : Place)
    (t : Tree) :
    Shaped Property := do
  let es ← readSection place (some t)
  return ⟨es.bind fun es => readText (Tree.field? "type" es)⟩

/-- The declared shape of a payload. -/
def readPayload
    (place : Place)
    (es : Entries) :
    Shaped PayloadSchema := do
  let here := .field "properties" :: place
  let properties ← readSection here (Tree.field? "properties" es)
  let properties ← readEntries here (fun name => readProperty (.field name :: here))
    (properties.getD [])
  return ⟨readText (Tree.field? "type" es), .ofList properties⟩

/-- The declared shape of a message. -/
def readMessage
    (place : Place)
    (es : Entries) :
    Shaped MessageSchema := do
  let here := .field "payload" :: place
  match ← readSection here (Tree.field? "payload" es) with
  | none => return ⟨none⟩
  | some payload => return ⟨some (← readPayload here payload)⟩

/-- The message that a channel publishes; with a pointer, nothing else is looked at. -/
def readPublishedMessage
    (place : Place)
    (t : Option Tree) :
    Shaped (Option PublishedMessage) := do
  match ← readSection place t with
  | none => return none
  | some es =>
      match readText (Tree.field? "$ref" es) with
      | some pointer => return some (.reference pointer)
      | none => return some (.inline (← readMessage place es))

/-- What a channel publishes. -/
def readPublication
    (place : Place)
    (t : Option Tree) :
    Shaped (Option Publication) := do
  match ← readSection place t with
  | none => return none
  | some es =>
      return some ⟨← readPublishedMessage (.field "message" :: place) (Tree.field? "message" es)⟩

/-- A header template; null is the empty template. -/
def readTemplate
    (place : Place)
    (t : Tree) :
    Shaped String :=
  match t.peel, t.scalar? with
  | .null, _ => .ok ""
  | _, some s => .ok s
  | _, none => .error ⟨place, .template⟩

/-- The header templates of a channel. -/
def readHeaders
    (place : Place)
    (t : Option Tree) :
    Shaped (Option HeaderTemplates) := do
  match ← readSection place t with
  | none => return none
  | some es =>
      let templates ← readEntries place (fun name => readTemplate (.field name :: place)) es
      return some (.ofList templates)

/-- A channel. -/
def readChannel
    (place : Place)
    (t : Tree) :
    Shaped Channel := do
  match ← readSection place (some t) with
  | none => return ⟨none, none⟩
  | some es =>
      let publication ← readPublication (.field "publish" :: place) (Tree.field? "publish" es)
      let headers ← readHeaders (.field "x-headers" :: place) (Tree.field? "x-headers" es)
      return ⟨publication, headers⟩

/-- Information about the document. -/
def readInfo (es : Entries) : Info :=
  ⟨readText (Tree.field? "title" es), readText (Tree.field? "version" es),
    readText (Tree.field? "description" es)⟩

/-- The channels by topic. -/
def readChannels (t : Option Tree) : Shaped (SortedMap Channel) := do
  let here := [.field "channels"]
  let es ← readSection here t
  let channels ← readEntries here (fun topic => readChannel (.entry topic :: here)) (es.getD [])
  return .ofList channels

/-- A message that pointers may name. -/
def readComponent
    (place : Place)
    (t : Tree) :
    Shaped MessageSchema := do
  match ← readSection place (some t) with
  | none => return ⟨none⟩
  | some es => readMessage place es

/-- The messages that pointers may name. -/
def readComponents (t : Option Tree) : Shaped (SortedMap MessageSchema) := do
  let components ← readSection [.field "components"] t
  let here := [.field "messages", .field "components"]
  let es ← readSection here (Tree.field? "messages" (components.getD []))
  let messages ← readEntries here (fun name => readComponent (.entry name :: here)) (es.getD [])
  return .ofList messages

/-- The specification that the entries of the root spell. -/
def ofEntries (es : Entries) : Shaped Specification := do
  let info ← readSection [.field "info"] (Tree.field? "info" es)
  let channels ← readChannels (Tree.field? "channels" es)
  let messages ← readComponents (Tree.field? "components" es)
  return ⟨readText (Tree.field? "asyncapi" es), info.map readInfo, channels, messages⟩

/-- The specification that a document tree spells. -/
def ofTree (t : Tree) : Shaped Specification :=
  match t.peel with
  | .mapping es => ofEntries es
  | _ => .error ⟨[], .mapping⟩

end Specification
end ChannelHeaders
