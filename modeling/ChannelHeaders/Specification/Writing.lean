import ChannelHeaders.Document.Tree
import ChannelHeaders.Specification.Basic

/-!
# Document trees of specifications

Every specification can be written as a document tree.  All texts are strings, absent
parts are left out, and parts that are there but empty become empty mappings.  Header
templates keep their order.
-/

namespace ChannelHeaders
namespace Specification

open Document

/-- The entry of a field, when there is one. -/
def writeField
    (name : String)
    (value : Option Tree) :
    List (Tree × Tree) :=
  (value.map fun t => (.text name, t)).toList

/-- The entry of a field that holds a text, when there is one. -/
def writeText
    (name : String)
    (value : Option String) :
    List (Tree × Tree) :=
  writeField name (value.map .text)

/-- A mapping that is keyed by free names. -/
def writeNamed
    {α : Type}
    (write : α → Tree)
    (entries : List (String × α)) :
    Tree :=
  .mapping (entries.map fun e => (.text e.1, write e.2))

/-- A declared field of a payload. -/
def writeProperty (p : Property) : Tree :=
  .mapping (writeText "type" p.declaredType)

/-- The declared shape of a payload. -/
def writePayload (p : PayloadSchema) : Tree :=
  .mapping (writeText "type" p.declaredType ++
    writeField "properties" (some (writeNamed writeProperty p.properties.entries)))

/-- The declared shape of a message. -/
def writeMessage (m : MessageSchema) : Tree :=
  .mapping (writeField "payload" (m.payload.map writePayload))

/-- The message that a channel publishes. -/
def writePublishedMessage : PublishedMessage → Tree
  | .reference pointer => .mapping (writeText "$ref" (some pointer))
  | .inline schema => writeMessage schema

/-- What a channel publishes. -/
def writePublication (p : Publication) : Tree :=
  .mapping (writeField "message" (p.message.map writePublishedMessage))

/-- A channel. -/
def writeChannel (c : Channel) : Tree :=
  .mapping (writeField "publish" (c.publication.map writePublication) ++
    writeField "x-headers" (c.headers.map fun h => writeNamed .text h.entries))

/-- Information about the document. -/
def writeInfo (i : Info) : Tree :=
  .mapping (writeText "title" i.title ++ writeText "version" i.version ++
    writeText "description" i.description)

/-- The document tree of a specification. -/
def toTree (s : Specification) : Tree :=
  .mapping (writeText "asyncapi" s.asyncapi ++
    writeField "info" (s.info.map writeInfo) ++
    writeField "channels" (some (writeNamed writeChannel s.channels.entries)) ++
    writeField "components"
      (some (.mapping (writeField "messages" (some (writeNamed writeMessage s.messages.entries))))))

end Specification
end ChannelHeaders
