import ChannelHeaders.Document.Text
import ChannelHeaders.Specification.Reading

/-!
# Loading specifications

A specification is loaded from a document given as bytes, as a text, by a reader that
hands out pieces, or by the file it stands in.  All ways end in `load`.  An injector is made
over a specification that is loaded in one of these ways.

**Errors.**  A document may not be readable at all, may be neither YAML nor JSON, or may
have the wrong shape.

**Results.**
* `load_eq`: a load is a document tree followed by its reading.
-/

namespace ChannelHeaders
namespace Specification

/-- Why no specification was loaded. -/
inductive LoadError where
  /-- The document has no tree. -/
  | malformed (cause : Document.Malformed)
  /-- A node of the document is not as expected. -/
  | shape (cause : ShapeError)
  /-- The document could not be read. -/
  | unreadable
deriving DecidableEq

/-- The two kinds of load error. -/
inductive LoadErrorKind where
  /-- The document was read and is not a specification. -/
  | malformed
  /-- The document could not be read. -/
  | unreadable
deriving DecidableEq

namespace LoadError

/-- The kind of a load error. -/
def kind : LoadError → LoadErrorKind
  | malformed _ => .malformed
  | shape _ => .malformed
  | unreadable => .unreadable

/-- The message of a load error. -/
def message : LoadError → String
  | malformed .yaml => "unable to parse the channel specification"
  | malformed .json => "unable to parse the channel specification as JSON"
  | shape e =>
      "\x60" ++ e.place.text ++ "\x60 in the channel specification must be " ++ e.expected.text
  | unreadable => "unable to read the channel specification"

end LoadError

/-- The specification that a document spells. -/
def load (document : ByteArray) : Except LoadError Specification :=
  match Document.read document with
  | .error e => .error (.malformed e)
  | .ok t =>
      match ofTree t with
      | .error e => .error (.shape e)
      | .ok s => .ok s

/-- The specification that a document given as a text spells. -/
def loadText (document : String) : Except LoadError Specification :=
  load document.toUTF8

/-- What a reader answers when it is asked for bytes. -/
inductive Signal where
  /-- Some bytes; none at the end. -/
  | piece (bytes : List UInt8)
  /-- A hindrance that passes; the reader is asked again. -/
  | interrupted
  | failure
deriving DecidableEq

/-- The bytes that a reader hands out up to its end, unless it fails before.  A reader that says
nothing more is at its end. -/
def readToEnd : List Signal → Option (List UInt8)
  | [] => some []
  | .interrupted :: signals => readToEnd signals
  | .failure :: _ => none
  | .piece [] :: _ => some []
  | .piece (b :: bs) :: signals => (readToEnd signals).map (b :: bs ++ ·)

/-- The specification that the document of a reader spells. -/
def loadReader (signals : List Signal) : Except LoadError Specification :=
  match readToEnd signals with
  | none => .error .unreadable
  | some bytes => load ⟨bytes.toArray⟩

/-- The specification that the document in a file spells; there may be no such file. -/
def loadFile (content : Option ByteArray) : Except LoadError Specification :=
  match content with
  | none => .error .unreadable
  | some bytes => load bytes

/-- A document is read as a tree, and the tree as a specification. -/
theorem load_eq (document : ByteArray) :
    load document =
      ((Document.read document).mapError LoadError.malformed).bind fun t =>
        (ofTree t).mapError LoadError.shape := by
  unfold load
  cases Document.read document with
  | error e => rfl
  | ok t =>
      change (match ofTree t with
        | .error e => .error (.shape e)
        | .ok s => .ok s) = (ofTree t).mapError LoadError.shape
      cases ofTree t <;> rfl

end Specification

/-- What resolves headers: a specification, which is never modified. -/
structure Injector where
  /-- The specification that headers are resolved from. -/
  specification : Specification
deriving DecidableEq

namespace Injector

open Specification (LoadError Signal)

/-- The injector over the specification that a document spells. -/
def ofDocument (document : ByteArray) : Except LoadError Injector :=
  (Specification.load document).map Injector.mk

/-- The injector over the specification that the document of a reader spells. -/
def ofReader (signals : List Signal) : Except LoadError Injector :=
  (Specification.loadReader signals).map Injector.mk

/-- The injector over the specification that the document in a file spells. -/
def ofFile (content : Option ByteArray) : Except LoadError Injector :=
  (Specification.loadFile content).map Injector.mk

end Injector
end ChannelHeaders
