/-!
# Places in a document, and what is expected there

When a document is not shaped like a specification, the first node that is not as
expected is reported: its place and the expectation.  A place is a list of steps from the
root; a step goes to a field, or to an entry of a mapping that is keyed by free names.
-/

namespace ChannelHeaders
namespace Specification

/-- A step from a node to one inside it. -/
inductive Step where
  /-- To the value of a field. -/
  | field (name : String)
  /-- To the value of an entry under a free name. -/
  | entry (name : String)
deriving DecidableEq

/-- A place in a document: the steps to it from the root, the last one first. -/
abbrev Place := List Step

namespace Place

/-- The text of the steps that lead to a place inside the root. -/
def textInside : Place → String
  | [] => ""
  | [.field name] => name
  | .field name :: steps => textInside steps ++ "." ++ name
  | .entry name :: steps => textInside steps ++ "[" ++ name ++ "]"

/-- The text of a place. -/
def text (p : Place) : String :=
  match p with
  | [] => "document"
  | steps => textInside steps

end Place

/-- What a node may be expected to be. -/
inductive Expectation where
  | mapping
  /-- A mapping whose keys are scalars. -/
  | scalarKeys
  | template
deriving DecidableEq

/-- The words for an expectation. -/
def Expectation.text : Expectation → String
  | mapping => "a mapping"
  | scalarKeys => "keyed by strings"
  | template => "a string template"

/-- A node that is not as expected. -/
structure ShapeError where
  /-- Where it stands. -/
  place : Place
  /-- What it should have been. -/
  expected : Expectation
deriving DecidableEq

end Specification
end ChannelHeaders
