/-!
# White space inside a scalar

Between two visible characters of a plain or quoted scalar there may be blanks and line
breaks.  Blanks on one line are kept as they are.  Around line breaks all blanks vanish:
one line feed becomes a space, further breaks are kept, and a first break of another kind
is kept as well.
-/

namespace ChannelHeaders
namespace Yaml

/-- The white space since the last visible character. -/
inductive Gap where
  /-- No white space. -/
  | closed
  /-- Blanks on one line, the last one first. -/
  | blanks (reversed : List Char)
  /-- Line breaks: the one that is folded, unless it was escaped, and the later ones, the last
  one first. -/
  | breaks (first : Option Char) (reversed : List Char)
deriving DecidableEq

namespace Gap

/-- Whether the gap goes over the end of a line. -/
def isBroken : Gap → Bool
  | breaks _ _ => true
  | _ => false

/-- The gap with one more blank. -/
def addBlank (c : Char) : Gap → Gap
  | closed => blanks [c]
  | blanks cs => blanks (c :: cs)
  | breaks first cs => breaks first cs

/-- The gap with one more line break. -/
def addBreak (c : Char) : Gap → Gap
  | breaks first cs => breaks first (c :: cs)
  | _ => breaks (some c) []

/-- What the gap contributes to the scalar. -/
def text : Gap → List Char
  | closed => []
  | blanks cs => cs.reverse
  | breaks (some '\n') [] => [' ']
  | breaks (some '\n') cs => cs.reverse
  | breaks first cs => first.toList ++ cs.reverse

end Gap
end Yaml
end ChannelHeaders
