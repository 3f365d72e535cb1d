import ChannelHeaders.Yaml.Glyph
import ChannelHeaders.Yaml.Lexeme.Gap

/-!
# Plain scalars

A plain scalar runs until white space is followed by a comment, a document mark or a line
that is not indented enough, until a colon before white space, or, inside brackets, until
a bracket or a comma.  White space that goes over the end of a line is folded, and white
space at the end is dropped.
-/

namespace ChannelHeaders
namespace Yaml

/-- The indicators that end a plain scalar inside brackets. -/
def flowEnds : List Char :=
  [',', '[', ']', '\x7b', '\x7d']

/-- What is read of a plain scalar. -/
structure PlainText where
  text : List Char
  /-- Whether a line ended behind the content. -/
  lineEnded : Bool
  /-- What follows the scalar and the white space behind it. -/
  rest : List Glyph

/-- The indicators that may not follow a colon inside brackets. -/
def colonClashes : List Char :=
  '?' :: flowEnds

/-- A plain scalar, inside brackets or not, with the least column of its further lines.  Here
`done` holds what is read so far, the last character first. -/
def readPlain
    (flow : Bool)
    (margin : Nat)
    (done : List Char)
    (gap : Gap) :
    List Glyph → Option PlainText
  | [] => some ⟨done.reverse, gap.isBroken, []⟩
  | g :: rest =>
      if isBlank g.char then
        if gap.isBroken && g.column < margin && g.char == '\t' then none
        else readPlain flow margin done (gap.addBlank g.char) rest
      else if isBreak g.char then readPlain flow margin done (gap.addBreak g.char) rest
      else if gap ≠ .closed ∧
          ((!flow && g.column < margin) || atDocumentMark (g :: rest) || g.char == '#') then
        some ⟨done.reverse, gap.isBroken, g :: rest⟩
      else if flow && g.char == ':' && atAny colonClashes rest then none
      else if (g.char == ':' && atSpace rest) || (flow && flowEnds.contains g.char) then
        some ⟨done.reverse, gap.isBroken, g :: rest⟩
      else readPlain flow margin (g.char :: (gap.text.reverse ++ done)) .closed rest

end Yaml
end ChannelHeaders
