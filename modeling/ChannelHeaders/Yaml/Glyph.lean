/-!
# Characters with their places

A YAML text is read as a list of glyphs.  A glyph is a character together with the byte
offset, line and column at which it stands, so that every later stage sees the layout of
the text without counting along.

**Line breaks.**  A carriage return, a line feed, the two together and a next-line
character all become one line feed.  The line and paragraph separators break lines too and
keep their own character.
-/

namespace ChannelHeaders
namespace Yaml

/-- A character and its place in the text. -/
structure Glyph where
  /-- The character, line breaks in their common form. -/
  char : Char
  /-- The number of bytes before it. -/
  offset : Nat
  /-- The number of line breaks before it. -/
  line : Nat
  /-- The number of characters before it on its line. -/
  column : Nat
deriving DecidableEq

/-- A space or a tab. -/
def isBlank (c : Char) : Bool :=
  c == ' ' || c == '\t'

/-- A line break in its common form. -/
def isBreak (c : Char) : Bool :=
  c == '\n' || c == '\u2028' || c == '\u2029'

/-- A blank or a line break. -/
def isSpace (c : Char) : Bool :=
  isBlank c || isBreak c

/-- The byte order mark. -/
def byteOrderMark : Char :=
  '\ufeff'

/-- The characters that may stand in a YAML text. -/
def isPrintable (c : Char) : Bool :=
  let n := c.toNat
  n == 0x09 || n == 0x0a || n == 0x0d || (0x20 ≤ n && n ≤ 0x7e) || n == 0x85 ||
    (0xa0 ≤ n && n ≤ 0xd7ff) || (0xe000 ≤ n && n ≤ 0xfffd) || 0x10000 ≤ n

/-- Gives every character its place, starting from a given one. -/
def layOut (offset line column : Nat) : List Char → List Glyph
  | [] => []
  | '\r' :: '\n' :: cs => ⟨'\n', offset, line, column⟩ :: layOut (offset + 2) (line + 1) 0 cs
  | c :: cs =>
      let next := offset + c.utf8Size
      if c = '\r' ∨ c = '\u0085' then ⟨'\n', offset, line, column⟩ :: layOut next (line + 1) 0 cs
      else if isBreak c then ⟨c, offset, line, column⟩ :: layOut next (line + 1) 0 cs
      else ⟨c, offset, line, column⟩ :: layOut next line (column + 1) cs

/-- The glyphs of a text, when all its characters may stand in one. -/
def glyphs? (text : List Char) : Option (List Glyph) :=
  if text.all isPrintable then some (layOut 0 0 0 text) else none

/-- Whether the text ends here or goes on with a blank or a line break. -/
def atSpace : List Glyph → Bool
  | [] => true
  | g :: _ => isSpace g.char

/-- Whether the next character is one of those listed. -/
def atAny (cs : List Char) : List Glyph → Bool
  | [] => false
  | g :: _ => cs.contains g.char

/-- Whether three times the character `c` stand at the start of a line, and then nothing but a
space. -/
def atLineMark (c : Char) : List Glyph → Bool
  | g₁ :: g₂ :: g₃ :: gs =>
      g₁.column == 0 && g₁.char == c && g₂.char == c && g₃.char == c && atSpace gs
  | _ => false

/-- Whether a document start or a document end stands here. -/
def atDocumentMark (gs : List Glyph) : Bool :=
  atLineMark '-' gs || atLineMark '.' gs

/-- Skips blanks. -/
def skipBlanks : List Glyph → List Glyph :=
  List.dropWhile fun g => isBlank g.char

/-- Skips everything up to the end of the line. -/
def skipLine : List Glyph → List Glyph :=
  List.dropWhile fun g => !isBreak g.char

/-- Skips blanks, an optional comment, and the end of the line; nothing else may stand there. -/
def finishLine? (gs : List Glyph) : Option (List Glyph) :=
  let gs := skipBlanks gs
  let gs := if atAny ['#'] gs then skipLine gs else gs
  match gs with
  | [] => some []
  | g :: rest => if isBreak g.char then some rest else none

/-- The characters of the longest start that satisfies `p`, and what follows it. -/
def takeRun
    (p : Char → Bool)
    (gs : List Glyph) :
    List Char × List Glyph :=
  ((gs.takeWhile fun g => p g.char).map Glyph.char, gs.dropWhile fun g => p g.char)

/-- The characters of names: letters, digits, hyphen and underscore. -/
def isNameChar (c : Char) : Bool :=
  c.isAlphanum || c == '-' || c == '_'

end Yaml
end ChannelHeaders
