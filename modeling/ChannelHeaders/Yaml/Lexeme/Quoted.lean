import ChannelHeaders.Text.Digit
import ChannelHeaders.Yaml.Glyph
import ChannelHeaders.Yaml.Lexeme.Gap

/-!
# Quoted scalars

Both readers start behind the opening quote and return the content together with what
follows the closing quote.  White space that goes over the end of a line is folded.  A
document mark at the start of a line inside the quotes is an error, and so is the end of
the text.

**Single quotes.**  A quote is written twice.

**Double quotes.**  A backslash starts an escape: a letter for a fixed character, two, four
or eight hexadecimal digits for a code point, or a line break that vanishes together with
the blanks of the next line.
-/

namespace ChannelHeaders
namespace Yaml

/-- The single quote. -/
def singleQuote : Char :=
  '\x27'

/-- The double quote. -/
def doubleQuote : Char :=
  '\x22'

/-- The content of a single-quoted scalar; `done` holds what is read so far, the last character
first. -/
def readSingle
    (done : List Char)
    (gap : Gap) :
    List Glyph → Option (List Char × List Glyph)
  | [] => none
  | g :: rest =>
      if isBlank g.char then readSingle done (gap.addBlank g.char) rest
      else if isBreak g.char then readSingle done (gap.addBreak g.char) rest
      else if atDocumentMark (g :: rest) then none
      else
        let done := gap.text.reverse ++ done
        if g.char = singleQuote then
          match rest with
          | [] => some (done.reverse, [])
          | g' :: rest' =>
              if g'.char = singleQuote then readSingle (singleQuote :: done) .closed rest'
              else some (done.reverse, g' :: rest')
        else readSingle (g.char :: done) .closed rest

/-- The characters that one-letter escapes stand for. -/
def shortEscape? (c : Char) : Option Char :=
  match c with
  | '0' => some '\x00'
  | 'a' => some '\x07'
  | 'b' => some '\x08'
  | 't' => some '\t'
  | '\t' => some '\t'
  | 'n' => some '\n'
  | 'v' => some '\x0b'
  | 'f' => some '\x0c'
  | 'r' => some '\r'
  | 'e' => some '\x1b'
  | ' ' => some ' '
  | '\x22' => some '\x22'
  | '/' => some '/'
  | '\\' => some '\\'
  | 'N' => some '\u0085'
  | '_' => some '\u00a0'
  | 'L' => some '\u2028'
  | 'P' => some '\u2029'
  | _ => none

/-- The number of hexadecimal digits that an escape letter announces. -/
def codeLength? (c : Char) : Option Nat :=
  match c with
  | 'x' => some 2
  | 'u' => some 4
  | 'U' => some 8
  | _ => none

/-- The character with a given code point. -/
def charOfCode? (n : Nat) : Option Char :=
  if n.isValidChar then some (Char.ofNat n) else none

/-- How far the reader of a double-quoted scalar is inside an escape. -/
inductive Escape where
  /-- Not inside an escape, with the white space since the last character. -/
  | outside (gap : Gap)
  /-- Behind the backslash. -/
  | started
  /-- Inside the digits of a code point: how many are to come after the next, and the value of
  those read. -/
  | digits (more value : Nat)

/-- The content of a double-quoted scalar; `done` holds what is read so far, the last character
first. -/
def readDouble (done : List Char) : Escape → List Glyph → Option (List Char × List Glyph)
  | _, [] => none
  | .outside gap, g :: rest =>
      if isBlank g.char then readDouble done (.outside (gap.addBlank g.char)) rest
      else if isBreak g.char then readDouble done (.outside (gap.addBreak g.char)) rest
      else if atDocumentMark (g :: rest) then none
      else
        let done := gap.text.reverse ++ done
        if g.char = doubleQuote then some (done.reverse, rest)
        else if g.char = '\\' then readDouble done .started rest
        else readDouble (g.char :: done) (.outside .closed) rest
  | .started, g :: rest =>
      if isBreak g.char then readDouble done (.outside (.breaks none [])) rest
      else
        match shortEscape? g.char, codeLength? g.char with
        | some c, _ => readDouble (c :: done) (.outside .closed) rest
        | none, some n => readDouble done (.digits (n - 1) 0) rest
        | none, none => none
  | .digits more value, g :: rest =>
      match Text.hexValue? g.char with
      | none => none
      | some d =>
          match more with
          | more + 1 => readDouble done (.digits more (16 * value + d)) rest
          | 0 =>
              match charOfCode? (16 * value + d) with
              | none => none
              | some c => readDouble (c :: done) (.outside .closed) rest

/-- The content of a quoted scalar whose opening quote is read. -/
def readQuoted
    (quote : Char)
    (gs : List Glyph) :
    Option (List Char × List Glyph) :=
  if quote = singleQuote then readSingle [] .closed gs else readDouble [] (.outside .closed) gs

end Yaml
end ChannelHeaders
