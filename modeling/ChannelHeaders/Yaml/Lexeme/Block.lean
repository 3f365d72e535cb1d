import ChannelHeaders.Text.Digit
import ChannelHeaders.Yaml.Glyph

/-!
# Block scalars

A block scalar starts with a bar (lines are kept) or a greater-than sign (lines are
folded).  Its header may name how many columns the lines are indented and what becomes of
the breaks at the end.  Its lines are those indented to the same column; the first line
that is not ends it.

**Folding.**  The break between two lines becomes a space when both start with a visible
character and no empty line stands between them; with empty lines between them it
vanishes, and the empty lines stay.
-/

namespace ChannelHeaders
namespace Yaml

/-- What becomes of the line breaks at the end of a block scalar. -/
inductive Chomping where
  /-- All are dropped. -/
  | strip
  /-- The first is kept. -/
  | clip
  /-- All are kept. -/
  | keep
deriving DecidableEq

/-- The header of a block scalar. -/
structure BlockHeader where
  /-- Whether line breaks are folded. -/
  folded : Bool
  /-- What becomes of the breaks at the end. -/
  chomping : Chomping
  /-- The indentation beyond that of the parent, when it is given. -/
  indentation : Option Nat
deriving DecidableEq

/-- A chomping indicator. -/
def chomping? (c : Char) : Option Chomping :=
  if c = '+' then some .keep else if c = '-' then some .strip else none

/-- An indentation indicator; zero is none. -/
def indentation? (c : Char) : Option Nat :=
  if '1' ≤ c ∧ c ≤ '9' then some (Text.decimalValue c) else none

/-- Reads the indicators of the header, in either order. -/
def readIndicators (folded : Bool) : List Glyph → BlockHeader × List Glyph
  | [] => (⟨folded, .clip, none⟩, [])
  | g :: rest =>
      match chomping? g.char, indentation? g.char with
      | some chomping, _ =>
          match rest with
          | [] => (⟨folded, chomping, none⟩, [])
          | g' :: rest' =>
              match indentation? g'.char with
              | some n => (⟨folded, chomping, some n⟩, rest')
              | none => (⟨folded, chomping, none⟩, rest)
      | none, some n =>
          match rest with
          | [] => (⟨folded, .clip, some n⟩, [])
          | g' :: rest' =>
              match chomping? g'.char with
              | some chomping => (⟨folded, chomping, some n⟩, rest')
              | none => (⟨folded, .clip, some n⟩, rest)
      | none, none => (⟨folded, .clip, none⟩, g :: rest)

/-- Where the reader of a block scalar stands. -/
inductive BlockPlace where
  /-- In front of a line, behind so many spaces. -/
  | margin (column : Nat)
  /-- Inside a line. -/
  | line

/-- What the reader of a block scalar has seen. -/
structure BlockState where
  /-- The content so far, the last character first. -/
  done : List Char
  /-- The break at the end of the last line with content. -/
  lineBreak : List Char
  /-- The breaks of the empty lines since, the last one first. -/
  emptyLines : List Char
  /-- Whether the last line with content started with a blank. -/
  blankStart : Bool
  /-- The column of the lines, once it is known. -/
  indentation : Option Nat
  /-- The greatest number of spaces in front of a line so far. -/
  widest : Nat

/-- The content when another line is to follow; `blankStart` tells whether that line starts with
a blank. -/
def BlockState.joinLine
    (s : BlockState)
    (folded blankStart : Bool) :
    List Char :=
  if folded && s.lineBreak == ['\n'] && !s.blankStart && !blankStart then
    if s.emptyLines.isEmpty then ' ' :: s.done else s.emptyLines ++ s.done
  else s.emptyLines ++ s.lineBreak ++ s.done

/-- The content of the whole scalar. -/
def BlockState.finish
    (s : BlockState)
    (chomping : Chomping) :
    List Char :=
  match chomping with
  | .strip => s.done.reverse
  | .clip => (s.lineBreak ++ s.done).reverse
  | .keep => (s.emptyLines ++ s.lineBreak ++ s.done).reverse

/-- The lines of a block scalar.  `margin` is the least column that the lines may stand at. -/
def readLines
    (header : BlockHeader)
    (margin : Nat)
    (s : BlockState) :
    BlockPlace → List Glyph → Option (List Char × List Glyph)
  | _, [] => some (s.finish header.chomping, [])
  | .line, g :: rest =>
      if isBreak g.char then
        readLines header margin
          { s with lineBreak := [g.char], emptyLines := [], widest := 0 } (.margin 0) rest
      else readLines header margin { s with done := g.char :: s.done } .line rest
  | .margin column, g :: rest =>
      let indenting := s.indentation.all (column < ·)
      let widest := max s.widest column
      if indenting && g.char == ' ' then readLines header margin s (.margin (column + 1)) rest
      else if indenting && g.char == '\t' then none
      else if isBreak g.char then
        readLines header margin
          { s with emptyLines := g.char :: s.emptyLines, widest := widest } (.margin 0) rest
      else
        let indentation := s.indentation.getD (max (max widest margin) 1)
        if column = indentation then
          readLines header margin
            { done := g.char :: s.joinLine header.folded (isBlank g.char)
              lineBreak := []
              emptyLines := []
              blankStart := isBlank g.char
              indentation := some indentation
              widest := 0 } .line rest
        else some (s.finish header.chomping, g :: rest)

/-- A block scalar whose first indicator is read.  `parent` is the column of the collection it
stands in, if it stands in one. -/
def readBlock
    (folded : Bool)
    (parent : Option Nat)
    (gs : List Glyph) :
    Option (List Char × List Glyph) :=
  let (header, gs) := readIndicators folded gs
  (finishLine? gs).bind fun gs =>
    readLines header (parent.elim 0 (· + 1))
      { done := []
        lineBreak := []
        emptyLines := []
        blankStart := false
        indentation := header.indentation.map (parent.getD 0 + ·)
        widest := 0 } (.margin 0) gs

end Yaml
end ChannelHeaders
