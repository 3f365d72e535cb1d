import ChannelHeaders.Yaml.Lexeme.Block
import ChannelHeaders.Yaml.Lexeme.Plain
import ChannelHeaders.Yaml.Lexeme.Property
import ChannelHeaders.Yaml.Lexeme.Quoted

/-!
# From layout to tokens

**Input.**  The glyphs of a text.

**Algorithm.**  The text is read token by token.  A stack of columns holds the open block
collections: a token that stands to the left of the top column closes collections, and an
entry, a question mark or a key to the right of it opens one.

A key need not be marked.  Where one may start, an empty slot is left among the tokens;
when a colon follows on the same line within 1024 bytes, the slot is filled with the key
token, and with the start of a block mapping if the key opens one.  So the tokens of the
text are the slots one after another.
-/

namespace ChannelHeaders
namespace Yaml

/-- A place where a key may have started. -/
structure KeyStart where
  /-- The slot left for the key token. -/
  slot : Nat
  glyph : Glyph
  /-- Whether only a key can stand there. -/
  required : Bool
deriving DecidableEq

/-- The longest distance between a key and its colon, in bytes. -/
def maxKeyBytes : Nat :=
  1024

/-- Whether a colon at `g` is too far away to end the key. -/
def KeyStart.isStale
    (k : KeyStart)
    (g : Glyph) :
    Bool :=
  k.glyph.line < g.line || k.glyph.offset + maxKeyBytes < g.offset

/-- The reader of tokens between two tokens. -/
structure Layout where
  /-- What is still to be read. -/
  rest : List Glyph
  /-- The tokens so far, each in a slot of its own. -/
  slots : Array (List Token)
  /-- The columns of the open block collections, the innermost first. -/
  columns : List Nat
  /-- Whether a key may start here. -/
  keyAllowed : Bool
  /-- Where a key may have started on the current level of brackets. -/
  keyStart : Option KeyStart
  /-- The same for the levels around it, the innermost first. -/
  outerKeyStarts : List (Option KeyStart)

namespace Layout

/-- The reader at the start of a text. -/
def start (gs : List Glyph) : Layout :=
  ⟨gs, #[], [], true, none, []⟩

/-- Whether the reader is inside brackets. -/
def inFlow (s : Layout) : Bool :=
  !s.outerKeyStarts.isEmpty

/-- Adds a token. -/
def emit
    (t : Token)
    (s : Layout) :
    Layout :=
  { s with slots := s.slots.push [t] }

/-- Skips what stands between tokens: blanks, comments and line breaks.  Behind a line break
outside of brackets a key may start; where one may, tabs are not skipped.  Returns the rest and
whether a key may start there. -/
def skipSpace
    (flow : Bool)
    (comment keyAllowed : Bool) :
    List Glyph → List Glyph × Bool
  | [] => ([], keyAllowed)
  | g :: rest =>
      if isBreak g.char then skipSpace flow false (keyAllowed || !flow) rest
      else if comment then skipSpace flow true keyAllowed rest
      else if g.char = byteOrderMark ∧ g.column = 0 then skipSpace flow false keyAllowed rest
      else if g.char = ' ' ∨ (g.char = '\t' ∧ (flow || !keyAllowed) = true) then
        skipSpace flow false keyAllowed rest
      else if g.char = '#' then skipSpace flow true keyAllowed rest
      else (g :: rest, keyAllowed)

/-- Drops the possible key of the current level; a required one must not be dropped. -/
def dropKey (s : Layout) : Option Layout :=
  if s.keyStart.any KeyStart.required then none else some { s with keyStart := none }

/-- Leaves a slot for a key that starts with `g`, where one may start. -/
def markKey
    (g : Glyph)
    (s : Layout) :
    Option Layout :=
  if s.keyAllowed then
    s.dropKey.map fun s =>
      { s with
        keyStart := some ⟨s.slots.size, g, !s.inFlow && s.columns.head? == some g.column⟩
        slots := s.slots.push [] }
  else some s

/-- Closes the block collections to the right of a column. -/
def closeTo
    (column : Nat)
    (s : Layout) :
    Layout :=
  if s.inFlow then s
  else
    { s with
      columns := s.columns.dropWhile (column < ·)
      slots := s.slots ++ (s.columns.takeWhile (column < ·)).toArray.map fun _ => [.blockEnd] }

/-- Closes all block collections. -/
def closeAll (s : Layout) : Layout :=
  if s.inFlow then s
  else
    { s with
      columns := []
      slots := s.slots ++ s.columns.toArray.map fun _ => [.blockEnd] }

/-- Whether a block collection at this column is not open yet. -/
def opens
    (column : Nat)
    (s : Layout) :
    Bool :=
  !s.inFlow && s.columns.head?.all (· < column)

/-- Opens a block collection at a column, unless it is open. -/
def openAt
    (column : Nat)
    (t : Token)
    (s : Layout) :
    Layout :=
  if s.opens column then { s with columns := column :: s.columns }.emit t else s

/-- The least column of the further lines of a plain scalar. -/
def margin (s : Layout) : Nat :=
  s.columns.head?.elim 0 (· + 1)

/-- A directive, a document mark or the end of the text: nothing stays open. -/
def readBoundary (s : Layout) : Option Layout :=
  s.closeAll.dropKey.map fun s => { s with keyAllowed := false }

/-- An opening bracket. -/
def readOpening
    (t : Token)
    (g : Glyph)
    (rest : List Glyph)
    (s : Layout) :
    Option Layout :=
  (s.markKey g).map fun s =>
    { s with
      rest := rest
      keyAllowed := true
      outerKeyStarts := s.keyStart :: s.outerKeyStarts
      keyStart := none }.emit t

/-- A closing bracket. -/
def readClosing
    (t : Token)
    (rest : List Glyph)
    (s : Layout) :
    Option Layout :=
  s.dropKey.map fun s =>
    match s.outerKeyStarts with
    | [] => { s with rest := rest, keyAllowed := false }.emit t
    | k :: ks =>
        { s with rest := rest, keyAllowed := false, keyStart := k, outerKeyStarts := ks }.emit t

/-- A comma between entries. -/
def readComma
    (rest : List Glyph)
    (s : Layout) :
    Option Layout :=
  s.dropKey.map fun s => { s with rest := rest, keyAllowed := true }.emit .flowEntry

/-- A hyphen in front of an entry. -/
def readEntry
    (g : Glyph)
    (rest : List Glyph)
    (s : Layout) :
    Option Layout :=
  if !s.inFlow && !s.keyAllowed then none
  else
    (s.openAt g.column .blockSequenceStart).dropKey.map fun s =>
      { s with rest := rest, keyAllowed := true }.emit .blockEntry

/-- A question mark in front of a key. -/
def readKey
    (g : Glyph)
    (rest : List Glyph)
    (s : Layout) :
    Option Layout :=
  if !s.inFlow && !s.keyAllowed then none
  else
    (s.openAt g.column .blockMappingStart).dropKey.map fun s =>
      { s with rest := rest, keyAllowed := !s.inFlow }.emit .key

/-- A colon in front of a value whose key is not marked. -/
def fillKey
    (k : KeyStart)
    (rest : List Glyph)
    (s : Layout) :
    Layout :=
  let column := k.glyph.column
  { s with
    rest := rest
    keyAllowed := false
    keyStart := none
    columns := if s.opens column then column :: s.columns else s.columns
    slots :=
      s.slots.setIfInBounds k.slot (if s.opens column then [.blockMappingStart, .key] else [.key])
  }.emit .value

/-- A colon in front of a value. -/
def readValue
    (g : Glyph)
    (rest : List Glyph)
    (s : Layout) :
    Option Layout :=
  match s.keyStart.filter fun k => !k.isStale g with
  | some k => some (s.fillKey k rest)
  | none =>
      if s.keyStart.any KeyStart.required then none
      else if !s.inFlow && !s.keyAllowed then none
      else
        let s := s.openAt g.column .blockMappingStart
        some ({ s with rest := rest, keyAllowed := !s.inFlow }.emit .value)

/-- A token that a key may start with, and what follows it. -/
def readLeaf
    (g : Glyph)
    (leaf : Option (Token × List Glyph))
    (s : Layout) :
    Option Layout :=
  leaf.bind fun (t, rest) =>
    (s.markKey g).map fun s => { s with rest := rest, keyAllowed := false }.emit t

/-- A plain scalar. -/
def readPlainScalar
    (gs : List Glyph)
    (g : Glyph)
    (s : Layout) :
    Option Layout :=
  (readPlain s.inFlow s.margin [] .closed gs).bind fun p =>
    (s.markKey g).map fun s =>
      { s with rest := p.rest, keyAllowed := p.lineEnded }.emit
        (.scalar (String.ofList p.text) true)

/-- A block scalar. -/
def readBlockScalar
    (folded : Bool)
    (rest : List Glyph)
    (s : Layout) :
    Option Layout :=
  (readBlock folded s.columns.head? rest).bind fun (text, rest) =>
    s.dropKey.map fun s =>
      { s with rest := rest, keyAllowed := true }.emit (.scalar (String.ofList text) false)

/-- The characters that no plain scalar starts with. -/
def indicators : List Char :=
  "-?:,[]{}#&*!|>\x27\x22%@\x60".toList

/-- Whether a plain scalar may start with `g`. -/
def startsPlain
    (flow : Bool)
    (g : Glyph)
    (rest : List Glyph) :
    Bool :=
  !(isSpace g.char || indicators.contains g.char) ||
    (g.char == '-' && !atBlank rest) ||
    (!flow && (g.char == '?' || g.char == ':') && !atSpace rest)

/-- Reads the token that starts with `g`, behind all white space. -/
def readToken
    (g : Glyph)
    (rest : List Glyph)
    (s : Layout) :
    Option Layout :=
  let gs := g :: rest
  let separated := s.inFlow || atSpace rest
  if g.column = 0 ∧ g.char = '%' then
    s.readBoundary.bind fun s =>
      (readDirective rest).map fun (t, rest) => { s with rest := rest }.emit t
  else if atLineMark '-' gs then
    s.readBoundary.map fun s => { s with rest := gs.drop 3 }.emit .documentStart
  else if atLineMark '.' gs then
    s.readBoundary.map fun s => { s with rest := gs.drop 3 }.emit .documentEnd
  else if g.char = '[' then s.readOpening .flowSequenceStart g rest
  else if g.char = '\x7b' then s.readOpening .flowMappingStart g rest
  else if g.char = ']' then s.readClosing .flowSequenceEnd rest
  else if g.char = '\x7d' then s.readClosing .flowMappingEnd rest
  else if g.char = ',' then s.readComma rest
  else if g.char = '-' ∧ atSpace rest then s.readEntry g rest
  else if g.char = '?' ∧ separated then s.readKey g rest
  else if g.char = ':' ∧ separated then s.readValue g rest
  else if g.char = '*' then
    s.readLeaf g ((readName rest).map fun (name, rest) => (.alias name, rest))
  else if g.char = '&' then
    s.readLeaf g ((readName rest).map fun (name, rest) => (.anchor name, rest))
  else if g.char = '!' then
    s.readLeaf g ((readTag s.inFlow rest).map fun (t, rest) => (.tag t, rest))
  else if g.char = '|' ∧ !s.inFlow then s.readBlockScalar false rest
  else if g.char = '>' ∧ !s.inFlow then s.readBlockScalar true rest
  else if g.char = singleQuote ∨ g.char = doubleQuote then
    s.readLeaf g ((readQuoted g.char rest).map fun (text, rest) =>
      (.scalar (String.ofList text) false, rest))
  else if startsPlain s.inFlow g rest then s.readPlainScalar gs g
  else none

/-- Reads tokens up to the end of the text.  Every token takes at least one glyph, so there are
no more tokens to read than glyphs. -/
def readAll : Nat → Layout → Option Layout
  | 0, s => s.readBoundary
  | n + 1, s =>
      let (rest, keyAllowed) := skipSpace s.inFlow false s.keyAllowed s.rest
      let s := { s with rest := rest, keyAllowed := keyAllowed }
      match rest with
      | [] => s.readBoundary
      | g :: gs => ((s.closeTo g.column).readToken g gs).bind (readAll n)

end Layout

/-- The tokens of a text. -/
def tokens? (gs : List Glyph) : Option (List Token) :=
  (Layout.readAll gs.length (Layout.start gs)).map fun s => s.slots.toList.flatten

end Yaml
end ChannelHeaders
