import ChannelHeaders.Text.Digit
import ChannelHeaders.Yaml.Glyph
import ChannelHeaders.Yaml.Token

/-!
# Anchors, aliases, tags and directives

The names of anchors and aliases, the two parts of a tag, and the directives in front of a
document.  Every reader starts behind the indicator and returns what follows.
-/

namespace ChannelHeaders
namespace Yaml

/-- The indicators that may follow the name of an anchor or alias. -/
def nameEnds : List Char :=
  ['?', ':', ',', ']', '\x7d', '%', '@', '\x60']

/-- The name of an anchor or alias. -/
def readName (gs : List Glyph) : Option (String × List Glyph) :=
  let (name, rest) := takeRun isNameChar gs
  if !name.isEmpty && (atSpace rest || atAny nameEnds rest) then some (String.ofList name, rest)
  else none

/-- The characters of a tag, besides those of names. -/
def uriMarks : List Char :=
  ";/?:@&=+$.!~*\x27()".toList

/-- Whether a character may stand in a tag; `verbatim` tags allow three more. -/
def isUriChar
    (verbatim : Bool)
    (c : Char) :
    Bool :=
  isNameChar c || uriMarks.contains c || (verbatim && [',', '[', ']'].contains c)

/-- The number of further bytes that a first byte of an encoded character announces. -/
def continuationCount? (b : Nat) : Option Nat :=
  if b < 0x80 then some 0
  else if 0xc0 ≤ b ∧ b < 0xe0 then some 1
  else if 0xe0 ≤ b ∧ b < 0xf0 then some 2
  else if 0xf0 ≤ b ∧ b < 0xf8 then some 3
  else none

/-- The bytes of a tag.  Bytes may be escaped by a percent sign and two digits, as long as the
escaped bytes make up whole characters; `due` counts the bytes that the current character still
lacks. -/
def readUri
    (verbatim : Bool)
    (due : Nat) :
    List Glyph → Option (List UInt8 × List Glyph)
  | [] => if due = 0 then some ([], []) else none
  | ⟨'%', _, _, _⟩ :: g₁ :: g₂ :: rest =>
      match Text.hexValue? g₁.char, Text.hexValue? g₂.char with
      | some d₁, some d₂ =>
          let b := 16 * d₁ + d₂
          match due with
          | 0 =>
              match continuationCount? b with
              | none => none
              | some n => (readUri verbatim n rest).map fun (bs, r) => (b.toUInt8 :: bs, r)
          | due + 1 =>
              if 0x80 ≤ b ∧ b < 0xc0 then
                (readUri verbatim due rest).map fun (bs, r) => (b.toUInt8 :: bs, r)
              else none
      | _, _ => none
  | g :: rest =>
      if g.char = '%' then none
      else if due ≠ 0 then none
      else if isUriChar verbatim g.char then
        (readUri verbatim 0 rest).map fun (bs, r) => (g.char.toNat.toUInt8 :: bs, r)
      else some ([], g :: rest)

/-- Bytes end at the first zero byte. -/
def beforeZero (bs : List UInt8) : List UInt8 :=
  bs.takeWhile (· != 0)

/-- A tag whose exclamation mark is read, in one of three forms: verbatim between angle
brackets; with a named handle between two exclamation marks; or with the primary handle.  A lone
exclamation mark has no handle. -/
def readWrittenTag (gs : List Glyph) : Option (WrittenTag × List Glyph) :=
  if atAny ['<'] gs then
    match readUri true 0 (gs.drop 1) with
    | some (b :: bs, rest) =>
        if atAny ['>'] rest then some (⟨"", beforeZero (b :: bs)⟩, rest.drop 1) else none
    | _ => none
  else
    let (name, rest) := takeRun isNameChar gs
    if atAny ['!'] rest then
      match readUri false 0 (rest.drop 1) with
      | some (b :: bs, rest') =>
          some (⟨"!" ++ String.ofList name ++ "!", beforeZero (b :: bs)⟩, rest')
      | _ => none
    else
      (readUri false 0 gs).map fun (bs, rest') =>
        match beforeZero bs with
        | [] => (⟨"", [0x21]⟩, rest')
        | b :: bs' => (⟨"!", b :: bs'⟩, rest')

/-- A tag with what must follow it: white space, or inside brackets a comma. -/
def readTag
    (flow : Bool)
    (gs : List Glyph) :
    Option (WrittenTag × List Glyph) :=
  (readWrittenTag gs).bind fun (t, rest) =>
    if atSpace rest || (flow && atAny [','] rest) then some (t, rest) else none

/-- A number of one to nine digits. -/
def readVersionNumber (gs : List Glyph) : Option (Nat × List Glyph) :=
  let (ds, rest) := takeRun Char.isDigit gs
  if !ds.isEmpty && ds.length ≤ 9 then
    some (ds.foldl (fun n d => 10 * n + Text.decimalValue d) 0, rest)
  else none

/-- The two numbers of a version directive. -/
def readVersion (gs : List Glyph) : Option (Token × List Glyph) :=
  (readVersionNumber (skipBlanks gs)).bind fun (major, rest) =>
    if atAny ['.'] rest then
      (readVersionNumber (rest.drop 1)).map fun (minor, rest') =>
        (.versionDirective major minor, rest')
    else none

/-- The handle of a tag directive: an exclamation mark, or a name between two. -/
def readHandle (gs : List Glyph) : Option (String × List Glyph) :=
  if atAny ['!'] gs then
    let (name, rest) := takeRun isNameChar (gs.drop 1)
    if atAny ['!'] rest then some ("!" ++ String.ofList name ++ "!", rest.drop 1)
    else if name.isEmpty then some ("!", rest)
    else none
  else none

/-- Whether a blank stands here. -/
def atBlank : List Glyph → Bool :=
  atAny [' ', '\t']

/-- The handle and the stem of a tag directive. -/
def readTagDirective (gs : List Glyph) : Option (Token × List Glyph) :=
  (readHandle (skipBlanks gs)).bind fun (handle, rest) =>
    if atBlank rest then
      match readUri true 0 (skipBlanks rest) with
      | some (b :: bs, rest') =>
          if atSpace rest' then some (.tagDirective handle (beforeZero (b :: bs)), rest') else none
      | _ => none
    else none

/-- A directive whose percent sign is read, up to the end of its line. -/
def readDirective (gs : List Glyph) : Option (Token × List Glyph) :=
  let (name, rest) := takeRun isNameChar gs
  let directive :=
    if !atSpace rest then none
    else if name = "YAML".toList then readVersion rest
    else if name = "TAG".toList then readTagDirective rest
    else none
  directive.bind fun (t, rest') => (finishLine? rest').map fun rest'' => (t, rest'')

end Yaml
end ChannelHeaders
