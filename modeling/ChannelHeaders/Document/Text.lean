import ChannelHeaders.Document.Tree
import ChannelHeaders.Json.Text
import ChannelHeaders.Yaml.Composition

/-!
# Documents as bytes

A document whose first visible byte is an opening brace is read as JSON.  When that fails,
and for all other documents, it is read as YAML.  A JSON document may not repeat a name in
any object.

**Results.**
* `read_of_not_brace`, `read_of_json`, `read_of_not_json`: which reader decides.
-/

namespace ChannelHeaders
namespace Document

mutual

/-- The tree of a JSON value. -/
def Tree.ofJson : Json → Tree
  | .null => .null
  | .bool b => .bool b
  | .number n => .number (.finite n)
  | .text s => .text s
  | .array items => .sequence (ofJsonItems items)
  | .object members => .mapping (ofJsonMembers members)

/-- The trees of the items of an array. -/
def Tree.ofJsonItems : List Json → List Tree
  | [] => []
  | x :: xs => Tree.ofJson x :: Tree.ofJsonItems xs

/-- The entries of the members of an object. -/
def Tree.ofJsonMembers : List (String × Json) → List (Tree × Tree)
  | [] => []
  | (k, v) :: ms => (.text k, Tree.ofJson v) :: Tree.ofJsonMembers ms

end

/-- The tree of a JSON document. -/
def fromJson? (bytes : ByteArray) : Option Tree :=
  ((Json.decode? bytes).filter fun j => j.Settled).map Tree.ofJson

/-- The tree of a YAML document. -/
def fromYaml? (bytes : ByteArray) : Option Tree :=
  (String.fromUTF8? bytes).bind Yaml.documentTree?

/-- The bytes in front of the first visible one: space, tab, line feed, form feed and carriage
return. -/
def isBlankByte (b : UInt8) : Bool :=
  b == 0x20 || b == 0x09 || b == 0x0a || b == 0x0c || b == 0x0d

/-- Whether the first visible byte is an opening brace. -/
def startsWithBrace (bytes : ByteArray) : Bool :=
  bytes.data.toList.find? (!isBlankByte ·) == some 0x7b

/-- Why a document has no tree. -/
inductive Malformed where
  /-- It is not YAML. -/
  | yaml
  /-- It starts like JSON and is neither JSON nor YAML. -/
  | json
deriving DecidableEq

/-- The tree of a document. -/
def read (bytes : ByteArray) : Except Malformed Tree :=
  if startsWithBrace bytes then
    match fromJson? bytes with
    | some t => .ok t
    | none =>
        match fromYaml? bytes with
        | some t => .ok t
        | none => .error .json
  else
    match fromYaml? bytes with
    | some t => .ok t
    | none => .error .yaml

/-- Without an opening brace only YAML counts. -/
theorem read_of_not_brace
    {bytes : ByteArray}
    (h : startsWithBrace bytes = false) :
    read bytes = (fromYaml? bytes).elim (.error .yaml) .ok := by
  rw [read, h]
  cases fromYaml? bytes <;> rfl

theorem read_of_json
    {bytes : ByteArray}
    {t : Tree}
    (h : startsWithBrace bytes = true)
    (hj : fromJson? bytes = some t) :
    read bytes = .ok t := by
  simp [read, h, hj]

/-- With an opening brace, YAML counts when the text is no JSON. -/
theorem read_of_not_json
    {bytes : ByteArray}
    (h : startsWithBrace bytes = true)
    (hj : fromJson? bytes = none) :
    read bytes = (fromYaml? bytes).elim (.error .json) .ok := by
  cases hy : fromYaml? bytes <;> simp [read, h, hj, hy]

end Document
end ChannelHeaders
