import ChannelHeaders.Collection.Pairs
import ChannelHeaders.Yaml.Token

/-!
# Nodes

A YAML document is a tree of scalars, sequences and mappings in which any node may carry
an anchor and a tag, and an alias may stand for an anchored node.

**Reading.**  `Node.ofTokens?` reads the one document of a text from its tokens.  Missing
entries are empty plain scalars.  More than one document is an error; a text without any
document gives no node.
-/

namespace ChannelHeaders
namespace Yaml

/-- A tag as bytes, with its handle resolved. -/
abbrev Tag := List UInt8

/-- What may stand in front of a node. -/
structure Properties (α : Type) where
  /-- The name under which aliases refer to the node. -/
  anchor : Option α
  tag : Option Tag
deriving DecidableEq

/-- Nodes whose anchors are named by `α`. -/
inductive Node (α : Type) where
  | alias (name : α)
  | scalar (properties : Properties α) (text : String) (plain : Bool)
  | sequence (properties : Properties α) (items : List (Node α))
  | mapping (properties : Properties α) (entries : List (Node α × Node α))

/-- The tag handles in use, each with its stem. -/
abbrev Handles := List (String × List UInt8)

/-- The handles that need no directive. -/
def defaultHandles : Handles :=
  [("!", "!".toUTF8.data.toList), ("!!", "tag:yaml.org,2002:".toUTF8.data.toList)]

/-- Replaces the handle of a tag by its stem. -/
def resolveTag
    (handles : Handles)
    (t : WrittenTag) :
    Option Tag :=
  if t.handle = "" then some t.suffix
  else (Pairs.lookup t.handle handles).map (· ++ t.suffix)

namespace Node

/-- The node that stands where nothing is written. -/
def empty {α : Type} : Node α :=
  .scalar ⟨none, none⟩ "" true

/-- Reads an anchor and a tag, in either order, each at most once. -/
def readProperties (handles : Handles) : List Token → Option (Properties String × List Token)
  | .anchor a :: .tag t :: ts => (resolveTag handles t).map fun t => (⟨some a, some t⟩, ts)
  | .tag t :: .anchor a :: ts => (resolveTag handles t).map fun t => (⟨some a, some t⟩, ts)
  | .anchor a :: ts => some (⟨some a, none⟩, ts)
  | .tag t :: ts => (resolveTag handles t).map fun t => (⟨none, some t⟩, ts)
  | ts => some (⟨none, none⟩, ts)

/-- Whether the next token is one of those listed, or there is none. -/
def atEnd (ends : List Token) : List Token → Bool
  | [] => false
  | t :: _ => ends.contains t

/-- What a reader of nodes returns: what it read, and what follows. -/
abbrev Read (β : Type) := Option (β × List Token)

mutual

/-- A node.  `block` tells whether block collections may stand here, and `indentless` whether a
sequence may that is not indented beyond the key in front of it.  The number bounds the depth of
calls; `callBound` is enough, since at least every fourth call consumes a token. -/
def readNode (handles : Handles) : Nat → Bool → Bool → List Token → Read (Node String)
  | 0, _, _, _ => none
  | _, _, _, .alias name :: ts => some (.alias name, ts)
  | n + 1, block, indentless, ts =>
      (readProperties handles ts).bind fun (p, ts) =>
        match ts with
        | .blockEntry :: _ =>
            if indentless then
              (readIndentless handles n ts).map fun (items, ts) => (.sequence p items, ts)
            else bare p ts
        | .scalar text plain :: ts => some (.scalar p text plain, ts)
        | .flowSequenceStart :: ts =>
            (readFlowItems handles n true ts).map fun (items, ts) => (.sequence p items, ts)
        | .flowMappingStart :: ts =>
            (readFlowEntries handles n true ts).map fun (entries, ts) => (.mapping p entries, ts)
        | .blockSequenceStart :: ts' =>
            if block then
              (readBlockItems handles n ts').map fun (items, ts) => (.sequence p items, ts)
            else bare p ts
        | .blockMappingStart :: ts' =>
            if block then
              (readBlockEntries handles n ts').map fun (entries, ts) => (.mapping p entries, ts)
            else bare p ts
        | ts => bare p ts

/-- A node of which only the properties are written. -/
def bare
    (p : Properties String)
    (ts : List Token) :
    Read (Node String) :=
  if p = ⟨none, none⟩ then none else some (.scalar p "" true, ts)

/-- A node, or nothing in front of one of the tokens listed. -/
def readOptional (handles : Handles) :
    Nat → Bool → Bool → List Token → List Token → Read (Node String)
  | 0, _, _, _, _ => none
  | n + 1, block, indentless, ends, ts =>
      if atEnd ends ts then some (empty, ts) else readNode handles n block indentless ts

/-- The items of a block sequence, up to its end. -/
def readBlockItems (handles : Handles) : Nat → List Token → Read (List (Node String))
  | 0, _ => none
  | n + 1, .blockEntry :: ts =>
      (readOptional handles n true false [.blockEntry, .blockEnd] ts).bind fun (item, ts) =>
        (readBlockItems handles n ts).map fun (items, ts) => (item :: items, ts)
  | _, .blockEnd :: ts => some ([], ts)
  | _, _ => none

/-- The items of a sequence that is not indented beyond the key in front of it; the first token
that is no entry ends it. -/
def readIndentless (handles : Handles) : Nat → List Token → Read (List (Node String))
  | 0, _ => none
  | n + 1, .blockEntry :: ts =>
      (readOptional handles n true false [.blockEntry, .key, .value, .blockEnd] ts).bind
        fun (item, ts) =>
          (readIndentless handles n ts).map fun (items, ts) => (item :: items, ts)
  | _, ts => some ([], ts)

/-- The entries of a block mapping, up to its end. -/
def readBlockEntries (handles : Handles) :
    Nat → List Token → Read (List (Node String × Node String))
  | 0, _ => none
  | n + 1, .key :: ts =>
      (readOptional handles n true true [.key, .value, .blockEnd] ts).bind fun (key, ts) =>
        (readBlockValue handles n ts).bind fun (value, ts) =>
          (readBlockEntries handles n ts).map fun (entries, ts) => ((key, value) :: entries, ts)
  | _, .blockEnd :: ts => some ([], ts)
  | _, _ => none

/-- The value of an entry of a block mapping. -/
def readBlockValue (handles : Handles) : Nat → List Token → Read (Node String)
  | 0, _ => none
  | n + 1, .value :: ts => readOptional handles n true true [.key, .value, .blockEnd] ts
  | _, ts => some (empty, ts)

/-- The items of a sequence in brackets, up to its end, from the first one or from the comma in
front of another. -/
def readFlowItems (handles : Handles) : Nat → Bool → List Token → Read (List (Node String))
  | 0, _, _ => none
  | _, _, .flowSequenceEnd :: ts => some ([], ts)
  | n + 1, true, ts => readFlowItem handles n ts
  | n + 1, false, .flowEntry :: ts => readFlowItem handles n ts
  | _, false, _ => none

/-- An item of a sequence in brackets and those behind it.  A marked key makes the item a mapping
with one entry.  A comma may stand in front of the end. -/
def readFlowItem (handles : Handles) : Nat → List Token → Read (List (Node String))
  | 0, _ => none
  | _, .flowSequenceEnd :: ts => some ([], ts)
  | n + 1, .key :: ts =>
      (readPairKey handles n ts).bind fun (key, ts) =>
        (readFlowValue handles n [.flowEntry, .flowSequenceEnd] ts).bind fun (value, ts) =>
          (readFlowItems handles n false ts).map fun (items, ts) =>
            (.mapping ⟨none, none⟩ [(key, value)] :: items, ts)
  | n + 1, ts =>
      (readNode handles n false false ts).bind fun (item, ts) =>
        (readFlowItems handles n false ts).map fun (items, ts) => (item :: items, ts)

/-- The key of a mapping with one entry inside a sequence in brackets.  Where it is missing, the
token in its place is passed over. -/
def readPairKey (handles : Handles) : Nat → List Token → Read (Node String)
  | 0, _ => none
  | n + 1, ts =>
      if atEnd [.value, .flowEntry, .flowSequenceEnd] ts then some (empty, ts.drop 1)
      else readNode handles n false false ts

/-- The value of an entry in brackets. -/
def readFlowValue (handles : Handles) : Nat → List Token → List Token → Read (Node String)
  | 0, _, _ => none
  | n + 1, ends, .value :: ts => readOptional handles n false false ends ts
  | _, _, ts => some (empty, ts)

/-- The entries of a mapping in brackets, up to its end, from the first one or from the comma in
front of another. -/
def readFlowEntries (handles : Handles) :
    Nat → Bool → List Token → Read (List (Node String × Node String))
  | 0, _, _ => none
  | _, _, .flowMappingEnd :: ts => some ([], ts)
  | n + 1, true, ts => readFlowEntry handles n ts
  | n + 1, false, .flowEntry :: ts => readFlowEntry handles n ts
  | _, false, _ => none

/-- An entry of a mapping in brackets and those behind it.  A node that is not marked as a key is
one without a value.  A comma may stand in front of the end. -/
def readFlowEntry (handles : Handles) :
    Nat → List Token → Read (List (Node String × Node String))
  | 0, _ => none
  | _, .flowMappingEnd :: ts => some ([], ts)
  | n + 1, .key :: ts =>
      (readOptional handles n false false [.value, .flowEntry, .flowMappingEnd] ts).bind
        fun (key, ts) =>
          (readFlowValue handles n [.flowEntry, .flowMappingEnd] ts).bind fun (value, ts) =>
            (readFlowEntries handles n false ts).map fun (entries, ts) =>
              ((key, value) :: entries, ts)
  | n + 1, ts =>
      (readNode handles n false false ts).bind fun (key, ts) =>
        (readFlowEntries handles n false ts).map fun (entries, ts) => ((key, empty) :: entries, ts)

end

/-- The directives in front of a document: at most one version, which is 1.1 or 1.2, and no
handle twice. -/
def readDirectives
    (version : Bool)
    (handles : Handles) :
    List Token → Read Handles
  | .versionDirective major minor :: ts =>
      if !version && major = 1 && (minor = 1 || minor = 2) then readDirectives true handles ts
      else none
  | .tagDirective handle stem :: ts =>
      if (Pairs.lookup handle handles).isNone then
        readDirectives version ((handle, stem) :: handles) ts
      else none
  | ts => some (handles, ts)

/-- Whether the tokens go on with directives or a document start. -/
def atExplicitStart : List Token → Bool
  | .versionDirective _ _ :: _ => true
  | .tagDirective _ _ :: _ => true
  | .documentStart :: _ => true
  | _ => false

/-- A bound on the depth of calls of the reader: at most four for every token. -/
def callBound (ts : List Token) : Nat :=
  4 * ts.length + 4

/-- The content of a document behind its start mark. -/
def readContent
    (handles : Handles)
    (ts : List Token) :
    Read (Node String) :=
  match ts with
  | [] => some (empty, ts)
  | .documentEnd :: _ => some (empty, ts)
  | _ =>
      if atExplicitStart ts then some (empty, ts)
      else readNode handles (callBound ts) true false ts

/-- The first document. -/
def readDocument (ts : List Token) : Read (Node String) :=
  if atExplicitStart ts then
    (readDirectives false [] ts).bind fun (handles, ts) =>
      match ts with
      | .documentStart :: ts => readContent (handles ++ defaultHandles) ts
      | _ => none
  else readNode defaultHandles (callBound ts) true false ts

/-- The document of a text that holds at most one. -/
def ofTokens? (ts : List Token) : Option (Option (Node String)) :=
  if ts.isEmpty then some none
  else
    (readDocument ts).bind fun (node, rest) =>
      if rest.all (· = .documentEnd) then some (some node) else none

end Node
end Yaml
end ChannelHeaders
