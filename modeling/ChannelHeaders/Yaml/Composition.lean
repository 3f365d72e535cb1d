import ChannelHeaders.Text.ByteOrder
import ChannelHeaders.Yaml.Layout
import ChannelHeaders.Yaml.Node
import ChannelHeaders.Yaml.Scalar

/-!
# From nodes to document trees

**Anchors.**  Anchors are numbered in the order of the text by how many names are known
when they come.  A name that is used again therefore takes a number without adding a name,
and the next new name takes the same number; the later node then stands for both.

**Aliases** are replaced by copies of their nodes.  To keep copies within bounds, a document
may follow at most one hundred aliases for each of its events, where a collection counts as
two events and any other node as one.  Collections may be nested 128 deep.

**Tags.**  A tag that starts with an exclamation mark wraps the node, which is then read as
if it had no tag.  The tags of the four basic kinds of scalar demand that kind.  Any other
tag makes a scalar a text.
-/

namespace ChannelHeaders
namespace Yaml

open Document

/-- The names of anchors seen so far, each with its number. -/
abbrev AnchorNames := List (String × Nat)

namespace Node

/-- Numbers an anchor. -/
def numberAnchor (p : Properties String) : StateT AnchorNames Option (Properties Nat) := do
  match p.anchor with
  | none => return ⟨none, p.tag⟩
  | some a =>
      let names ← get
      set (Pairs.put a names.length names)
      return ⟨some names.length, p.tag⟩

mutual

/-- Numbers the anchors of a node and resolves its aliases to these numbers. -/
def number : Node String → StateT AnchorNames Option (Node Nat)
  | .alias name => fun names => (Pairs.lookup name names).map fun i => (.alias i, names)
  | .scalar p text plain => do return .scalar (← numberAnchor p) text plain
  | .sequence p items => do
      let p ← numberAnchor p
      return .sequence p (← numberItems items)
  | .mapping p entries => do
      let p ← numberAnchor p
      return .mapping p (← numberEntries entries)

/-- Numbers the anchors of the items of a sequence. -/
def numberItems : List (Node String) → StateT AnchorNames Option (List (Node Nat))
  | [] => return []
  | x :: xs => do
      let x ← number x
      return x :: (← numberItems xs)

/-- Numbers the anchors of the entries of a mapping. -/
def numberEntries :
    List (Node String × Node String) → StateT AnchorNames Option (List (Node Nat × Node Nat))
  | [] => return []
  | (k, v) :: es => do
      let k ← number k
      let v ← number v
      return (k, v) :: (← numberEntries es)

end

/-- The properties of a node that is no alias. -/
def properties? {α : Type} : Node α → Option (Properties α)
  | .alias _ => none
  | .scalar p _ _ => some p
  | .sequence p _ => some p
  | .mapping p _ => some p

mutual

/-- All nodes inside a node and the node itself, in the order of the text. -/
def nodes {α : Type} : Node α → List (Node α)
  | .sequence p items => .sequence p items :: nodesOfItems items
  | .mapping p entries => .mapping p entries :: nodesOfEntries entries
  | x => [x]

/-- All nodes inside the items of a sequence. -/
def nodesOfItems {α : Type} : List (Node α) → List (Node α)
  | [] => []
  | x :: xs => nodes x ++ nodesOfItems xs

/-- All nodes inside the entries of a mapping. -/
def nodesOfEntries {α : Type} : List (Node α × Node α) → List (Node α)
  | [] => []
  | (k, v) :: es => nodes k ++ nodes v ++ nodesOfEntries es

end

/-- The number of events of a node by itself. -/
def eventCount {α : Type} : Node α → Nat
  | .sequence _ _ => 2
  | .mapping _ _ => 2
  | _ => 1

/-- The anchored nodes inside a node, the last one first. -/
def anchored (root : Node Nat) : List (Nat × Node Nat) :=
  (root.nodes.filterMap fun x => (x.properties?.bind Properties.anchor).map fun i => (i, x)).reverse

end Node

/-- The meaning of a tag. -/
inductive TagMeaning where
  /-- Wraps the node under a name. -/
  | wrap (name : String)
  /-- Demands a kind of scalar. -/
  | demand (kind : Scalar.Demand)
  /-- Says nothing: the node is read as if it had no tag. -/
  | ignored
  /-- Makes a scalar a text. -/
  | text

/-- What the tags of the basic kinds of scalar start with. -/
def basicStem : String :=
  "tag:yaml.org,2002:"

/-- The kinds that the tags of the basic kinds demand. -/
def demands : List (String × Scalar.Demand) :=
  [("bool", .bool), ("int", .integer), ("float", .float), ("null", .null)]

/-- The name of a tag that is only an exclamation mark. -/
def loneMark : Tag :=
  [0x21]

/-- The meaning of a tag.  One that starts with an exclamation mark wraps the node under what
follows the mark, or under the mark itself when nothing does; when that is no text, the tag is
ignored. -/
def meaningOfTag (t : Tag) : TagMeaning :=
  match t with
  | 0x21 :: name =>
      match String.fromUTF8? ⟨(if name.isEmpty then loneMark else name).toArray⟩ with
      | some s => .wrap s
      | none => .ignored
  | _ =>
      match demands.find? fun d => Text.bytes (basicStem ++ d.1) = t with
      | some d => .demand d.2
      | none => .text

/-- The greatest depth of nested collections. -/
def maxNesting : Nat :=
  128

/-- The number of aliases that may be followed for each event. -/
def aliasesPerEvent : Nat :=
  100

/-- Counts the aliases followed, and may fail. -/
abbrev Composing := StateT Nat Option

/-- What the readers of nodes look up: the node of an anchor, and how many aliases may be
followed. -/
structure Anchors where
  nodes : List (Nat × Node Nat)
  /-- The greatest number of aliases that may be followed. -/
  budget : Nat

/-- The node that an alias stands for. -/
def Anchors.follow
    (anchors : Anchors)
    (i : Nat) :
    Composing (Node Nat) := fun followed =>
  if followed < anchors.budget then
    (anchors.nodes.find? fun e => e.1 = i).map fun e => (e.2, followed + 1)
  else none

/-- The tree of a scalar behind its wrapping tag. -/
def scalarTree?
    (tag : Option Tag)
    (text : String)
    (plain : Bool) :
    Option Tree :=
  match tag.map meaningOfTag with
  | some (.demand kind) => Scalar.demandedTree? text kind
  | some .text => some (.text text)
  | _ => if plain then Scalar.plainTree? text else some (.text text)

/-- The tree of a node that is no alias, behind its wrapping tag; `inner` is the reader one level
deeper, if there may be one. -/
def contentTree (inner : Option (Node Nat → Composing Tree)) : Node Nat → Composing Tree
  | .alias _ => fun _ => none
  | .scalar p text plain => fun followed =>
      (scalarTree? p.tag text plain).map fun t => (t, followed)
  | .sequence _ items =>
      match inner with
      | none => fun _ => none
      | some read => do return .sequence (← items.mapM read)
  | .mapping _ entries =>
      match inner with
      | none => fun _ => none
      | some read => do
          let entries ← entries.mapM fun (k, v) => do
            let k ← read k
            return (k, ← read v)
          if Tree.distinctKeys entries then return .mapping entries else fun _ => none

/-- The tree of a node. -/
def nodeTree
    (anchors : Anchors)
    (inner : Option (Node Nat → Composing Tree))
    (node : Node Nat) :
    Composing Tree := do
  let node ←
    match node with
    | .alias i => anchors.follow i
    | _ => pure node
  let content ← contentTree inner node
  match (node.properties?.bind Properties.tag).map meaningOfTag with
  | some (.wrap name) => return .tagged name content
  | _ => return content

/-- The tree of a node inside which collections may be nested to a given depth. -/
def treeWithin (anchors : Anchors) : Nat → Node Nat → Composing Tree
  | 0 => nodeTree anchors none
  | depth + 1 => nodeTree anchors (some (treeWithin anchors depth))

/-- The document tree of a node. -/
def Node.tree? (root : Node String) : Option Tree :=
  (Node.number root []).bind fun (root, _) =>
    let events := root.nodes.foldl (fun n x => n + x.eventCount) 0
    let anchors : Anchors := ⟨root.anchored, aliasesPerEvent * events⟩
    (treeWithin anchors maxNesting root 0).map Prod.fst

/-- The document tree of a YAML text; a text without a document is null. -/
def documentTree? (text : String) : Option Tree :=
  (glyphs? text.toList).bind fun gs =>
    (tokens? gs).bind fun ts =>
      (Node.ofTokens? ts).bind fun root => root.elim (some .null) Node.tree?

end Yaml
end ChannelHeaders
