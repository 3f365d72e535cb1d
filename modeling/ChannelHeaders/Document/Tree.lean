import ChannelHeaders.Number.Basic

/-!
# Document trees

What a specification document says before it is read as a specification: a tree of
scalars, sequences and mappings.  Mappings list their entries in document order, keys are
trees themselves, and any node may be wrapped in a tag.

**Equality of keys.**  A mapping may not repeat a key.  Keys are compared by value within
their kind, mappings regardless of the order of their entries, and tags without their
leading exclamation mark.

**Results.**
* `peel_not_tagged`: looking through tags ends at a node without a tag.
-/

namespace ChannelHeaders
namespace Document

/-- A number of a document: finite, infinite, or not a number. -/
inductive ExtendedNumber where
  | finite (value : Number)
  | infinite (negative : Bool)
  | notANumber
deriving DecidableEq, Inhabited

namespace ExtendedNumber

/-- The text of a number of a document. -/
def text : ExtendedNumber → String
  | finite n => n.text .document
  | infinite negative => if negative then "-.inf" else ".inf"
  | notANumber => ".nan"

/-- Equality of values within one kind; what is not a number equals itself. -/
def sameValue : ExtendedNumber → ExtendedNumber → Bool
  | finite m, finite n => m.sameValue n
  | infinite a, infinite b => a == b
  | notANumber, notANumber => true
  | _, _ => false

end ExtendedNumber

/-- A document tree. -/
inductive Tree where
  | null
  | bool (value : Bool)
  | number (value : ExtendedNumber)
  | text (value : String)
  | sequence (items : List Tree)
  | mapping (entries : List (Tree × Tree))
  | tagged (tag : String) (value : Tree)
deriving Inhabited

namespace Tree

/-- A tag without its leading exclamation mark; a lone mark is kept. -/
def bareTag (tag : String) : String :=
  match tag.toList with
  | '!' :: c :: cs => String.ofList (c :: cs)
  | cs => String.ofList cs

mutual

/-- Whether two trees are equal as keys. -/
def same : Tree → Tree → Bool
  | null, null => true
  | bool a, bool b => a == b
  | number m, number n => m.sameValue n
  | text s, text t => s == t
  | sequence xs, sequence ys => sameItems xs ys
  | mapping xs, mapping ys => xs.length == ys.length && allAmong xs ys
  | tagged s x, tagged t y => bareTag s == bareTag t && same x y
  | _, _ => false

/-- Whether two lists of trees are equal item by item. -/
def sameItems : List Tree → List Tree → Bool
  | [], [] => true
  | x :: xs, y :: ys => same x y && sameItems xs ys
  | _, _ => false

/-- Whether every entry of the first mapping is one of the second. -/
def allAmong : List (Tree × Tree) → List (Tree × Tree) → Bool
  | [], _ => true
  | (k, v) :: xs, ys => ys.any (fun e => same k e.1 && same v e.2) && allAmong xs ys

end

/-- Whether no key of a mapping equals a later one. -/
def distinctKeys : List (Tree × Tree) → Bool
  | [] => true
  | (k, _) :: es => es.all (fun e => !same k e.1) && distinctKeys es

/-- The node behind all tags. -/
def peel : Tree → Tree
  | tagged _ t => peel t
  | t => t

/-- No tag is left behind all tags. -/
theorem peel_not_tagged
    (t : Tree)
    (tag : String)
    (u : Tree) :
    t.peel ≠ tagged tag u := by
  fun_induction peel t with
  | case1 _ t ih => exact ih
  | case2 t h => exact fun e => h tag u e

/-- The text of a string, number or boolean, behind all tags. -/
def scalar? (t : Tree) : Option String :=
  match t.peel with
  | text s => some s
  | number n => some n.text
  | bool b => some (if b then "true" else "false")
  | _ => none

/-- The value of the first entry whose key is this text, without a tag. -/
def field? (name : String) : List (Tree × Tree) → Option Tree
  | [] => none
  | (text s, v) :: es => if s = name then some v else field? name es
  | _ :: es => field? name es

end Tree
end Document
end ChannelHeaders
