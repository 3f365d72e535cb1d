import ChannelHeaders.Json.Basic
import ChannelHeaders.Json.Token

/-!
# JSON values as texts

**Writing.**  The compact text of a value is the text of its tokens, with nothing between
them.

**Reading.**  The tokens of a text drive a machine that keeps the arrays and objects that
are open and knows what may come next.  The text must hold one value and nothing else,
and at most 127 arrays and objects may be open at once.

**Results.**
* `run_append`: the machine reads two runs of tokens one after the other.
-/

namespace ChannelHeaders
namespace Json

mutual

/-- The tokens that spell a value. -/
def tokens : Json → List Token
  | null => [.null]
  | bool b => [.bool b]
  | number n => [.number n]
  | text s => [.text s]
  | array [] => [.beginArray, .endArray]
  | array (x :: xs) => .beginArray :: (tokens x ++ tokensOfItems xs)
  | object [] => [.beginObject, .endObject]
  | object ((k, v) :: ms) => .beginObject :: .text k :: .colon :: (tokens v ++ tokensOfMembers ms)

/-- The tokens of the items behind the first, up to the end of the array. -/
def tokensOfItems : List Json → List Token
  | [] => [.endArray]
  | x :: xs => .comma :: (tokens x ++ tokensOfItems xs)

/-- The tokens of the members behind the first, up to the end of the object. -/
def tokensOfMembers : List (String × Json) → List Token
  | [] => [.endObject]
  | (k, v) :: ms => .comma :: .text k :: .colon :: (tokens v ++ tokensOfMembers ms)

end

/-- The compact text of a value. -/
def compact (j : Json) : String :=
  String.ofList (j.tokens.flatMap Token.spell)

/-- An array or object that is open, with what is complete in it, the last one first. -/
inductive Frame where
  | items (done : List Json)
  /-- An object behind the name of a member whose value is not complete. -/
  | members (done : List (String × Json)) (name : String)

/-- What may come next. -/
inductive Place where
  | value
  /-- The first item of an array, or its end. -/
  | firstItem
  /-- The name of the first member of an object, or the end of the object. -/
  | firstName
  /-- The name of a member behind those that are complete. -/
  | name (done : List (String × Json))
  /-- The colon behind a name. -/
  | colon (done : List (String × Json)) (name : String)
  /-- What follows a complete value. -/
  | after (value : Json)

/-- What the machine has read: the open arrays and objects, the innermost first, and what may come
next. -/
structure Reading where
  /-- The open arrays and objects whose next part is a value. -/
  frames : List Frame
  /-- What may come next. -/
  place : Place

/-- The greatest number of arrays and objects that may be open at once. -/
def maxOpen : Nat :=
  127

/-- Reads the first token of a value. -/
def stepValue (frames : List Frame) : Token → Option Reading
  | .null => some ⟨frames, .after null⟩
  | .bool b => some ⟨frames, .after (bool b)⟩
  | .number n => some ⟨frames, .after (number n)⟩
  | .text s => some ⟨frames, .after (text s)⟩
  | .beginArray =>
      if frames.length < maxOpen then some ⟨.items [] :: frames, .firstItem⟩ else none
  | .beginObject =>
      if frames.length < maxOpen then some ⟨frames, .firstName⟩ else none
  | _ => none

/-- Reads the token behind a complete value. -/
def stepAfter (value : Json) : List Frame → Token → Option Reading
  | .items done :: frames, .comma => some ⟨.items (value :: done) :: frames, .value⟩
  | .items done :: frames, .endArray => some ⟨frames, .after (array (value :: done).reverse)⟩
  | .members done name :: frames, .comma => some ⟨frames, .name ((name, value) :: done)⟩
  | .members done name :: frames, .endObject =>
      some ⟨frames, .after (object ((name, value) :: done).reverse)⟩
  | _, _ => none

/-- Reads one token. -/
def step
    (r : Reading)
    (t : Token) :
    Option Reading :=
  match r.place, t with
  | .value, t => stepValue r.frames t
  | .firstItem, .endArray =>
      match r.frames with
      | .items _ :: frames => some ⟨frames, .after (array [])⟩
      | _ => none
  | .firstItem, t => stepValue r.frames t
  | .firstName, .text s => some ⟨r.frames, .colon [] s⟩
  | .firstName, .endObject => some ⟨r.frames, .after (object [])⟩
  | .name done, .text s => some ⟨r.frames, .colon done s⟩
  | .colon done name, .colon => some ⟨.members done name :: r.frames, .value⟩
  | .after value, t => stepAfter value r.frames t
  | _, _ => none

/-- Reads tokens one after another. -/
def run (r : Reading) : List Token → Option Reading
  | [] => some r
  | t :: ts => (step r t).bind fun r => run r ts

/-- Tokens in a row are read from where the earlier ones lead. -/
theorem run_append
    (r : Reading)
    (ts us : List Token) :
    run r (ts ++ us) = (run r ts).bind fun r => run r us := by
  induction ts generalizing r with
  | nil => rfl
  | cons t ts ih =>
      rw [List.cons_append, run, run, Option.bind_assoc]
      exact congrArg _ (funext ih)

/-- The value that is read when nothing is open and a value is complete. -/
def Reading.value? (r : Reading) : Option Json :=
  match r.frames, r.place with
  | [], .after j => some j
  | _, _ => none

/-- The value that a list of tokens spells. -/
def ofTokens? (ts : List Token) : Option Json :=
  (run ⟨[], .value⟩ ts).bind Reading.value?

/-- The value of a text. -/
def parse? (text : String) : Option Json :=
  (tokens? text.toList).bind ofTokens?

/-- The value of a text given as bytes, which must be UTF-8. -/
def decode? (bytes : ByteArray) : Option Json :=
  (String.fromUTF8? bytes).bind parse?

end Json
end ChannelHeaders
