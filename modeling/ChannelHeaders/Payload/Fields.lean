import ChannelHeaders.Collection.OrderedMap
import ChannelHeaders.Payload.Value

/-!
# Payload fields

The fields of one outgoing message, in the order of the payload.  They are set one by
one, or decoded from the text of a JSON object.

**Errors.**  A payload may not be JSON, or may be another value than an object.

**Results.**
* `replace_fst`: setting a field returns what it held before.
-/

namespace ChannelHeaders
namespace Payload

/-- The fields of a payload by name, in order of first insertion. -/
abbrev Fields := OrderedMap Value

/-- The kinds of JSON value that are no objects. -/
inductive OtherKind where
  | null
  | boolean
  | number
  | string
  | array
deriving DecidableEq

/-- The words for a kind of JSON value. -/
def OtherKind.text : OtherKind → String
  | null => "null"
  | boolean => "a boolean"
  | number => "a number"
  | string => "a string"
  | array => "an array"

/-- Why a payload has no fields. -/
inductive DecodeError where
  /-- It is not JSON. -/
  | notJson
  /-- It is JSON, but no object. -/
  | notAnObject (found : OtherKind)
deriving DecidableEq

/-- The message of a decoding error. -/
def DecodeError.message : DecodeError → String
  | notJson => "payload is not valid JSON"
  | notAnObject found => "payload must be a JSON object, found " ++ found.text

namespace Fields

/-- The fields of a JSON object. -/
def ofJson : Json → Except DecodeError Fields
  | .object members => .ok (.ofList (Value.ofMembers members))
  | .null => .error (.notAnObject .null)
  | .bool _ => .error (.notAnObject .boolean)
  | .number _ => .error (.notAnObject .number)
  | .text _ => .error (.notAnObject .string)
  | .array _ => .error (.notAnObject .array)

/-- The fields of a payload given as bytes.  A name that repeats, at any depth, keeps its first
place and its last value. -/
def decode (payload : ByteArray) : Except DecodeError Fields :=
  match Json.decode? payload with
  | none => .error .notJson
  | some j => ofJson j.settle

/-- Sets a field, and returns what it held before. -/
def replace
    (name : String)
    (value : Value)
    (fields : Fields) :
    Option Value × Fields :=
  (fields.get? name, fields.insert name value)

/-- Whether two payloads have equal fields in the same order. -/
def same (a b : Fields) : Bool :=
  Value.sameEntries a.entries b.entries

/-- Setting a field returns what it held before. -/
theorem replace_fst
    (name : String)
    (value : Value)
    (fields : Fields) :
    (replace name value fields).1 = fields.get? name :=
  rfl

end Fields
end Payload
end ChannelHeaders
