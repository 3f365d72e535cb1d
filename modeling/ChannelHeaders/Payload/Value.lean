import ChannelHeaders.Json.Text

/-!
# Payload values

A payload is made of nulls, booleans, numbers, strings, sequences and mappings.  A mapping
lists its entries in order and may hold a name more than once when it was not read from a
text.

**Results.**
* `toJson_ofJson`: a JSON value comes back settled from the way through a payload value.
* `ofJson_toJson`: a payload value comes back settled from the way through JSON.
-/

namespace ChannelHeaders
namespace Payload

/-- A payload value. -/
inductive Value where
  | null
  | bool (value : Bool)
  | number (value : Number)
  | text (value : String)
  | sequence (items : List Value)
  | mapping (entries : List (String × Value))
deriving Inhabited

namespace Value

mutual

/-- The payload value of a JSON value. -/
def ofJson : Json → Value
  | .null => null
  | .bool b => bool b
  | .number n => number n
  | .text s => text s
  | .array items => sequence (ofItems items)
  | .object members => mapping (ofMembers members)

/-- The payload values of the items of an array. -/
def ofItems : List Json → List Value
  | [] => []
  | x :: xs => ofJson x :: ofItems xs

/-- The payload values of the members of an object. -/
def ofMembers : List (String × Json) → List (String × Value)
  | [] => []
  | (k, v) :: ms => (k, ofJson v) :: ofMembers ms

end

mutual

/-- The JSON value of a payload value; a repeated name keeps its first place and its last value. -/
def toJson : Value → Json
  | null => .null
  | bool b => .bool b
  | number n => .number n
  | text s => .text s
  | sequence items => .array (toItems items)
  | mapping entries => .object (Pairs.collect (toMembers entries))

/-- The JSON values of the items of a sequence. -/
def toItems : List Value → List Json
  | [] => []
  | x :: xs => toJson x :: toItems xs

/-- The JSON values of the entries of a mapping, in order. -/
def toMembers : List (String × Value) → List (String × Json)
  | [] => []
  | (k, v) :: es => (k, toJson v) :: toMembers es

end

mutual

/-- Keeps each name of every mapping once, at its first place, with its last value. -/
def settle : Value → Value
  | sequence items => sequence (settleItems items)
  | mapping entries => mapping (Pairs.collect (settleEntries entries))
  | v => v

/-- Settles the items of a sequence. -/
def settleItems : List Value → List Value
  | [] => []
  | x :: xs => settle x :: settleItems xs

/-- Settles the values of the entries of a mapping. -/
def settleEntries : List (String × Value) → List (String × Value)
  | [] => []
  | (k, v) :: es => (k, settle v) :: settleEntries es

end

mutual

/-- Whether two values are equal: numbers by value within their kind, and mappings entry by
entry. -/
def same : Value → Value → Bool
  | null, null => true
  | bool a, bool b => a == b
  | number m, number n => m.sameValue n
  | text s, text t => s == t
  | sequence xs, sequence ys => sameItems xs ys
  | mapping xs, mapping ys => sameEntries xs ys
  | _, _ => false

/-- Whether two lists of values are equal item by item. -/
def sameItems : List Value → List Value → Bool
  | [], [] => true
  | x :: xs, y :: ys => same x y && sameItems xs ys
  | _, _ => false

/-- Whether two lists of entries are equal entry by entry. -/
def sameEntries : List (String × Value) → List (String × Value) → Bool
  | [], [] => true
  | (j, x) :: xs, (k, y) :: ys => j == k && same x y && sameEntries xs ys
  | _, _ => false

end

/-- The text that a value contributes to a header: nothing for null, the plain text of a scalar,
and compact JSON for sequences and mappings. -/
def headerText : Value → String
  | null => ""
  | bool b => if b then "true" else "false"
  | number n => n.text .payload
  | text s => s
  | sequence items => (toJson (sequence items)).compact
  | mapping entries => (toJson (mapping entries)).compact

/-- An integer as a payload value. -/
def ofWord (w : Word) : Value :=
  number (.integer w)

mutual

/-- A JSON value comes back settled from the way through a payload value. -/
theorem toJson_ofJson (j : Json) : toJson (ofJson j) = j.settle := by
  cases j with
  | array items => rw [ofJson, toJson, Json.settle, toItems_ofItems items]
  | object members => rw [ofJson, toJson, Json.settle, toMembers_ofMembers members]
  | _ => rfl

theorem toItems_ofItems (items : List Json) : toItems (ofItems items) = Json.settleItems items := by
  cases items with
  | nil => rfl
  | cons x xs => rw [ofItems, toItems, Json.settleItems, toJson_ofJson x, toItems_ofItems xs]

theorem toMembers_ofMembers (members : List (String × Json)) :
    toMembers (ofMembers members) = Json.settleMembers members := by
  cases members with
  | nil => rfl
  | cons m ms =>
      rw [ofMembers, toMembers, Json.settleMembers, toJson_ofJson m.2, toMembers_ofMembers ms]

end

/-- Putting a member commutes with the conversion. -/
theorem ofMembers_put
    (k : String)
    (v : Json)
    (ms : List (String × Json)) :
    ofMembers (Pairs.put k v ms) = Pairs.put k (ofJson v) (ofMembers ms) := by
  induction ms with
  | nil => rfl
  | cons m ms ih =>
      obtain ⟨k', v'⟩ := m
      by_cases h : k' = k
      · simp [Pairs.put, ofMembers, h]
      · simp [Pairs.put, ofMembers, h, ih]

theorem ofMembers_putAll (ms : List (String × Json)) :
    ∀ acc, ofMembers (Pairs.putAll acc ms) = Pairs.putAll (ofMembers acc) (ofMembers ms) := by
  induction ms with
  | nil => exact fun _ => rfl
  | cons m ms ih =>
      intro acc
      refine (ih _).trans ?_
      rw [ofMembers_put]
      rfl

mutual

/-- A payload value comes back settled from the way through JSON. -/
theorem ofJson_toJson (v : Value) : ofJson (toJson v) = settle v := by
  cases v with
  | sequence items => rw [toJson, ofJson, settle, ofItems_toItems items]
  | mapping entries =>
      rw [toJson, ofJson, settle, Pairs.collect, ofMembers_putAll, ofMembers_toMembers entries]
      rfl
  | _ => rfl

theorem ofItems_toItems (items : List Value) : ofItems (toItems items) = settleItems items := by
  cases items with
  | nil => rfl
  | cons x xs => rw [toItems, ofItems, settleItems, ofJson_toJson x, ofItems_toItems xs]

theorem ofMembers_toMembers (entries : List (String × Value)) :
    ofMembers (toMembers entries) = settleEntries entries := by
  cases entries with
  | nil => rfl
  | cons e es =>
      rw [toMembers, ofMembers, settleEntries, ofJson_toJson e.2, ofMembers_toMembers es]

end

end Value
end Payload
end ChannelHeaders
