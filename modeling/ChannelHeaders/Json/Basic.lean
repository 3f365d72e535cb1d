import ChannelHeaders.Collection.Pairs
import ChannelHeaders.Number.Basic

/-!
# JSON values

A JSON value as its text spells it: members of objects stand in the order of the text, and
a name may come more than once.  `settle` gives the value its usual reading, in which a
repeated name keeps its first place and its last value.

**Results.**
* `settle_eq_self`: a value without repeated names is left alone.
-/

namespace ChannelHeaders

/-- A JSON value. -/
inductive Json where
  | null
  | bool (value : Bool)
  | number (value : Number)
  | text (value : String)
  | array (items : List Json)
  | object (members : List (String × Json))
deriving Inhabited

namespace Json

mutual

/-- Keeps each name of every object once, at its first place, with its last value. -/
def settle : Json → Json
  | array items => array (settleItems items)
  | object members => object (Pairs.collect (settleMembers members))
  | j => j

/-- Settles the items of an array. -/
def settleItems : List Json → List Json
  | [] => []
  | x :: xs => settle x :: settleItems xs

/-- Settles the values of the members of an object. -/
def settleMembers : List (String × Json) → List (String × Json)
  | [] => []
  | (k, v) :: ms => (k, settle v) :: settleMembers ms

end

mutual

/-- No object repeats a name, at any depth. -/
def Settled : Json → Prop
  | array items => SettledItems items
  | object members => (Pairs.names members).Nodup ∧ SettledMembers members
  | _ => True

/-- No item of an array repeats a name. -/
def SettledItems : List Json → Prop
  | [] => True
  | x :: xs => Settled x ∧ SettledItems xs

/-- No value of a member of an object repeats a name. -/
def SettledMembers : List (String × Json) → Prop
  | [] => True
  | (_, v) :: ms => Settled v ∧ SettledMembers ms

end

mutual

/-- Decides whether a value repeats no name. -/
def decideSettled : (j : Json) → Decidable (Settled j)
  | null => isTrue trivial
  | bool _ => isTrue trivial
  | number _ => isTrue trivial
  | text _ => isTrue trivial
  | array items => decideSettledItems items
  | object members =>
      have := decideSettledMembers members
      inferInstanceAs (Decidable ((Pairs.names members).Nodup ∧ SettledMembers members))

/-- Decides whether the items of an array repeat no name. -/
def decideSettledItems : (items : List Json) → Decidable (SettledItems items)
  | [] => isTrue trivial
  | x :: xs =>
      have := decideSettled x
      have := decideSettledItems xs
      inferInstanceAs (Decidable (Settled x ∧ SettledItems xs))

/-- Decides whether the values of the members of an object repeat no name. -/
def decideSettledMembers : (members : List (String × Json)) → Decidable (SettledMembers members)
  | [] => isTrue trivial
  | (_, v) :: ms =>
      have := decideSettled v
      have := decideSettledMembers ms
      inferInstanceAs (Decidable (Settled v ∧ SettledMembers ms))

end

instance (j : Json) : Decidable (Settled j) :=
  decideSettled j

mutual

/-- The greatest number of arrays and objects around a part of the value, the part included. -/
def nesting : Json → Nat
  | array items => nestingItems items + 1
  | object members => nestingMembers members + 1
  | _ => 0

/-- The greatest nesting of the items of an array. -/
def nestingItems : List Json → Nat
  | [] => 0
  | x :: xs => max (nesting x) (nestingItems xs)

/-- The greatest nesting of the values of the members of an object. -/
def nestingMembers : List (String × Json) → Nat
  | [] => 0
  | (_, v) :: ms => max (nesting v) (nestingMembers ms)

end

theorem settledMembers_put
    {k : String}
    {v : Json}
    {ms : List (String × Json)}
    (hv : Settled v)
    (h : SettledMembers ms) :
    SettledMembers (Pairs.put k v ms) := by
  induction ms with
  | nil => exact ⟨hv, trivial⟩
  | cons m ms ih =>
      obtain ⟨k', v'⟩ := m
      by_cases hk : k' = k
      · rw [Pairs.put, if_pos hk]
        exact ⟨hv, h.2⟩
      · rw [Pairs.put, if_neg hk]
        exact ⟨h.1, ih h.2⟩

/-- Members stay settled when settled values are put among them. -/
theorem settledMembers_putAll {ms : List (String × Json)} :
    ∀ {acc : List (String × Json)}, SettledMembers ms → SettledMembers acc →
      SettledMembers (Pairs.putAll acc ms) := by
  induction ms with
  | nil => exact fun _ h => h
  | cons m ms ih => exact fun h hacc => ih h.2 (settledMembers_put h.1 hacc)

mutual

/-- A value without repeated names is left alone. -/
theorem settle_eq_self
    {j : Json}
    (h : Settled j) :
    settle j = j := by
  cases j with
  | array items => rw [settle, settleItems_eq_self h]
  | object members =>
      rw [settle, settleMembers_eq_self h.2, Pairs.collect_eq_self h.1]
  | _ => rfl

theorem settleItems_eq_self
    {items : List Json}
    (h : SettledItems items) :
    settleItems items = items := by
  cases items with
  | nil => rfl
  | cons x xs => rw [settleItems, settle_eq_self h.1, settleItems_eq_self h.2]

theorem settleMembers_eq_self
    {members : List (String × Json)}
    (h : SettledMembers members) :
    settleMembers members = members := by
  cases members with
  | nil => rfl
  | cons m ms => rw [settleMembers, settle_eq_self h.1, settleMembers_eq_self h.2]

end

end Json
end ChannelHeaders
