import ChannelHeaders.Proofs.HeaderTexts

/-!
# Payload values as JSON values and back

A JSON value in memory never repeats a name, while a payload value may, since a mapping can
be put together from any pairs.  The way from JSON to payload values and back changes
nothing.  The other way round settles the value: at every depth a name keeps its first
place and the settled value of its last occurrence, and the values of the others are
dropped, whatever they hold.

What settling does is stated as a relation between a value and its reduction, with one rule
for each kind of value, and compared with the two ways.  Settling is never seen in a
header, because the text is that of the JSON value.

**Results.**
* `reduces_iff`: a value has one reduction, the settled value.
* `ofJson_settle`: settling before or after the conversion comes to the same.
* `settle_eq_self_iff`: the values that settling leaves alone.
* `headerText_settle`: settling keeps the text.
* `conversion_lossless`: all of it.
-/

namespace ChannelHeaders
namespace Payload
namespace Value

section Reductions

/-- The value with each name of every mapping once, at its first place, with the reduction of its
last value. -/
inductive Reduces : Value → Value → Prop
  | null : Reduces .null .null
  | bool (b : Bool) : Reduces (.bool b) (.bool b)
  | number (n : Number) : Reduces (.number n) (.number n)
  | text (s : String) : Reduces (.text s) (.text s)
  | sequence
      {xs ys : List Value}
      (h : List.Forall₂ Reduces xs ys) :
      Reduces (.sequence xs) (.sequence ys)
  | mapping
      {entries kept : List (String × Value)}
      (hnames : Pairs.names kept = (Pairs.names entries).eraseDups)
      (hvalues : ∀ name v w,
        Pairs.last? name entries = some v → Pairs.lookup name kept = some w → Reduces v w) :
      Reduces (.mapping entries) (.mapping kept)

theorem settleEntries_eq_map (entries : List (String × Value)) :
    settleEntries entries = entries.map fun e => (e.1, settle e.2) := by
  induction entries with
  | nil => rfl
  | cons e es ih => rw [settleEntries, ih, List.map_cons]

/-- The names and values of a settled mapping. -/
theorem collect_settleEntries (entries : List (String × Value)) :
    Pairs.names (Pairs.collect (settleEntries entries)) = (Pairs.names entries).eraseDups ∧
      ∀ name, Pairs.lookup name (Pairs.collect (settleEntries entries)) =
        (Pairs.last? name entries).map settle := by
  constructor
  · rw [Pairs.names_collect, settleEntries_eq_map, Pairs.names_map]
  · intro name
    rw [Pairs.lookup_collect, settleEntries_eq_map, Pairs.last?_map]

/-- A settled mapping is the reduction when its values are. -/
theorem reduces_mapping
    {entries : List (String × Value)}
    (h : ∀ e ∈ entries, Reduces e.2 e.2.settle) :
    Reduces (mapping entries) (mapping entries).settle := by
  obtain ⟨hnames, hvalues⟩ := collect_settleEntries entries
  refine .mapping hnames ?_
  intro name v w hlast hw
  rw [hvalues, hlast, Option.map_some] at hw
  cases hw
  exact h (name, v) (Pairs.mem_of_last? hlast)

mutual

theorem reduces_settle (v : Value) : Reduces v v.settle := by
  cases v with
  | null => exact .null
  | bool b => exact .bool b
  | number n => exact .number n
  | text s => exact .text s
  | sequence items => exact .sequence (forall₂_settleItems items)
  | mapping entries => exact reduces_mapping (reduces_settleEntries entries)
termination_by structural v

theorem forall₂_settleItems (items : List Value) :
    List.Forall₂ Reduces items (settleItems items) := by
  cases items with
  | nil => exact .nil
  | cons x xs => exact .cons (reduces_settle x) (forall₂_settleItems xs)
termination_by structural items

theorem reduces_settleEntries (entries : List (String × Value)) :
    ∀ e ∈ entries, Reduces e.2 e.2.settle := by
  cases entries with
  | nil => exact fun _ h => nomatch h
  | cons e es => exact List.forall_mem_cons.mpr ⟨reduces_settle e.2, reduces_settleEntries es⟩
termination_by structural entries

end

/-- A mapping has one reduction when its values have. -/
theorem eq_settle_mapping
    {entries kept : List (String × Value)}
    (h : ∀ e ∈ entries, ∀ w, Reduces e.2 w → w = e.2.settle)
    (hnames : Pairs.names kept = (Pairs.names entries).eraseDups)
    (hvalues : ∀ name v w,
      Pairs.last? name entries = some v → Pairs.lookup name kept = some w → Reduces v w) :
    mapping kept = (mapping entries).settle := by
  obtain ⟨hsettled, hlookup⟩ := collect_settleEntries entries
  have hnodup : (Pairs.names kept).Nodup := by
    rw [hnames, ← hsettled]
    exact Pairs.nodup_collect _
  refine congrArg mapping (Pairs.eq_of_lookup hnodup (hnames.trans hsettled.symm) ?_)
  intro name
  rw [hlookup]
  have hpresent : Pairs.lookup name kept = none ↔ Pairs.last? name entries = none := by
    rw [Pairs.lookup_eq_none_iff, hnames, List.mem_eraseDups, Pairs.last?_eq_none_iff]
  cases hlast : Pairs.last? name entries with
  | none => exact hpresent.mpr hlast
  | some v =>
      cases hw : Pairs.lookup name kept with
      | none =>
          rw [hpresent.mp hw] at hlast
          cases hlast
      | some w =>
          exact congrArg some
            (h (name, v) (Pairs.mem_of_last? hlast) w (hvalues name v w hlast hw))

mutual

theorem eq_settle_of_reduces
    (v w : Value)
    (h : Reduces v w) :
    w = v.settle := by
  cases v with
  | sequence items =>
      cases h with
      | sequence h => exact congrArg sequence (eq_settleItems_of_forall₂ items _ h)
  | mapping entries =>
      cases h with
      | mapping hnames hvalues =>
          exact eq_settle_mapping (eq_settle_of_mem entries) hnames hvalues
  | _ =>
      cases h
      rfl
termination_by structural v

theorem eq_settleItems_of_forall₂
    (items kept : List Value)
    (h : List.Forall₂ Reduces items kept) :
    kept = settleItems items := by
  cases items with
  | nil =>
      cases h
      rfl
  | cons x xs =>
      cases h with
      | cons hx hxs =>
          rw [settleItems, eq_settle_of_reduces x _ hx, eq_settleItems_of_forall₂ xs _ hxs]
termination_by structural items

theorem eq_settle_of_mem (entries : List (String × Value)) :
    ∀ e ∈ entries, ∀ w, Reduces e.2 w → w = e.2.settle := by
  cases entries with
  | nil => exact fun _ h => nomatch h
  | cons e es =>
      exact List.forall_mem_cons.mpr ⟨eq_settle_of_reduces e.2, eq_settle_of_mem es⟩
termination_by structural entries

end

/-- The settled value is the only reduction. -/
theorem reduces_iff
    {v w : Value} :
    Reduces v w ↔ w = v.settle := by
  constructor
  · exact eq_settle_of_reduces v w
  · rintro rfl
    exact reduces_settle v

end Reductions

section Conversions

/-- Settling before or after the conversion comes to the same. -/
theorem ofJson_settle (j : Json) : ofJson j.settle = (ofJson j).settle := by
  rw [← toJson_ofJson, ofJson_toJson]

theorem toJson_settle (v : Value) : v.settle.toJson = v.toJson := by
  rw [← ofJson_toJson, toJson_ofJson, Json.settle_eq_self (settled_toJson v)]

theorem settle_settle (v : Value) : v.settle.settle = v.settle := by
  rw [← ofJson_toJson v.settle, toJson_settle, ofJson_toJson]

theorem names_ofMembers (members : List (String × Json)) :
    Pairs.names (ofMembers members) = Pairs.names members := by
  induction members with
  | nil => rfl
  | cons m ms ih => exact congrArg (m.1 :: ·) ih

mutual

theorem settled_ofJson
    (j : Json)
    (h : j.Settled) :
    (ofJson j).Settled := by
  cases j with
  | array items => exact settledItems_ofItems items h
  | object members =>
      refine ⟨?_, settledEntries_ofMembers members h.2⟩
      rw [names_ofMembers]
      exact h.1
  | _ => trivial

theorem settledItems_ofItems
    (items : List Json)
    (h : Json.SettledItems items) :
    SettledItems (ofItems items) := by
  cases items with
  | nil => trivial
  | cons x xs => exact ⟨settled_ofJson x h.1, settledItems_ofItems xs h.2⟩

theorem settledEntries_ofMembers
    (members : List (String × Json))
    (h : Json.SettledMembers members) :
    SettledEntries (ofMembers members) := by
  cases members with
  | nil => trivial
  | cons m ms => exact ⟨settled_ofJson m.2 h.1, settledEntries_ofMembers ms h.2⟩

end

/-- Settling leaves alone the values without repeated names, and no others. -/
theorem settle_eq_self_iff {v : Value} : v.settle = v ↔ v.Settled := by
  constructor
  · intro h
    rw [← h, ← ofJson_toJson]
    exact settled_ofJson v.toJson (settled_toJson v)
  · exact settle_eq_self v

/-- Settling is not seen in a header. -/
theorem headerText_settle (v : Value) : v.settle.headerText = v.headerText := by
  have hjson := toJson_settle v
  cases v with
  | sequence items => exact congrArg Json.compact hjson
  | mapping entries => exact congrArg Json.compact hjson
  | _ => rfl

end Conversions

/-- Payload values and JSON values are converted without loss, up to repeated names. -/
theorem conversion_lossless :
    (∀ j : Json, j.Settled → toJson (ofJson j) = j) ∧
    ∀ v : Value,
      v.toJson.Settled ∧
      ofJson v.toJson = v.settle ∧
      (∀ w, Reduces v w ↔ w = v.settle) ∧
      v.settle.settle = v.settle ∧
      (v.settle = v ↔ v.Settled) ∧
      v.settle.headerText = v.headerText := by
  constructor
  · intro j h
    rw [toJson_ofJson, Json.settle_eq_self h]
  · intro v
    exact ⟨settled_toJson v, ofJson_toJson v, fun w => reduces_iff, settle_settle v,
      settle_eq_self_iff, headerText_settle v⟩

/-- A JSON value with objects in arrays, and a mapping whose first value under a repeated name
repeats a name itself. -/
theorem conversion_lossless_nested :
    let j : Json := .object
      [("b", .array [.null, .object [("z", .bool true), ("a", .text "1")]]), ("a", .null)]
    let inner := sequence [mapping [("y", bool true), ("y", null)]]
    let v := mapping
      [("a", mapping [("x", null), ("x", text "1")]), ("b", inner), ("a", text "last")]
    j.Settled ∧
      toJson (ofJson j) = j ∧
      ofJson v.toJson =
        mapping [("a", text "last"), ("b", sequence [mapping [("y", null)]])] ∧
      v.settle.headerText = v.headerText ∧
      v.settle ≠ v := by
  intro j inner v
  obtain ⟨hjson, hvalue⟩ := conversion_lossless
  obtain ⟨-, hconvert, -, -, hself, htext⟩ := hvalue v
  have hj : j.Settled := by decide
  refine ⟨hj, hjson j hj, hconvert.trans rfl, htext, ?_⟩
  intro h
  have hnodup : (["a", "b", "a"] : List String).Nodup := (hself.mp h).1
  exact absurd hnodup (by decide)

end Value
end Payload
end ChannelHeaders
