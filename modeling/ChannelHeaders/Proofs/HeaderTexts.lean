import ChannelHeaders.Payload.Fields
import ChannelHeaders.Proofs.Collections
import ChannelHeaders.Proofs.SpelledValues

/-!
# Values behind header texts

A header that is filled with a sequence or a mapping carries its compact JSON text.  The
text can be decoded again, and then gives the value in which a repeated name keeps its
first place and its last value.  Decoding stops at a nesting of 127, counted after
repeated names are gone, since only the last value of a name is written.

Values with floating-point numbers are left out.

**Results.**
* `decode?_compact`: what is read of the compact text of a value.
* `decode_mapping`: the fields behind the text of a mapping.
* `headerText_inj`: sequences and mappings without repeated names are told apart by text.
* `decode_headerText`: all of it.
-/

namespace ChannelHeaders
namespace Payload
namespace Value

section Predicates

mutual

/-- No part of a value is a floating-point number. -/
def WithoutFloats : Value → Prop
  | number (.float _) => False
  | sequence items => WithoutFloatsItems items
  | mapping entries => WithoutFloatsEntries entries
  | _ => True

/-- No part of an item is a floating-point number. -/
def WithoutFloatsItems : List Value → Prop
  | [] => True
  | x :: xs => WithoutFloats x ∧ WithoutFloatsItems xs

/-- No part of the value of an entry is a floating-point number. -/
def WithoutFloatsEntries : List (String × Value) → Prop
  | [] => True
  | (_, v) :: es => WithoutFloats v ∧ WithoutFloatsEntries es

end

mutual

/-- No mapping repeats a name, at any depth. -/
def Settled : Value → Prop
  | sequence items => SettledItems items
  | mapping entries => (Pairs.names entries).Nodup ∧ SettledEntries entries
  | _ => True

/-- No item of a sequence repeats a name. -/
def SettledItems : List Value → Prop
  | [] => True
  | x :: xs => Settled x ∧ SettledItems xs

/-- No value of an entry of a mapping repeats a name. -/
def SettledEntries : List (String × Value) → Prop
  | [] => True
  | (_, v) :: es => Settled v ∧ SettledEntries es

end

mutual

/-- The greatest number of sequences and mappings around a part of a value, the part included. -/
def nesting : Value → Nat
  | sequence items => nestingItems items + 1
  | mapping entries => nestingEntries entries + 1
  | _ => 0

/-- The greatest nesting of the items of a sequence. -/
def nestingItems : List Value → Nat
  | [] => 0
  | x :: xs => max (nesting x) (nestingItems xs)

/-- The greatest nesting of the values of the entries of a mapping. -/
def nestingEntries : List (String × Value) → Nat
  | [] => 0
  | (_, v) :: es => max (nesting v) (nestingEntries es)

end

/-- A sequence or a mapping. -/
inductive IsContainer : Value → Prop
  | sequence (items : List Value) : IsContainer (.sequence items)
  | mapping (entries : List (String × Value)) : IsContainer (.mapping entries)

end Predicates

section Settling

mutual

/-- A value without repeated names is left alone. -/
theorem settle_eq_self
    (v : Value)
    (h : v.Settled) :
    v.settle = v := by
  cases v with
  | sequence items => rw [settle, settleItems_eq_self items h]
  | mapping entries =>
      rw [settle, settleEntries_eq_self entries h.2, Pairs.collect_eq_self h.1]
  | _ => rfl

theorem settleItems_eq_self
    (items : List Value)
    (h : SettledItems items) :
    settleItems items = items := by
  cases items with
  | nil => rfl
  | cons x xs => rw [settleItems, settle_eq_self x h.1, settleItems_eq_self xs h.2]

theorem settleEntries_eq_self
    (entries : List (String × Value))
    (h : SettledEntries entries) :
    settleEntries entries = entries := by
  cases entries with
  | nil => rfl
  | cons e es => rw [settleEntries, settle_eq_self e.2 h.1, settleEntries_eq_self es h.2]

end

mutual

/-- The JSON of a value repeats no name. -/
theorem settled_toJson (v : Value) : v.toJson.Settled := by
  cases v with
  | sequence items => exact settledItems_toItems items
  | mapping entries =>
      exact ⟨Pairs.nodup_collect _,
        Json.settledMembers_putAll (settledMembers_toMembers entries) trivial⟩
  | _ => trivial

theorem settledItems_toItems (items : List Value) : Json.SettledItems (toItems items) := by
  cases items with
  | nil => trivial
  | cons x xs => exact ⟨settled_toJson x, settledItems_toItems xs⟩

theorem settledMembers_toMembers (entries : List (String × Value)) :
    Json.SettledMembers (toMembers entries) := by
  cases entries with
  | nil => trivial
  | cons e es => exact ⟨settled_toJson e.2, settledMembers_toMembers es⟩

end

end Settling

section Floats

theorem withoutFloatsMembers_iff (members : List (String × Json)) :
    Json.WithoutFloatsMembers members ↔ ∀ m ∈ members, m.2.WithoutFloats := by
  induction members with
  | nil => simp [Json.WithoutFloatsMembers]
  | cons m ms ih => simp [Json.WithoutFloatsMembers, ih]

mutual

theorem withoutFloats_toJson
    (v : Value)
    (h : v.WithoutFloats) :
    v.toJson.WithoutFloats := by
  cases v with
  | number n =>
      cases n with
      | integer w => trivial
      | float x => exact h
  | sequence items => exact withoutFloatsItems_toItems items h
  | mapping entries =>
      have hmembers := (withoutFloatsMembers_iff _).mp (withoutFloatsMembers_toMembers entries h)
      refine (withoutFloatsMembers_iff _).mpr ?_
      intro m hm
      exact hmembers m (Pairs.mem_of_mem_collect hm)
  | _ => trivial

theorem withoutFloatsItems_toItems
    (items : List Value)
    (h : WithoutFloatsItems items) :
    Json.WithoutFloatsItems (toItems items) := by
  cases items with
  | nil => trivial
  | cons x xs => exact ⟨withoutFloats_toJson x h.1, withoutFloatsItems_toItems xs h.2⟩

theorem withoutFloatsMembers_toMembers
    (entries : List (String × Value))
    (h : WithoutFloatsEntries entries) :
    Json.WithoutFloatsMembers (toMembers entries) := by
  cases entries with
  | nil => trivial
  | cons e es => exact ⟨withoutFloats_toJson e.2 h.1, withoutFloatsMembers_toMembers es h.2⟩

end

end Floats

section Nesting

mutual

/-- Conversion keeps the depth of nesting. -/
theorem nesting_ofJson (j : Json) : (ofJson j).nesting = j.nesting := by
  cases j with
  | array items => rw [ofJson, nesting, nestingItems_ofItems items, Json.nesting]
  | object members => rw [ofJson, nesting, nestingEntries_ofMembers members, Json.nesting]
  | _ => rfl

theorem nestingItems_ofItems (items : List Json) :
    nestingItems (ofItems items) = Json.nestingItems items := by
  cases items with
  | nil => rfl
  | cons x xs =>
      rw [ofItems, nestingItems, nesting_ofJson x, nestingItems_ofItems xs, Json.nestingItems]

theorem nestingEntries_ofMembers (members : List (String × Json)) :
    nestingEntries (ofMembers members) = Json.nestingMembers members := by
  cases members with
  | nil => rfl
  | cons m ms =>
      rw [ofMembers, nestingEntries, nesting_ofJson m.2, nestingEntries_ofMembers ms,
        Json.nestingMembers]

end

/-- What is written of a value nests as deep as the settled value. -/
theorem nesting_toJson (v : Value) : v.toJson.nesting = v.settle.nesting := by
  rw [← nesting_ofJson, ofJson_toJson]

theorem nestingEntries_le_iff
    (entries : List (String × Value))
    (n : Nat) :
    nestingEntries entries ≤ n ↔ ∀ e ∈ entries, e.2.nesting ≤ n := by
  induction entries with
  | nil => simp [nestingEntries]
  | cons e es ih => rw [nestingEntries, Nat.max_le, ih, List.forall_mem_cons]

mutual

/-- Settling drops values, and nests no deeper. -/
theorem nesting_settle_le (v : Value) : v.settle.nesting ≤ v.nesting := by
  cases v with
  | sequence items => exact Nat.succ_le_succ (nestingItems_settleItems_le items)
  | mapping entries =>
      refine Nat.succ_le_succ ?_
      have hentries :=
        (nestingEntries_le_iff _ _).mp (nestingEntries_settleEntries_le entries)
      refine (nestingEntries_le_iff _ _).mpr ?_
      intro e he
      exact hentries e (Pairs.mem_of_mem_collect he)
  | _ => exact Nat.le_refl _

theorem nestingItems_settleItems_le (items : List Value) :
    nestingItems (settleItems items) ≤ nestingItems items := by
  cases items with
  | nil => exact Nat.le_refl _
  | cons x xs =>
      have hx := nesting_settle_le x
      have hxs := nestingItems_settleItems_le xs
      rw [settleItems, nestingItems, nestingItems]
      omega

theorem nestingEntries_settleEntries_le (entries : List (String × Value)) :
    nestingEntries (settleEntries entries) ≤ nestingEntries entries := by
  cases entries with
  | nil => exact Nat.le_refl _
  | cons e es =>
      have he := nesting_settle_le e.2
      have hes := nestingEntries_settleEntries_le es
      rw [settleEntries, nestingEntries, nestingEntries]
      omega

end

end Nesting

section Decoding

/-- The text of a sequence or a mapping is its compact JSON. -/
theorem headerText_container
    {v : Value}
    (h : v.IsContainer) :
    v.headerText = v.toJson.compact := by
  cases h with
  | sequence items => rfl
  | mapping entries => rfl

/-- Compact JSON is read back up to the nesting that a reader follows. -/
theorem decode?_compact
    (v : Value)
    (h : v.WithoutFloats) :
    Json.decode? v.toJson.compact.toUTF8 =
      if v.settle.nesting ≤ Json.maxOpen then some v.toJson else none := by
  rw [Json.decode?_spelled (Json.spells_compact (withoutFloats_toJson v h)), nesting_toJson]

/-- The fields behind the text of a mapping. -/
theorem decode_mapping
    (entries : List (String × Value))
    (h : (mapping entries).WithoutFloats)
    (hnesting : (mapping entries).settle.nesting ≤ Json.maxOpen) :
    ∃ fields,
      Fields.decode (mapping entries).headerText.toUTF8 = .ok fields ∧
      mapping fields.entries = (mapping entries).settle := by
  have hread := decode?_compact (mapping entries) h
  rw [if_pos hnesting, ← headerText_container (.mapping entries)] at hread
  have hmembers :
      ofMembers (Pairs.collect (toMembers entries)) = Pairs.collect (settleEntries entries) :=
    mapping.inj (ofJson_toJson (mapping entries))
  refine ⟨.ofList (Pairs.collect (settleEntries entries)), ?_, ?_⟩
  · rw [Fields.decode, hread]
    simp only [Json.settle_eq_self (settled_toJson (mapping entries))]
    rw [toJson, Fields.ofJson, hmembers]
  · exact congrArg mapping (Pairs.collect_eq_self (Pairs.nodup_collect _))

/-- A mapping that nests deeper than a reader follows has no fields behind its text. -/
theorem decode_mapping_deep
    (entries : List (String × Value))
    (h : (mapping entries).WithoutFloats)
    (hnesting : Json.maxOpen < (mapping entries).settle.nesting) :
    Fields.decode (mapping entries).headerText.toUTF8 = .error .notJson := by
  have hread := decode?_compact (mapping entries) h
  rw [if_neg (Nat.not_le.mpr hnesting), ← headerText_container (.mapping entries)] at hread
  rw [Fields.decode, hread]

/-- The text of a mapping with one field. -/
theorem headerText_field
    {v : Value}
    (h : v.IsContainer) :
    "\x7b\"f\":" ++ v.headerText ++ "\x7d" = (mapping [("f", v)]).headerText := by
  have htokens :
      (toJson (mapping [("f", v)])).tokens =
        .beginObject :: .text "f" :: .colon :: (v.toJson.tokens ++ [.endObject]) := by
    rfl
  have hwritten : ∀ ts,
      Json.written (.beginObject :: .text "f" :: .colon :: ts) =
        "\x7b\"f\":".toList ++ Json.written ts := by
    intro ts
    rfl
  apply String.toList_inj.mp
  rw [headerText_container h, headerText_container (.mapping _), String.toList_append,
    String.toList_append, Json.toList_compact, Json.toList_compact, htokens, hwritten,
    Json.written_append, List.append_assoc]
  rfl

/-- Sequences and mappings without repeated names are told apart by their texts. -/
theorem headerText_inj
    {v w : Value}
    (hv : v.IsContainer)
    (hw : w.IsContainer)
    (hvfloats : v.WithoutFloats)
    (hwfloats : w.WithoutFloats)
    (hvsettled : v.Settled)
    (hwsettled : w.Settled)
    (h : v.headerText = w.headerText) :
    v = w := by
  rw [headerText_container hv, headerText_container hw] at h
  have hjson : v.toJson = w.toJson :=
    Json.compact_inj (withoutFloats_toJson v hvfloats) (withoutFloats_toJson w hwfloats) h
  rw [← settle_eq_self v hvsettled, ← settle_eq_self w hwsettled, ← ofJson_toJson, hjson,
    ofJson_toJson]

/-- The text of a sequence or a mapping decodes back to the settled value, up to the greatest
nesting and no further. -/
theorem decode_headerText
    {v : Value}
    (hv : v.WithoutFloats) :
    v.settle.nesting ≤ v.nesting ∧
    (∀ entries, v = mapping entries →
      (v.settle.nesting ≤ 127 →
        ∃ fields,
          Fields.decode v.headerText.toUTF8 = .ok fields ∧
          mapping fields.entries = v.settle) ∧
      (127 < v.settle.nesting →
        Fields.decode v.headerText.toUTF8 = .error .notJson)) ∧
    (∀ items, v = sequence items →
      v.settle.nesting + 1 ≤ 127 →
        ∃ fields,
          Fields.decode ("\x7b\"f\":" ++ v.headerText ++ "\x7d").toUTF8 = .ok fields ∧
          fields.entries = [("f", v.settle)]) ∧
    (∀ w,
      v.IsContainer → w.IsContainer → w.WithoutFloats → v.Settled → w.Settled →
      v.headerText = w.headerText → v = w) := by
  refine ⟨nesting_settle_le v, ?_, ?_, ?_⟩
  · rintro entries rfl
    exact ⟨decode_mapping entries hv, decode_mapping_deep entries hv⟩
  · rintro items rfl hnesting
    rw [headerText_field (.sequence items)]
    have hfield : (mapping [("f", sequence items)]).settle =
        mapping [("f", (sequence items).settle)] := by
      rfl
    obtain ⟨fields, hdecode, hentries⟩ := decode_mapping [("f", sequence items)] ⟨hv, trivial⟩
      (by rwa [hfield, nesting, nestingEntries, nestingEntries, Nat.max_zero])
    exact ⟨fields, hdecode, mapping.inj (hentries.trans hfield)⟩
  · intro w hvc hwc hw hvs hws htext
    exact headerText_inj hvc hwc hv hw hvs hws htext

/-- A repeated name and a quote come back settled, and a nesting of 128 is refused. -/
theorem decode_headerText_nested :
    let items := sequence [null, text "\""]
    let v := mapping [("a", ofWord ⟨1, by decide, by decide⟩), ("b", items), ("a", bool true)]
    let around : Value → Value := fun v => mapping [("x", v)]
    let deep := Nat.repeat around 127 (mapping [])
    v.WithoutFloats ∧
      (∃ fields,
        Fields.decode v.headerText.toUTF8 = .ok fields ∧
        fields.entries = [("a", bool true), ("b", items)]) ∧
      (∃ fields,
        Fields.decode ("\x7b\"f\":" ++ items.headerText ++ "\x7d").toUTF8 = .ok fields ∧
        fields.entries = [("f", items)]) ∧
      deep.WithoutFloats ∧
      Fields.decode deep.headerText.toUTF8 = .error .notJson ∧
      items.headerText ≠ (sequence [null, text "\\"]).headerText := by
  intro items v around deep
  have hitems : items.WithoutFloats := ⟨trivial, trivial, trivial⟩
  have hv : v.WithoutFloats := ⟨trivial, hitems, trivial, trivial⟩
  have haround : ∀ n,
      (Nat.repeat around n (mapping [])).WithoutFloats ∧
      (Nat.repeat around n (mapping [])).settle.nesting = n + 1 := by
    intro n
    induction n with
    | zero => exact ⟨trivial, rfl⟩
    | succ n ih => exact ⟨⟨ih.1, trivial⟩, congrArg (max · 0 + 1) ih.2⟩
  obtain ⟨hdeep, hnesting⟩ := haround 127
  refine ⟨hv, ?_, ?_, hdeep, ?_, ?_⟩
  · obtain ⟨fields, hdecode, hentries⟩ := ((decode_headerText hv).2.1 _ rfl).1 (by decide)
    exact ⟨fields, hdecode, mapping.inj hentries⟩
  · exact (decode_headerText hitems).2.2.1 _ rfl (by decide)
  · exact ((decode_headerText hdeep).2.1 _ rfl).2 (by rw [hnesting]; decide)
  · intro htext
    have hsettled : ∀ s, (sequence [null, text s]).Settled := fun s => ⟨trivial, trivial, trivial⟩
    have heq := (decode_headerText hitems).2.2.2 (sequence [null, text "\\"]) (.sequence _)
      (.sequence _) ⟨trivial, trivial, trivial⟩ (hsettled _) (hsettled _) htext
    simp [items] at heq

end Decoding

end Value
end Payload
end ChannelHeaders
