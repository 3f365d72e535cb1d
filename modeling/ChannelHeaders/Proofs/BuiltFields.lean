import Mathlib.Data.Finset.Card
import ChannelHeaders.Proofs.JsonConversions

/-!
# Payload fields and how they are put together

Fields can be started empty, collected from pairs, taken from a JSON object or decoded from
the text of one, and set one by one in between.  Whatever the way, the fields are those of
one list of pairs, the pairs that went in, in their order: a name stands at its first place
and has its last value.

Setting a field answers what the field held before.  A run of settings is followed with its
answers, so each answer can be compared with a look-up in between.

The text of a JSON object is read by its members in the order of the text, with repeated
names kept.  Names are compared as they are read, whatever their spelling in the text.
Values with floating-point numbers have no spelling here.

**Results.**
* `setsInPlace_replace`: the one place where setting a field changes anything.
* `setsInTurn_replaceAll`: the answers of a run of settings, and what the run leaves.
* `BuiltFrom.eq_ofList`: the fields of every way, by the pairs that went in.
* `decode_spelled`: the fields of a text, by the members that it spells.
* `fields_built_in_order`: all of it.
-/

namespace ChannelHeaders

namespace Pairs

variable {α : Type}

theorem putAll_append (ps qs rs : List (String × α)) :
    putAll ps (qs ++ rs) = putAll (putAll ps qs) rs :=
  List.foldl_append

/-- A value is put at the first pair with its name, and nowhere else. -/
theorem put_append_cons
    {k : String}
    {before : List (String × α)}
    (h : k ∉ names before)
    (v old : α)
    (after : List (String × α)) :
    put k v (before ++ (k, old) :: after) = before ++ (k, v) :: after := by
  induction before with
  | nil => exact if_pos rfl
  | cons p before ih =>
      simp only [names, List.map_cons, List.mem_cons, not_or] at h
      rw [List.cons_append, put, if_neg (Ne.symm h.1), ih h.2, List.cons_append]

theorem lookup_append_cons
    {k : String}
    {before : List (String × α)}
    (h : k ∉ names before)
    (old : α)
    (after : List (String × α)) :
    lookup k (before ++ (k, old) :: after) = some old := by
  rw [lookup_append, lookup_eq_none_iff.mpr h, Option.none_or]
  exact if_pos rfl

/-- The number of different names, when each is listed once. -/
theorem length_eq_card
    {ps : List (String × α)}
    {ks : List String}
    (hnodup : (names ps).Nodup)
    (hmem : ∀ k, k ∈ names ps ↔ k ∈ ks) :
    ps.length = ks.toFinset.card := by
  have hsame : (names ps).toFinset = ks.toFinset := by
    apply Finset.ext
    intro k
    rw [List.mem_toFinset, List.mem_toFinset, hmem]
  rw [← hsame, List.toFinset_card_of_nodup hnodup, names, List.length_map]

end Pairs

namespace OrderedMap

variable {α : Type}

theorem insertAll_append
    (m : OrderedMap α)
    (ps qs : List (String × α)) :
    m.insertAll (ps ++ qs) = (m.insertAll ps).insertAll qs :=
  OrderedMap.ext (Pairs.putAll_append m.entries ps qs)

theorem ofList_append (ps qs : List (String × α)) :
    ofList (ps ++ qs) = (ofList ps).insertAll qs :=
  insertAll_append empty ps qs

theorem ofList_collect (ps : List (String × α)) : ofList (Pairs.collect ps) = ofList ps :=
  OrderedMap.ext (Pairs.collect_eq_self (Pairs.nodup_collect ps))

theorem names_insertAll
    (m : OrderedMap α)
    (ps : List (String × α)) :
    (m.insertAll ps).names =
      m.names ++ ((Pairs.names ps).filter (· ∉ m.names)).eraseDups :=
  Pairs.names_putAll ps m.entries

theorem get?_insertAll
    (m : OrderedMap α)
    (ps : List (String × α))
    (k : String) :
    (m.insertAll ps).get? k = (Pairs.last? k ps).or (m.get? k) :=
  Pairs.lookup_putAll k ps m.entries

theorem size_insertAll
    (m : OrderedMap α)
    (ps : List (String × α)) :
    (m.insertAll ps).size = (m.names ++ Pairs.names ps).toFinset.card := by
  refine Pairs.length_eq_card (m.insertAll ps).distinct ?_
  intro k
  change k ∈ (m.insertAll ps).names ↔ _
  rw [names_insertAll, List.mem_append, List.mem_append, List.mem_eraseDups, List.mem_filter]
  by_cases hk : k ∈ m.names
  · simp [hk]
  · simp [hk]

end OrderedMap

namespace Payload

theorem Value.ofMembers_eq_map (members : List (String × Json)) :
    ofMembers members = members.map fun m => (m.1, ofJson m.2) := by
  induction members with
  | nil => rfl
  | cons m ms ih => rw [ofMembers, ih, List.map_cons]

namespace Fields

section Setting

/-- Sets fields one after another, and returns what each of them held before. -/
def replaceAll : List (String × Value) → Fields → List (Option Value) × Fields
  | [], fields => ([], fields)
  | (name, value) :: ps, fields =>
      let (old, fields) := replace name value fields
      let (olds, fields) := replaceAll ps fields
      (old :: olds, fields)

/-- What setting a field of `fields` answers and changes: the first entry with the name, and when
there is none, the end. -/
structure SetsInPlace
    (name : String)
    (value : Value)
    (fields : Fields)
    (result : Option Value × Fields) :
    Prop where
  answer : result.1 = fields.get? name
  present : ∀ before old after,
    fields.entries = before ++ (name, old) :: after → name ∉ Pairs.names before →
    result.1 = some old ∧ result.2.entries = before ++ (name, value) :: after
  absent : name ∉ fields.names →
    result.1 = none ∧ result.2.entries = fields.entries ++ [(name, value)]

theorem setsInPlace_replace
    (name : String)
    (value : Value)
    (fields : Fields) :
    SetsInPlace name value fields (replace name value fields) := by
  refine ⟨replace_fst name value fields, ?_, ?_⟩
  · intro before old after hentries hbefore
    constructor
    · exact (congrArg (Pairs.lookup name) hentries).trans
        (Pairs.lookup_append_cons hbefore old after)
    · exact (congrArg (Pairs.put name value) hentries).trans
        (Pairs.put_append_cons hbefore value old after)
  · intro hname
    exact ⟨Pairs.lookup_eq_none_iff.mpr hname, Pairs.put_of_notMem hname⟩

theorem replaceAll_snd (ps : List (String × Value)) :
    ∀ fields, (replaceAll ps fields).2 = fields.insertAll ps := by
  induction ps with
  | nil => exact fun _ => rfl
  | cons p ps ih => exact fun fields => ih (fields.insert p.1 p.2)

theorem length_replaceAll (ps : List (String × Value)) :
    ∀ fields, (replaceAll ps fields).1.length = ps.length := by
  induction ps with
  | nil => exact fun _ => rfl
  | cons p ps ih => exact fun fields => congrArg (· + 1) (ih (fields.insert p.1 p.2))

/-- Each setting answers what a look-up finds in front of it. -/
theorem getElem?_replaceAll
    (ps : List (String × Value)) :
    ∀ (fields : Fields) (i : Nat) (name : String) (value : Value),
      ps[i]? = some (name, value) →
      (replaceAll ps fields).1[i]? = some ((replaceAll (ps.take i) fields).2.get? name) := by
  induction ps with
  | nil =>
      intro fields i name value h
      cases h
  | cons p ps ih =>
      intro fields i name value h
      cases i with
      | zero =>
          cases h
          rfl
      | succ i => exact ih (fields.insert p.1 p.2) i name value h

/-- What a run of settings on `fields` answers and leaves. -/
structure SetsInTurn
    (fields : Fields)
    (ps : List (String × Value))
    (run : List (Option Value) × Fields) :
    Prop where
  answers : run.1.length = ps.length
  answer : ∀ i name value, ps[i]? = some (name, value) →
    run.1[i]? = some ((replaceAll (ps.take i) fields).2.get? name)
  value : ∀ name, run.2.get? name = (Pairs.last? name ps).or (fields.get? name)
  names : run.2.names = fields.names ++ ((Pairs.names ps).filter (· ∉ fields.names)).eraseDups
  distinct : run.2.names.Nodup
  listed : ∀ name value, (name, value) ∈ run.2.entries ↔ run.2.get? name = some value
  size : run.2.size = (fields.names ++ Pairs.names ps).toFinset.card

theorem setsInTurn_replaceAll
    (fields : Fields)
    (ps : List (String × Value)) :
    SetsInTurn fields ps (replaceAll ps fields) := by
  have hrun : (replaceAll ps fields).2 = fields.insertAll ps := replaceAll_snd ps fields
  refine ⟨length_replaceAll ps fields, getElem?_replaceAll ps fields, ?_, ?_, ?_, ?_, ?_⟩
  · intro name
    rw [hrun, OrderedMap.get?_insertAll]
  · rw [hrun, OrderedMap.names_insertAll]
  · exact (replaceAll ps fields).2.nodup_names
  · intro name value
    exact ((replaceAll ps fields).2.get?_eq_some_iff name value).symm
  · rw [hrun, OrderedMap.size_insertAll]

end Setting

section Building

/-- The ways to come by fields, with the pairs that went into them, in order.  The members of a
text are listed as they stand in it. -/
inductive BuiltFrom : Fields → List (String × Value) → Prop
  | empty :
      BuiltFrom .empty []
  | collect (ps : List (String × Value)) :
      BuiltFrom (.ofList ps) ps
  | replace
      {fields : Fields}
      {ps : List (String × Value)}
      (h : BuiltFrom fields ps)
      (name : String)
      (value : Value) :
      BuiltFrom (Fields.replace name value fields).2 (ps ++ [(name, value)])
  | ofJson
      {members : List (String × Json)}
      {fields : Fields}
      (h : Fields.ofJson (.object members) = .ok fields) :
      BuiltFrom fields (members.map fun m => (m.1, Value.ofJson m.2))
  | decode
      {payload : ByteArray}
      {members : List (String × Json)}
      {fields : Fields}
      (hread : Json.decode? payload = some (.object members))
      (h : Fields.decode payload = .ok fields) :
      BuiltFrom fields (members.map fun m => (m.1, (Value.ofJson m.2).settle))

theorem ofJson_object (members : List (String × Json)) :
    ofJson (.object members) = .ok (.ofList (members.map fun m => (m.1, Value.ofJson m.2))) := by
  rw [ofJson, Value.ofMembers_eq_map]

/-- Repeated names are settled twice over: in the values by themselves, and among the members. -/
theorem decode_of_decode?
    {payload : ByteArray}
    {members : List (String × Json)}
    (h : Json.decode? payload = some (.object members)) :
    decode payload =
      .ok (.ofList (members.map fun m => (m.1, (Value.ofJson m.2).settle))) := by
  have hsettled :
      Value.ofMembers (Pairs.collect (Json.settleMembers members)) =
        Pairs.collect (Value.settleEntries (Value.ofMembers members)) :=
    Value.mapping.inj (Value.ofJson_settle (.object members))
  have hvalues :
      Value.settleEntries (Value.ofMembers members) =
        members.map fun m => (m.1, (Value.ofJson m.2).settle) := by
    rw [Value.settleEntries_eq_map, Value.ofMembers_eq_map, List.map_map]
    rfl
  rw [decode, h]
  simp only [Json.settle, ofJson]
  rw [hsettled, OrderedMap.ofList_collect, hvalues]

/-- Every way gives the fields that are collected from the pairs that went in. -/
theorem BuiltFrom.eq_ofList
    {fields : Fields}
    {ps : List (String × Value)}
    (h : BuiltFrom fields ps) :
    fields = .ofList ps := by
  induction h with
  | empty => rfl
  | collect ps => rfl
  | replace h name value ih =>
      rw [ih, OrderedMap.ofList_append]
      rfl
  | ofJson h =>
      rw [ofJson_object] at h
      exact (Except.ok.inj h).symm
  | decode hread h =>
      rw [decode_of_decode? hread] at h
      exact (Except.ok.inj h).symm

/-- The text of a JSON object gives the fields that are collected from its members. -/
theorem decode_spelled
    {members : List (String × Json)}
    {text : String}
    (h : Json.SpellsTokens (Json.object members).tokens text.toList)
    (hnesting : (Json.object members).nesting ≤ 127) :
    decode text.toUTF8 =
      .ok (.ofList (members.map fun m => (m.1, (Value.ofJson m.2).settle))) := by
  apply decode_of_decode?
  rw [Json.decode?_spelled h]
  exact if_pos hnesting

end Building

/-- Fields are an ordered map of the pairs that went into them, in whatever way they were put
together. -/
theorem fields_built_in_order :
    (∀ (fields : Fields) (name : String) (value : Value),
      SetsInPlace name value fields (replace name value fields)) ∧
    (∀ (fields : Fields) (ps : List (String × Value)),
      SetsInTurn fields ps (replaceAll ps fields)) ∧
    (∀ xs ys : List (String × Value),
      (.ofList (xs ++ ys) : Fields) = (replaceAll ys (.ofList xs)).2) ∧
    (∀ (fields : Fields) (ps : List (String × Value)), BuiltFrom fields ps →
      fields = .ofList ps ∧
      fields.names = (Pairs.names ps).eraseDups ∧
      (∀ name, fields.get? name = Pairs.last? name ps) ∧
      ∀ qs, (replaceAll qs fields).2 = .ofList (ps ++ qs)) ∧
    ∀ (members : List (String × Json)) (text : String),
      Json.SpellsTokens (Json.object members).tokens text.toList →
      (Json.object members).nesting ≤ 127 →
      decode text.toUTF8 =
        .ok (.ofList (members.map fun m => (m.1, (Value.ofJson m.2).settle))) := by
  have happend : ∀ xs ys : List (String × Value),
      (.ofList (xs ++ ys) : Fields) = (replaceAll ys (.ofList xs)).2 := by
    intro xs ys
    rw [replaceAll_snd, OrderedMap.ofList_append]
  refine ⟨fun fields name value => setsInPlace_replace name value fields,
    setsInTurn_replaceAll, happend, ?_, fun members text => decode_spelled⟩
  intro fields ps h
  obtain rfl := h.eq_ofList
  exact ⟨rfl, OrderedMap.names_ofList ps, OrderedMap.get?_ofList ps, fun qs => (happend ps qs).symm⟩

set_option maxRecDepth 3000 in
/-- Two spellings of one name, the later one with a repeated name in its value, and two fields
that are set behind them. -/
theorem fields_built_in_order_colliding :
    let members : List (String × Json) :=
      [("a", .null), ("b", .array []), ("a", .object [("x", .null), ("x", .bool true)])]
    let text := "\x7b\"a\":null,\"b\":[], " ++ "\"\\u0061\":\x7b\"x\":null,\"x\":true\x7d\x7d"
    let fields : Fields :=
      .ofList [("a", .null), ("b", .sequence []), ("a", .mapping [("x", .bool true)])]
    let ps : List (String × Value) := [("c", .null), ("b", .text "1")]
    Json.SpellsTokens (Json.object members).tokens text.toList ∧
      decode text.toUTF8 = .ok fields ∧
      fields.entries = [("a", .mapping [("x", .bool true)]), ("b", .sequence [])] ∧
      (replaceAll ps fields).1[1]? = some (some (.sequence [])) ∧
      (replaceAll ps fields).2.names = ["a", "b", "c"] ∧
      (replaceAll ps fields).2.get? "b" = some (.text "1") := by
  intro members text fields ps
  have hzero : Json.HexDigit '0' 0 := Or.inl rfl
  have hone : Json.HexDigit '1' 1 := Or.inl rfl
  have hsix : Json.HexDigit '6' 6 := Or.inl rfl
  have hname : Json.SpellsChar 'a' ['\\', 'u', '0', '0', '6', '1'] :=
    .unit (.digits hzero hzero hsix hone)
  have hvalue := Json.SpellsTokens.nil.prepend
    [.colon, .beginObject, .text "x", .colon, .null, .comma, .text "x", .colon, .bool true,
      .endObject, .endObject] (by simp)
  have hmember : Json.SpellsTokens (.text "a" :: _) _ :=
    .token (.text (.cons hname .nil)) (by simp) hvalue
  have hblank : ' ' ∈ [' ', '\t', '\n', '\r'] := List.mem_cons_self
  have hmembers := (hmember.blank hblank).prepend
    [.beginObject, .text "a", .colon, .null, .comma, .text "b", .colon, .beginArray, .endArray,
      .comma] (by simp)
  have htext : Json.SpellsTokens (Json.object members).tokens text.toList := by
    rw [String.toList_append]
    exact hmembers
  obtain ⟨-, hset, -, hbuilt, hdecode⟩ := fields_built_in_order
  have hfields : decode text.toUTF8 = .ok fields := hdecode members text htext (by decide)
  have hread : Json.decode? text.toUTF8 = some (.object members) := Json.decode?_spelled htext
  have hlist := (hbuilt fields _ (.decode hread hfields)).1
  refine ⟨htext, hfields, (congrArg OrderedMap.entries hlist).trans rfl,
    (hset fields ps).answer 1 "b" (.text "1") rfl, (hset fields ps).names.trans (by decide),
    (hset fields ps).value "b"⟩

end Fields
end Payload
end ChannelHeaders
