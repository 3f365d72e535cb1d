import ChannelHeaders.Collection.Pairs

/-!
# Maps in order of first insertion

A map from names to values that remembers the order in which names came in.  Inserting
under a name that is present replaces its value and keeps its place.

**Results.**
* `get?_eq_some_iff`: a look-up finds exactly the listed pairs.
-/

namespace ChannelHeaders

/-- Named values in order of first insertion, no name twice. -/
structure OrderedMap (α : Type) where
  /-- The pairs of name and value, in order. -/
  entries : List (String × α)
  /-- No name is listed twice. -/
  distinct : (Pairs.names entries).Nodup
deriving DecidableEq

namespace OrderedMap

variable {α : Type}

/-- The map without names. -/
def empty : OrderedMap α :=
  ⟨[], List.nodup_nil⟩

instance : Inhabited (OrderedMap α) :=
  ⟨empty⟩

/-- Sets the value under a name, in place when the name is present. -/
def insert
    (m : OrderedMap α)
    (k : String)
    (v : α) :
    OrderedMap α :=
  ⟨Pairs.put k v m.entries, Pairs.nodup_put m.distinct⟩

/-- Inserts the pairs one after another. -/
def insertAll
    (m : OrderedMap α)
    (ps : List (String × α)) :
    OrderedMap α :=
  ⟨Pairs.putAll m.entries ps, Pairs.nodup_putAll m.distinct⟩

/-- The map that results from inserting the pairs in turn into the empty map. -/
def ofList (ps : List (String × α)) : OrderedMap α :=
  empty.insertAll ps

/-- The value under a name. -/
def get?
    (m : OrderedMap α)
    (k : String) :
    Option α :=
  Pairs.lookup k m.entries

/-- The names, in order. -/
def names (m : OrderedMap α) : List String :=
  Pairs.names m.entries

/-- The number of names. -/
def size (m : OrderedMap α) : Nat :=
  m.entries.length

/-- Whether the map has no names. -/
def isEmpty (m : OrderedMap α) : Bool :=
  m.entries.isEmpty

/-- A map is its pairs in their order. -/
@[ext]
theorem ext
    {m n : OrderedMap α}
    (h : m.entries = n.entries) :
    m = n := by
  cases m
  cases n
  cases h
  rfl

theorem nodup_names (m : OrderedMap α) : m.names.Nodup :=
  m.distinct

/-- A look-up finds exactly the listed pairs. -/
theorem get?_eq_some_iff
    (m : OrderedMap α)
    (k : String)
    (v : α) :
    m.get? k = some v ↔ (k, v) ∈ m.entries :=
  Pairs.lookup_eq_some_iff m.distinct

end OrderedMap
end ChannelHeaders
