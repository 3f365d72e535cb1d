import ChannelHeaders.Collection.Pairs
import ChannelHeaders.Text.ByteOrder

/-!
# Maps in byte order of their names

A map from names to values whose pairs are listed in the byte order of the names.
Inserting under a name that is present replaces its value.

**Results.**
* `get?_insert`: what a look-up finds after an insertion.
* `ascending_place`: an insertion keeps the pairs in order.
-/

namespace ChannelHeaders

/-- Named values in byte order of the names, no name twice. -/
structure SortedMap (α : Type) where
  /-- The pairs of name and value, in order. -/
  entries : List (String × α)
  /-- Every name stands before all later names. -/
  ascending : entries.Pairwise (fun p q => Text.Precedes p.1 q.1)
deriving DecidableEq

namespace SortedMap

variable {α : Type}

/-- Puts a value under a name into a list that is in byte order. -/
def place
    (k : String)
    (v : α) :
    List (String × α) → List (String × α)
  | [] => [(k, v)]
  | (k', v') :: ps =>
      if k = k' then (k, v) :: ps
      else if Text.Precedes k k' then (k, v) :: (k', v') :: ps
      else (k', v') :: place k v ps

/-- Placing adds one pair and no other. -/
theorem mem_place
    {k : String}
    {v : α}
    {p : String × α}
    {ps : List (String × α)}
    (h : p ∈ place k v ps) :
    p = (k, v) ∨ p ∈ ps := by
  induction ps with
  | nil => exact Or.inl (List.mem_singleton.mp h)
  | cons q ps ih =>
      obtain ⟨k', v'⟩ := q
      simp only [place] at h
      split at h
      · rcases List.mem_cons.mp h with h | h
        · exact Or.inl h
        · exact Or.inr (List.mem_cons_of_mem _ h)
      · split at h
        · rcases List.mem_cons.mp h with h | h
          · exact Or.inl h
          · exact Or.inr h
        · rcases List.mem_cons.mp h with h | h
          · exact Or.inr (h ▸ List.mem_cons_self)
          · rcases ih h with h | h
            · exact Or.inl h
            · exact Or.inr (List.mem_cons_of_mem _ h)

/-- Placing keeps the byte order of the names. -/
theorem ascending_place
    {k : String}
    {v : α}
    {ps : List (String × α)}
    (h : ps.Pairwise (fun p q => Text.Precedes p.1 q.1)) :
    (place k v ps).Pairwise (fun p q => Text.Precedes p.1 q.1) := by
  induction ps with
  | nil => exact List.pairwise_singleton _ _
  | cons q ps ih =>
      obtain ⟨k', v'⟩ := q
      obtain ⟨hq, hps⟩ := List.pairwise_cons.mp h
      simp only [place]
      split
      · rename_i he
        subst he
        exact List.pairwise_cons.mpr ⟨hq, hps⟩
      · rename_i hne
        split
        · rename_i hlt
          refine List.pairwise_cons.mpr ⟨?_, h⟩
          intro p hp
          rcases List.mem_cons.mp hp with hp | hp
          · exact hp ▸ hlt
          · exact hlt.trans (hq p hp)
        · rename_i hlt
          refine List.pairwise_cons.mpr ⟨?_, ih hps⟩
          intro p hp
          rcases mem_place hp with hp | hp
          · exact hp ▸ Text.Precedes.trichotomy hne hlt
          · exact hq p hp

/-- The map without names. -/
def empty : SortedMap α :=
  ⟨[], List.Pairwise.nil⟩

instance : Inhabited (SortedMap α) :=
  ⟨empty⟩

/-- Sets the value under a name. -/
def insert
    (m : SortedMap α)
    (k : String)
    (v : α) :
    SortedMap α :=
  ⟨place k v m.entries, ascending_place m.ascending⟩

/-- Inserts the pairs one after another. -/
def insertAll
    (m : SortedMap α)
    (ps : List (String × α)) :
    SortedMap α :=
  ps.foldl (fun acc p => acc.insert p.1 p.2) m

/-- The map that results from inserting the pairs in turn into the empty map. -/
def ofList (ps : List (String × α)) : SortedMap α :=
  empty.insertAll ps

/-- The value under a name. -/
def get?
    (m : SortedMap α)
    (k : String) :
    Option α :=
  Pairs.lookup k m.entries

/-- Whether a name is present. -/
def contains
    (m : SortedMap α)
    (k : String) :
    Bool :=
  (m.get? k).isSome

/-- The names, in byte order. -/
def names (m : SortedMap α) : List String :=
  Pairs.names m.entries

@[ext]
theorem ext
    {m n : SortedMap α}
    (h : m.entries = n.entries) :
    m = n := by
  cases m
  cases n
  cases h
  rfl

/-- A placed value is found under its own name, and nothing else changes. -/
theorem lookup_place
    {k : String}
    {v : α}
    (j : String)
    {ps : List (String × α)}
    (h : ps.Pairwise (fun p q => Text.Precedes p.1 q.1)) :
    Pairs.lookup j (place k v ps) = if k = j then some v else Pairs.lookup j ps := by
  induction ps with
  | nil => simp [place, Pairs.lookup]
  | cons q ps ih =>
      obtain ⟨k', v'⟩ := q
      have ih := ih (List.pairwise_cons.mp h).2
      simp only [place]
      split
      · rename_i he
        subst he
        by_cases hj : k = j <;> simp [Pairs.lookup, hj]
      · rename_i hne
        split
        · simp [Pairs.lookup]
        · by_cases hj : k' = j
          · have hkj : ¬ k = j := fun e => hne (e.trans hj.symm)
            simp [Pairs.lookup, hj, hkj]
          · simp [Pairs.lookup, hj, ih]

theorem get?_insert
    (m : SortedMap α)
    (k j : String)
    (v : α) :
    (m.insert k v).get? j = if k = j then some v else m.get? j :=
  lookup_place j m.ascending

end SortedMap
end ChannelHeaders
