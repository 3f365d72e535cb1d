import ChannelHeaders.Collection.OrderedMap
import ChannelHeaders.Collection.SortedMap
import Mathlib.Data.List.Nodup

/-!
# First places and last values

Both kinds of map are built by inserting pairs one after another.  This module says what
is in them in terms of the list of pairs: which names there are, in which order, and
which of several values under one name is kept.

A map in order of first insertion lists each name at its first place in the list.  Both
kinds of map keep the last value under a name, and both are determined by what can be
looked up in them, the first kind together with its names.

**Results.**
* `names_collect`, `lookup_collect`: first places and last values of a list of pairs.
* `OrderedMap.eq_of_get?`, `SortedMap.eq_of_get?`: equality of maps by look-up.
* `SortedMap.perm_ofList`: distinct names lose no pair in a sorted map.
-/

namespace ChannelHeaders

theorem filterMap_concat
    {α β : Type}
    (f : α → Option β)
    (xs : List α)
    (x : α) :
    (xs ++ [x]).filterMap f = xs.filterMap f ++ (f x).toList := by
  rw [List.filterMap_append]
  cases h : f x <;> simp [h]

namespace Pairs

variable {α : Type}

theorem length_eq_of_names
    {β : Type}
    {ps : List (String × α)}
    {qs : List (String × β)}
    (h : names ps = names qs) :
    ps.length = qs.length := by
  have hlength := congrArg List.length h
  rwa [names, names, List.length_map, List.length_map] at hlength

/-- The value of the last pair with the name `k`. -/
def last?
    (k : String)
    (ps : List (String × α)) :
    Option α :=
  lookup k ps.reverse

theorem lookup_append
    (k : String)
    (ps qs : List (String × α)) :
    lookup k (ps ++ qs) = (lookup k ps).or (lookup k qs) := by
  induction ps with
  | nil =>
      rfl
  | cons p ps ih =>
      by_cases h : p.1 = k
      · simp [lookup, h]
      · simp [lookup, h, ih]

theorem last?_cons
    (k : String)
    (p : String × α)
    (ps : List (String × α)) :
    last? k (p :: ps) =
      (last? k ps).or (if p.1 = k then some p.2 else none) := by
  rw [last?, List.reverse_cons, lookup_append]
  rfl

/-- Distinct names have their first value as their last one. -/
theorem last?_eq_lookup
    (k : String)
    {ps : List (String × α)}
    (h : (names ps).Nodup) :
    last? k ps = lookup k ps := by
  have hrev : (names ps.reverse).Nodup := by
    rw [names, List.map_reverse]
    exact List.nodup_reverse.mpr h
  apply Option.ext
  intro v
  rw [last?, lookup_eq_some_iff hrev, lookup_eq_some_iff h, List.mem_reverse]

theorem mem_of_last?
    {k : String}
    {v : α}
    {ps : List (String × α)}
    (h : last? k ps = some v) :
    (k, v) ∈ ps :=
  List.mem_reverse.mp (mem_of_lookup h)

theorem last?_eq_none_iff
    {k : String}
    {ps : List (String × α)} :
    last? k ps = none ↔ k ∉ names ps := by
  rw [last?, lookup_eq_none_iff, names, names, List.map_reverse, List.mem_reverse]

theorem last?_isSome_iff
    {k : String}
    {ps : List (String × α)} :
    (last? k ps).isSome = true ↔ k ∈ names ps := by
  rw [Option.isSome_iff_ne_none, ne_eq, last?_eq_none_iff, Decidable.not_not]

/-- Distinct names are looked up alike in any order. -/
theorem lookup_perm
    {ps qs : List (String × α)}
    (h : (names ps).Nodup)
    (hperm : ps.Perm qs)
    (k : String) :
    lookup k ps = lookup k qs := by
  have hq : (names qs).Nodup := (hperm.map Prod.fst).nodup_iff.mp h
  apply Option.ext
  intro v
  rw [lookup_eq_some_iff h, lookup_eq_some_iff hq, hperm.mem_iff]

theorem last?_perm
    {ps qs : List (String × α)}
    (h : (names ps).Nodup)
    (hperm : ps.Perm qs)
    (k : String) :
    last? k ps = last? k qs := by
  have hq : (names qs).Nodup := (hperm.map Prod.fst).nodup_iff.mp h
  rw [last?_eq_lookup k h, last?_eq_lookup k hq, lookup_perm h hperm]

theorem lookup_map
    {β : Type}
    (f : α → β)
    (k : String)
    (ps : List (String × α)) :
    lookup k (ps.map fun p => (p.1, f p.2)) = (lookup k ps).map f := by
  induction ps with
  | nil => rfl
  | cons p ps ih =>
      by_cases h : p.1 = k
      · simp [lookup, h]
      · simp [lookup, h, ih]

theorem last?_map
    {β : Type}
    (f : α → β)
    (k : String)
    (ps : List (String × α)) :
    last? k (ps.map fun p => (p.1, f p.2)) = (last? k ps).map f := by
  rw [last?, ← List.map_reverse, lookup_map]
  rfl

theorem names_map
    {β : Type}
    (f : α → β)
    (ps : List (String × α)) :
    names (ps.map fun p => (p.1, f p.2)) = names ps := by
  rw [names, List.map_map]
  rfl

/-- What a look-up finds after pairs were put one after another. -/
theorem lookup_putAll
    (k : String)
    (qs : List (String × α)) :
    ∀ ps : List (String × α),
      lookup k (putAll ps qs) = (last? k qs).or (lookup k ps) := by
  induction qs with
  | nil =>
      intro ps
      rfl
  | cons q qs ih =>
      intro ps
      have hput : putAll ps (q :: qs) = putAll (put q.1 q.2 ps) qs := rfl
      rw [hput, ih, lookup_put, last?_cons]
      by_cases h : q.1 = k
      · simp [h]
      · simp [h]

theorem lookup_collect
    (k : String)
    (ps : List (String × α)) :
    lookup k (collect ps) = last? k ps := by
  rw [collect, lookup_putAll]
  simp [lookup]

/-- Collecting pairs makes no new ones. -/
theorem mem_of_mem_collect
    {p : String × α}
    {ps : List (String × α)}
    (h : p ∈ collect ps) :
    p ∈ ps := by
  have hlast : last? p.1 ps = some p.2 := by
    rw [← lookup_collect, lookup_eq_some_iff (nodup_collect ps)]
    exact h
  exact mem_of_last? hlast

/-- Putting pairs adds the names that are new, each at its first place. -/
theorem names_putAll
    (qs : List (String × α)) :
    ∀ ps : List (String × α),
      names (putAll ps qs) =
        names ps ++ ((names qs).filter (fun k => k ∉ names ps)).eraseDups := by
  induction qs with
  | nil =>
      intro ps
      simp [putAll, names]
  | cons q qs ih =>
      intro ps
      have hput : putAll ps (q :: qs) = putAll (put q.1 q.2 ps) qs := rfl
      have hnames : names (q :: qs) = q.1 :: names qs := rfl
      rw [hput, ih, names_put, hnames]
      by_cases h : q.1 ∈ names ps
      · simp [h]
      · have hnew :
            (names qs).filter (fun k => k ∉ names ps ++ [q.1]) =
              ((names qs).filter (fun k => k ∉ names ps)).filter (fun k => !k == q.1) := by
          rw [List.filter_filter]
          refine List.filter_congr ?_
          intro k _
          by_cases hk : k = q.1
          · simp [hk]
          · simp [hk]
        have hfilter :
            (q.1 :: names qs).filter (fun k => k ∉ names ps) =
              q.1 :: (names qs).filter (fun k => k ∉ names ps) := by
          simp [h]
        rw [if_neg h, hnew, hfilter, List.eraseDups_cons, List.append_assoc]
        rfl

theorem names_collect (ps : List (String × α)) :
    names (collect ps) = (names ps).eraseDups := by
  have hall : (names ps).filter (fun k => k ∉ names ([] : List (String × α))) = names ps := by
    simp [names]
  rw [collect, names_putAll, hall]
  rfl

/-- Tables with the same names in the same order and the same look-ups are equal. -/
theorem eq_of_lookup
    {ps : List (String × α)} :
    ∀ {qs : List (String × α)},
      (names ps).Nodup →
      names ps = names qs →
      (∀ k, lookup k ps = lookup k qs) →
      ps = qs := by
  induction ps with
  | nil =>
      intro qs _ hn _
      cases qs with
      | nil => rfl
      | cons q qs => simp [names] at hn
  | cons p ps ih =>
      intro qs hd hn hl
      cases qs with
      | nil => simp [names] at hn
      | cons q qs =>
          rcases p with ⟨j, v⟩
          rcases q with ⟨k, w⟩
          simp only [names, List.map_cons, List.cons.injEq] at hn
          rcases hn with ⟨rfl, hn⟩
          have hv : v = w := by
            simpa [lookup] using hl j
          simp only [names, List.map_cons, List.nodup_cons] at hd
          have htail : ∀ i, lookup i ps = lookup i qs := by
            intro i
            by_cases hi : j = i
            · subst hi
              have h₁ : lookup j ps = none := lookup_eq_none_iff.mpr hd.1
              have h₂ : lookup j qs = none := by
                refine lookup_eq_none_iff.mpr ?_
                intro hm
                rw [names, ← hn] at hm
                exact hd.1 hm
              rw [h₁, h₂]
            · simpa [lookup, hi] using hl i
          rw [hv, ih hd.2 hn htail]

end Pairs

namespace OrderedMap

variable {α : Type}

theorem get?_ofList
    (ps : List (String × α))
    (k : String) :
    (ofList ps).get? k = Pairs.last? k ps :=
  Pairs.lookup_collect k ps

theorem names_ofList (ps : List (String × α)) :
    (ofList ps).names = (Pairs.names ps).eraseDups :=
  Pairs.names_collect ps

/-- A map is determined by its names and its look-ups. -/
theorem eq_of_get?
    {m n : OrderedMap α}
    (hn : m.names = n.names)
    (h : ∀ k, m.get? k = n.get? k) :
    m = n := by
  apply OrderedMap.ext
  exact Pairs.eq_of_lookup m.distinct hn h

theorem isEmpty_ofList (ps : List (String × α)) :
    (ofList ps).isEmpty = ps.isEmpty := by
  cases ps with
  | nil => rfl
  | cons p ps =>
      have hmem : p.1 ∈ (ofList (p :: ps)).names := by
        rw [names_ofList, Pairs.names, List.map_cons, List.eraseDups_cons]
        exact List.mem_cons_self
      cases hentries : (ofList (p :: ps)).entries with
      | nil =>
          rw [names, hentries] at hmem
          exact absurd hmem List.not_mem_nil
      | cons q qs =>
          rw [isEmpty, hentries]
          rfl

/-- A map is made of its own pairs. -/
theorem ofList_entries (m : OrderedMap α) : ofList m.entries = m := by
  apply OrderedMap.ext
  exact Pairs.collect_eq_self m.distinct

end OrderedMap

namespace SortedMap

variable {α : Type}

theorem get?_insertAll
    (k : String)
    (ps : List (String × α)) :
    ∀ m : SortedMap α,
      (m.insertAll ps).get? k = (Pairs.last? k ps).or (m.get? k) := by
  induction ps with
  | nil =>
      intro m
      rfl
  | cons p ps ih =>
      intro m
      have hins : m.insertAll (p :: ps) = (m.insert p.1 p.2).insertAll ps := rfl
      rw [hins, ih, get?_insert, Pairs.last?_cons]
      by_cases h : p.1 = k
      · simp [h]
      · simp [h]

theorem get?_ofList
    (ps : List (String × α))
    (k : String) :
    (ofList ps).get? k = Pairs.last? k ps := by
  rw [ofList, get?_insertAll]
  exact Option.or_none

theorem nodup_names (m : SortedMap α) : (Pairs.names m.entries).Nodup := by
  rw [Pairs.names, List.Nodup, List.pairwise_map]
  refine m.ascending.imp ?_
  intro p q h
  exact h.ne

theorem names_ascending (m : SortedMap α) : m.names.Pairwise Text.Precedes := by
  rw [names, Pairs.names, List.pairwise_map]
  exact m.ascending

theorem get?_eq_some_iff
    {m : SortedMap α}
    {k : String}
    {v : α} :
    m.get? k = some v ↔ (k, v) ∈ m.entries :=
  Pairs.lookup_eq_some_iff m.nodup_names

theorem mem_names_iff
    {m : SortedMap α}
    {k : String} :
    k ∈ m.names ↔ (m.get? k).isSome = true := by
  rw [Option.isSome_iff_ne_none, get?, ne_eq, Pairs.lookup_eq_none_iff, Decidable.not_not]
  exact Iff.rfl

/-- A sorted map is determined by its look-ups. -/
theorem eq_of_get?
    {m n : SortedMap α}
    (h : ∀ k, m.get? k = n.get? k) :
    m = n := by
  apply SortedMap.ext
  have hnodup : ∀ l : SortedMap α, l.entries.Nodup := by
    intro l
    exact List.Nodup.of_map Prod.fst l.nodup_names
  have hperm : m.entries.Perm n.entries := by
    refine (List.perm_ext_iff_of_nodup (hnodup m) (hnodup n)).mpr ?_
    rintro ⟨k, v⟩
    rw [← get?_eq_some_iff, ← get?_eq_some_iff, h k]
  refine List.Perm.eq_of_pairwise ?_ m.ascending n.ascending hperm
  intro p q _ _ hpq hqp
  exact absurd (hpq.trans hqp) (Text.Precedes.irrefl p.1)

/-- The names are determined by what can be looked up at all. -/
theorem names_eq_of_isSome
    {β : Type}
    {m : SortedMap α}
    {n : SortedMap β}
    (h : ∀ k, (m.get? k).isSome = (n.get? k).isSome) :
    m.names = n.names := by
  have hperm : m.names.Perm n.names := by
    refine (List.perm_ext_iff_of_nodup m.nodup_names n.nodup_names).mpr ?_
    intro k
    exact (mem_names_iff.trans (by rw [h k])).trans mem_names_iff.symm
  refine List.Perm.eq_of_pairwise ?_ m.names_ascending n.names_ascending hperm
  intro j k _ _ hjk hkj
  exact absurd (hjk.trans hkj) (Text.Precedes.irrefl j)

/-- Pairs with distinct names all stand in the map made of them. -/
theorem perm_ofList
    {ps : List (String × α)}
    (h : (Pairs.names ps).Nodup) :
    (ofList ps).entries.Perm ps := by
  have h₁ : (ofList ps).entries.Nodup := List.Nodup.of_map Prod.fst (nodup_names _)
  have h₂ : ps.Nodup := List.Nodup.of_map Prod.fst h
  refine (List.perm_ext_iff_of_nodup h₁ h₂).mpr ?_
  rintro ⟨k, v⟩
  rw [← get?_eq_some_iff, get?_ofList, Pairs.last?_eq_lookup k h, Pairs.lookup_eq_some_iff h]

theorem ofList_entries (m : SortedMap α) : ofList m.entries = m := by
  apply eq_of_get?
  intro k
  rw [get?_ofList]
  exact Pairs.last?_eq_lookup k m.nodup_names

end SortedMap

end ChannelHeaders
