import ChannelHeaders.Proofs.BuiltFields
import ChannelHeaders.Specification.Basic

/-!
# Header templates collected from pairs

The header templates of a channel are collected from pairs of a name and a template, one
pair after another.  A pair with a new name adds a header at the end.  A pair with a name
that is present replaces the template of that header, and nothing else moves or changes.

Place and template of a header come from opposite ends of the pairs: the place is that of
the first pair with its name, the template that of the last one.  These two are all that
is left of the pairs.  Pairs that are collected already may therefore stand for the pairs
they were collected from, whatever follows them.

**Results.**
* `replacesInPlace_insert`: what one pair does.
* `pairwise_idxOf_eraseDups`: the order of first occurrences, by positions.
* `last?_eq_some_iff`: the last pair with a name, by what stands around it.
* `collects_ofList`: what any number of pairs give.
* `ofList_eq_iff`: the lists of pairs that give the same.
* `collected_in_order`: all of it, for header templates.
-/

namespace ChannelHeaders

/-- First occurrences stand in the order of their positions. -/
theorem pairwise_idxOf_eraseDups (l : List String) :
    l.eraseDups.Pairwise fun j k => l.idxOf j < l.idxOf k := by
  -- Grown at its end, a list keeps the positions that names have in it.
  induction l using List.reverseRecOn with
  | nil => exact List.Pairwise.nil
  | append_singleton l a ih =>
      have hkeep : ∀ k ∈ l, (l ++ [a]).idxOf k = l.idxOf k := by
        intro k hk
        exact List.idxOf_append_of_mem hk
      have hold : l.eraseDups.Pairwise fun j k => (l ++ [a]).idxOf j < (l ++ [a]).idxOf k := by
        refine ih.imp_of_mem ?_
        intro j k hj hk h
        rw [List.mem_eraseDups] at hj hk
        rwa [hkeep j hj, hkeep k hk]
      rw [List.eraseDups_append]
      by_cases ha : a ∈ l
      · have hnone : [a].removeAll l = [] := by simp [List.removeAll, ha]
        rw [hnone, List.eraseDups_nil, List.append_nil]
        exact hold
      · have hone : [a].removeAll l = [a] := by simp [List.removeAll, ha]
        have hlast : [a].eraseDups = [a] := rfl
        rw [hone, hlast]
        refine List.pairwise_append.mpr ⟨hold, List.pairwise_singleton _ _, ?_⟩
        intro j hj k hk
        obtain rfl := List.mem_singleton.mp hk
        rw [List.mem_eraseDups] at hj
        rw [hkeep j hj, List.idxOf_append_of_notMem ha]
        exact Nat.lt_add_right _ (List.idxOf_lt_length_iff.mpr hj)

namespace Pairs

variable {α : Type}

/-- The last pair with a name is the one behind which the name does not come again. -/
theorem last?_eq_some_iff
    {k : String}
    {v : α}
    {ps : List (String × α)} :
    last? k ps = some v ↔
      ∃ before after, ps = before ++ (k, v) :: after ∧ k ∉ names after := by
  induction ps with
  | nil => simp [last?, lookup]
  | cons p ps ih =>
      rw [last?_cons]
      constructor
      · intro h
        rcases Option.or_eq_some_iff.mp h with h | ⟨hnone, h⟩
        · obtain ⟨before, after, rfl, hafter⟩ := ih.mp h
          exact ⟨p :: before, after, rfl, hafter⟩
        · obtain ⟨rfl, rfl⟩ : p.1 = k ∧ p.2 = v := by
            simpa using h
          exact ⟨[], ps, rfl, last?_eq_none_iff.mp hnone⟩
      · rintro ⟨before, after, h, hafter⟩
        cases before with
        | nil =>
            obtain ⟨rfl, rfl⟩ := List.cons.inj h
            rw [last?_eq_none_iff.mpr hafter, Option.none_or, if_pos rfl]
        | cons q before =>
            obtain ⟨rfl, hps⟩ := List.cons.inj h
            rw [ih.mpr ⟨before, after, hps, hafter⟩, Option.some_or]

end Pairs

namespace OrderedMap

variable {α : Type}

section Steps

/-- What setting `k` to `v` makes of the pairs of `m`: a present pair is replaced where it stands,
and a new one is added at the end. -/
structure ReplacesInPlace
    (k : String)
    (v : α)
    (m result : OrderedMap α) :
    Prop where
  present : ∀ before old after,
    m.entries = before ++ (k, old) :: after → result.entries = before ++ (k, v) :: after
  absent : k ∉ m.names → result.entries = m.entries ++ [(k, v)]

theorem replacesInPlace_insert
    (m : OrderedMap α)
    (k : String)
    (v : α) :
    ReplacesInPlace k v m (m.insert k v) := by
  refine ⟨?_, fun hk => Pairs.put_of_notMem hk⟩
  intro before old after hentries
  have hbefore : k ∉ Pairs.names before := by
    have hdistinct := m.distinct
    rw [hentries, Pairs.names, List.map_append, List.map_cons] at hdistinct
    intro hk
    exact (List.nodup_append.mp hdistinct).2.2 k hk k List.mem_cons_self rfl
  exact (congrArg (Pairs.put k v) hentries).trans (Pairs.put_append_cons hbefore v old after)

theorem ofList_concat
    (ps : List (String × α))
    (k : String)
    (v : α) :
    ofList (ps ++ [(k, v)]) = (ofList ps).insert k v :=
  ofList_append ps [(k, v)]

end Steps

section Runs

/-- What is left of pairs that are collected: of their names the first occurrences in order, and
under each name the last value. -/
structure Collects
    (ps : List (String × α))
    (m : OrderedMap α) :
    Prop where
  distinct : m.names.Nodup
  names : m.names = (Pairs.names ps).eraseDups
  mem_names : ∀ k, k ∈ m.names ↔ k ∈ Pairs.names ps
  inOrder : m.names.Pairwise fun j k => (Pairs.names ps).idxOf j < (Pairs.names ps).idxOf k
  found : ∀ k v, m.get? k = some v ↔
    ∃ before after, ps = before ++ (k, v) :: after ∧ k ∉ Pairs.names after
  missing : ∀ k, m.get? k = none ↔ k ∉ Pairs.names ps
  listed : ∀ k v, (k, v) ∈ m.entries ↔ m.get? k = some v
  size : m.size = (Pairs.names ps).toFinset.card
  isEmpty : m.isEmpty = true ↔ ps = []

theorem collects_ofList (ps : List (String × α)) : Collects ps (ofList ps) := by
  have hnames := names_ofList ps
  have hmem : ∀ k, k ∈ (ofList ps).names ↔ k ∈ Pairs.names ps := by
    intro k
    rw [hnames, List.mem_eraseDups]
  refine ⟨(ofList ps).nodup_names, hnames, hmem, ?_, ?_, ?_, ?_, ?_, ?_⟩
  · rw [hnames]
    exact pairwise_idxOf_eraseDups (Pairs.names ps)
  · intro k v
    rw [get?_ofList, Pairs.last?_eq_some_iff]
  · intro k
    rw [get?_ofList, Pairs.last?_eq_none_iff]
  · intro k v
    rw [get?_eq_some_iff]
  · exact Pairs.length_eq_card (ofList ps).distinct hmem
  · rw [isEmpty_ofList, List.isEmpty_iff]

/-- Pairs that are collected already stand for those they were collected from. -/
theorem ofList_entries_append (ps qs : List (String × α)) :
    ofList ((ofList ps).entries ++ qs) = ofList (ps ++ qs) := by
  rw [ofList_append, ofList_entries, ofList_append]

theorem ofList_eq_iff (ps qs : List (String × α)) :
    ofList ps = ofList qs ↔
      (Pairs.names ps).eraseDups = (Pairs.names qs).eraseDups ∧
      ∀ k, Pairs.last? k ps = Pairs.last? k qs := by
  constructor
  · intro h
    refine ⟨?_, ?_⟩
    · rw [← names_ofList, h, names_ofList]
    · intro k
      rw [← get?_ofList, h, get?_ofList]
  · rintro ⟨hnames, hlast⟩
    apply eq_of_get?
    · rw [names_ofList, hnames, names_ofList]
    · intro k
      rw [get?_ofList, hlast, get?_ofList]

end Runs

end OrderedMap

namespace HeaderTemplates

open OrderedMap

/-- Header templates are a map in order of first insertion whose templates are replaced in place. -/
theorem collected_in_order :
    (∀ ps : List (String × String), Collects ps (.ofList ps : HeaderTemplates)) ∧
    (∀ (ps : List (String × String)) (name template : String),
      ReplacesInPlace name template
        (.ofList ps : HeaderTemplates) (.ofList (ps ++ [(name, template)]))) ∧
    (∀ templates : HeaderTemplates, .ofList templates.entries = templates) ∧
    (∀ ps qs : List (String × String),
      (.ofList (ps ++ qs) : HeaderTemplates) =
        .ofList ((.ofList ps : HeaderTemplates).entries ++ qs)) ∧
    ∀ ps qs : List (String × String),
      (.ofList ps : HeaderTemplates) = .ofList qs ↔
        (Pairs.names ps).eraseDups = (Pairs.names qs).eraseDups ∧
        ∀ name, Pairs.last? name ps = Pairs.last? name qs := by
  refine ⟨collects_ofList, ?_, ofList_entries, fun ps qs => (ofList_entries_append ps qs).symm,
    ofList_eq_iff⟩
  intro ps name template
  rw [ofList_concat]
  exact replacesInPlace_insert (.ofList ps) name template

/-- A name that comes three times, with another one in between, and the same templates from other
pairs. -/
theorem collected_in_order_repeated :
    let ps := [("x-id", "1"), ("x-kind", "a"), ("x-id", "2"), ("x-id", "3")]
    let qs := [("x-id", "9"), ("x-kind", "a"), ("x-id", "3")]
    let templates : HeaderTemplates := .ofList ps
    templates.names = ["x-id", "x-kind"] ∧
      templates.get? "x-id" = some "3" ∧
      templates.get? "x-other" = none ∧
      templates.size = 2 ∧
      templates = .ofList qs ∧
      (.ofList (ps ++ [("x-kind", "b")]) : HeaderTemplates).entries =
        [("x-id", "3"), ("x-kind", "b")] := by
  intro ps qs templates
  obtain ⟨hcollects, hreplaces, -, -, hequal⟩ := collected_in_order
  have htemplates : Collects ps templates := hcollects ps
  refine ⟨htemplates.names.trans (by decide), ?_, ?_, htemplates.size.trans (by decide), ?_, ?_⟩
  · exact (htemplates.found "x-id" "3").mpr
      ⟨[("x-id", "1"), ("x-kind", "a"), ("x-id", "2")], [], rfl, by decide⟩
  · exact (htemplates.missing "x-other").mpr (by decide)
  · refine (hequal ps qs).mpr ⟨by decide, ?_⟩
    intro name
    by_cases hid : "x-id" = name
    · simp [ps, qs, Pairs.last?, Pairs.lookup, hid]
    · simp [ps, qs, Pairs.last?, Pairs.lookup, hid]
  · exact (hreplaces ps "x-kind" "b").present [("x-id", "3")] "a" [] (by decide)

end HeaderTemplates
end ChannelHeaders
