/-!
# Lists of named values

A list of pairs is read as a table: a name is looked up at its first pair, and a value is
put under a name in place when the name is there and at the end when it is not.

**Results.**
* `names_put`: putting a value keeps the names, or adds the new one at the end.
* `nodup_put`, `nodup_collect`: names that are distinct stay distinct.
* `lookup_put`: a look-up after a put.
* `lookup_eq_some_iff`: with distinct names, looking up finds exactly the pairs listed.
-/

namespace ChannelHeaders
namespace Pairs

variable {α : Type}

/-- The names of a list of pairs, in order. -/
def names (ps : List (String × α)) : List String :=
  ps.map Prod.fst

/-- The value of the first pair with the name `k`. -/
def lookup (k : String) : List (String × α) → Option α
  | [] => none
  | (k', v) :: ps => if k' = k then some v else lookup k ps

/-- Replaces the value under `k` in place, or adds the pair at the end. -/
def put
    (k : String)
    (v : α) :
    List (String × α) → List (String × α)
  | [] => [(k, v)]
  | (k', v') :: ps => if k' = k then (k', v) :: ps else (k', v') :: put k v ps

/-- Puts the pairs `qs` one after another. -/
def putAll (ps qs : List (String × α)) : List (String × α) :=
  qs.foldl (fun acc q => put q.1 q.2 acc) ps

/-- Each name once, at its first place, with its last value. -/
def collect (ps : List (String × α)) : List (String × α) :=
  putAll [] ps

/-- Putting a value keeps the names, or adds the new one at the end. -/
theorem names_put
    (k : String)
    (v : α)
    (ps : List (String × α)) :
    names (put k v ps) = if k ∈ names ps then names ps else names ps ++ [k] := by
  induction ps with
  | nil => simp [put, names]
  | cons p ps ih =>
      obtain ⟨k', v'⟩ := p
      by_cases h : k' = k
      · simp [put, names, h]
      · have h' : ¬ k = k' := fun e => h e.symm
        simp only [names] at ih
        by_cases hk : k ∈ ps.map Prod.fst
        · simp [put, names, h, h', ih, hk]
        · simp [put, names, h, h', ih, hk]

theorem nodup_put
    {k : String}
    {v : α}
    {ps : List (String × α)}
    (h : (names ps).Nodup) :
    (names (put k v ps)).Nodup := by
  rw [names_put]
  split
  · exact h
  · rename_i hk
    refine List.nodup_append.mpr ⟨h, by simp, ?_⟩
    intro a ha b hb e
    rw [List.mem_singleton] at hb
    exact hk (hb ▸ e ▸ ha)

theorem nodup_putAll {qs : List (String × α)} :
    ∀ {ps : List (String × α)}, (names ps).Nodup → (names (putAll ps qs)).Nodup := by
  induction qs with
  | nil => exact fun h => h
  | cons q qs ih => exact fun h => ih (nodup_put h)

/-- Every name is collected once. -/
theorem nodup_collect (ps : List (String × α)) : (names (collect ps)).Nodup :=
  nodup_putAll (by simp [names])

/-- A put is found under its own name, and nothing else changes. -/
theorem lookup_put
    (k j : String)
    (v : α)
    (ps : List (String × α)) :
    lookup j (put k v ps) = if k = j then some v else lookup j ps := by
  induction ps with
  | nil => simp [put, lookup]
  | cons p ps ih =>
      obtain ⟨k', v'⟩ := p
      by_cases h : k' = k
      · subst h
        by_cases hj : k' = j <;> simp [put, lookup, hj]
      · by_cases hj : k' = j
        · subst hj
          have h' : ¬ k = k' := fun e => h e.symm
          simp [put, lookup, h, h']
        · simp [put, lookup, h, hj, ih]

theorem mem_of_lookup
    {k : String}
    {v : α}
    {ps : List (String × α)}
    (h : lookup k ps = some v) :
    (k, v) ∈ ps := by
  induction ps with
  | nil => simp [lookup] at h
  | cons p ps ih =>
      obtain ⟨k', v'⟩ := p
      by_cases hk : k' = k
      · simp [lookup, hk] at h
        simp [hk, h]
      · simp [lookup, hk] at h
        exact List.mem_cons_of_mem _ (ih h)

/-- When no name is listed twice, exactly the listed pairs are found. -/
theorem lookup_eq_some_iff
    {k : String}
    {v : α}
    {ps : List (String × α)}
    (hd : (names ps).Nodup) :
    lookup k ps = some v ↔ (k, v) ∈ ps := by
  refine ⟨mem_of_lookup, ?_⟩
  induction ps with
  | nil => simp
  | cons p ps ih =>
      obtain ⟨k', v'⟩ := p
      simp only [names, List.map_cons, List.nodup_cons] at hd
      intro h
      rcases List.mem_cons.mp h with h | h
      · cases h
        simp [lookup]
      · have hne : k' ≠ k := by
          intro e
          exact hd.1 (e ▸ List.mem_map_of_mem (f := Prod.fst) h)
        simpa [lookup, hne] using ih hd.2 h

/-- Nothing is found under exactly the names that are not listed. -/
theorem lookup_eq_none_iff
    {k : String}
    {ps : List (String × α)} :
    lookup k ps = none ↔ k ∉ names ps := by
  induction ps with
  | nil => simp [lookup, names]
  | cons p ps ih =>
      obtain ⟨k', v'⟩ := p
      by_cases hk : k' = k
      · simp [lookup, names, hk]
      · have hk' : ¬ k = k' := fun e => hk e.symm
        simpa [lookup, names, hk, hk'] using ih

/-- A value under a new name comes last. -/
theorem put_of_notMem
    {k : String}
    {v : α}
    {ps : List (String × α)}
    (h : k ∉ names ps) :
    put k v ps = ps ++ [(k, v)] := by
  induction ps with
  | nil => rfl
  | cons p ps ih =>
      obtain ⟨k', v'⟩ := p
      simp only [names, List.map_cons, List.mem_cons, not_or] at h
      rw [put, if_neg (Ne.symm h.1), ih h.2, List.cons_append]

theorem putAll_of_nodup {qs : List (String × α)} :
    ∀ {ps : List (String × α)}, (names (ps ++ qs)).Nodup → putAll ps qs = ps ++ qs := by
  induction qs with
  | nil => exact fun _ => (List.append_nil _).symm
  | cons q qs ih =>
      intro ps h
      have hq : q.1 ∉ names ps := by
        intro hm
        rw [names, List.map_append, List.nodup_append] at h
        exact h.2.2 q.1 hm q.1 (List.mem_map_of_mem List.mem_cons_self) rfl
      have e : ps ++ q :: qs = (ps ++ [q]) ++ qs := by simp
      rw [e] at h ⊢
      exact (congrArg (putAll · qs) (put_of_notMem hq)).trans (ih h)

/-- Collecting pairs with distinct names changes nothing. -/
theorem collect_eq_self
    {ps : List (String × α)}
    (h : (names ps).Nodup) :
    collect ps = ps :=
  putAll_of_nodup h

end Pairs
end ChannelHeaders
