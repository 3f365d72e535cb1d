import ChannelHeaders.Proofs.HeaderDependence
import ChannelHeaders.Proofs.OperationEffects

/-!
# Writing into the headers of a transport

A program writes into the headers of a transport by setting single headers and by injecting
the headers of topics, of any specifications and payloads, in any order.  Which names a
write has is known before anything is resolved: the name that is set, or the names that the
topic declares.  Which values it gives to them may depend on the progress in front of it.

One write gives its own names their values and leaves all other names alone.  In a run of
writes the last write with a name decides the value under it.

A topic whose templates generate nothing has the same headers at any progress.  Injecting
it again changes nothing, and two such topics may be injected in either order when they
agree on the names that both declare.

**Results.**
* `get?_perform`: what one write does.
* `get?_run_of_last`, `get?_run_of_none`: a run by the last write with a name.
* `mem_names_run_iff`: the names that are there behind a run.
* `resolveHeaders_fst_congr`: headers that do not depend on the progress.
* `last_write_wins`: all of it.
-/

namespace ChannelHeaders

open Payload

/-- The ways to write into the headers of a transport. -/
inductive HeaderWrite where
  | insert (name value : String)
  /-- Injects the headers of a message on a topic. -/
  | inject (spec : Specification) (topic : String) (fields : Fields)

namespace HeaderWrite

/-- Performs a write. -/
def perform
    (s : Surroundings)
    (headers : Headers) :
    HeaderWrite → StateM Progress Headers
  | insert name value => return headers.insert name value
  | inject spec topic fields => ChannelHeaders.inject s spec topic fields headers

/-- Performs writes one after another. -/
def run (s : Surroundings) : List HeaderWrite → Headers → StateM Progress Headers
  | [], headers => return headers
  | w :: ws, headers => do
      let headers ← w.perform s headers
      run s ws headers

/-- The names that a write gives values to. -/
def names : HeaderWrite → List String
  | insert name _ => [name]
  | inject spec topic _ => Pairs.names (spec.headerEntries topic)

/-- The value that a write gives to a name at some progress. -/
def value?
    (s : Surroundings)
    (p : Progress)
    (name : String) :
    HeaderWrite → Option String
  | insert name' value => if name' = name then some value else none
  | inject spec topic fields => (resolveHeaders s spec topic fields p).1.get? name

section Steps

variable (s : Surroundings) (headers : Headers) (p : Progress)

theorem names_resolveHeaders
    (spec : Specification)
    (topic : String)
    (fields : Fields) :
    Pairs.names (resolveHeaders s spec topic fields p).1.pairs =
      Pairs.names (spec.headerEntries topic) := by
  rw [resolveHeaders_eq]
  exact names_evaluateAll s fields (spec.headerEntries topic) p

/-- A write gives values to its own names, and to no others. -/
theorem isSome_value?_iff
    (w : HeaderWrite)
    (name : String) :
    (w.value? s p name).isSome = true ↔ name ∈ w.names := by
  cases w with
  | insert name' value =>
      rw [value?, names, List.mem_singleton]
      by_cases h : name' = name
      · simp [h]
      · simp [h, Ne.symm h]
  | inject spec topic fields =>
      rw [names, ← names_resolveHeaders s p spec topic fields, value?,
        ResolvedHeaders.get?, Option.isSome_iff_ne_none, ne_eq, Pairs.lookup_eq_none_iff,
        Decidable.not_not]

/-- A write gives its values to its names and leaves the others alone. -/
theorem get?_perform
    (w : HeaderWrite)
    (name : String) :
    (w.perform s headers p).1.get? name = (w.value? s p name).or (headers.get? name) := by
  cases w with
  | insert name' value =>
      have hset : (perform s headers (insert name' value) p).1 = headers.insert name' value := rfl
      rw [hset, SortedMap.get?_insert, value?]
      by_cases h : name' = name
      · simp [h]
      · simp [h]
  | inject spec topic fields =>
      have hnodup := nodup_resolveHeaders s spec topic fields p
      have hset :
          (perform s headers (inject spec topic fields) p).1 =
            headers.insertAll (resolveHeaders s spec topic fields p).1.pairs := by
        rfl
      rw [hset, SortedMap.get?_insertAll, Pairs.last?_eq_lookup name hnodup]
      rfl

end Steps

section Runs

variable (s : Surroundings)

theorem run_cons
    (w : HeaderWrite)
    (ws : List HeaderWrite)
    (headers : Headers)
    (p : Progress) :
    run s (w :: ws) headers p =
      run s ws (w.perform s headers p).1 (w.perform s headers p).2 := by
  rfl

theorem run_append
    (ws ws' : List HeaderWrite) :
    ∀ headers p,
      run s (ws ++ ws') headers p = run s ws' (run s ws headers p).1 (run s ws headers p).2 := by
  induction ws with
  | nil => exact fun _ _ => rfl
  | cons w ws ih =>
      intro headers p
      rw [List.cons_append, run_cons, ih, run_cons]

/-- A name that no write has keeps its value. -/
theorem get?_run_of_none
    {ws : List HeaderWrite}
    {name : String} :
    ∀ {headers : Headers} {p : Progress},
      (∀ w ∈ ws, name ∉ w.names) →
      (run s ws headers p).1.get? name = headers.get? name := by
  induction ws with
  | nil => exact fun _ => rfl
  | cons w ws ih =>
      intro headers p h
      rw [List.forall_mem_cons] at h
      have hvalue : w.value? s p name = none := by
        rw [← Option.not_isSome_iff_eq_none, isSome_value?_iff]
        exact h.1
      rw [run_cons, ih h.2, get?_perform, hvalue, Option.none_or]

/-- The last write with a name decides the value under it. -/
theorem get?_run_of_last
    (before : List HeaderWrite)
    (w : HeaderWrite)
    {after : List HeaderWrite}
    {name : String}
    (hname : name ∈ w.names)
    (hafter : ∀ v ∈ after, name ∉ v.names)
    (headers : Headers)
    (p : Progress) :
    (run s (before ++ w :: after) headers p).1.get? name =
      w.value? s (run s before headers p).2 name := by
  rw [run_append, run_cons, get?_run_of_none s hafter, get?_perform]
  exact Option.or_of_isSome ((isSome_value?_iff s _ w name).mpr hname)

theorem mem_names_perform_iff
    (w : HeaderWrite)
    (headers : Headers)
    (p : Progress)
    (name : String) :
    name ∈ (w.perform s headers p).1.names ↔ name ∈ headers.names ∨ name ∈ w.names := by
  rw [SortedMap.mem_names_iff, get?_perform, Option.isSome_or, Bool.or_eq_true,
    isSome_value?_iff, ← SortedMap.mem_names_iff, or_comm]

/-- The names behind a run are those that were there, and those that were written. -/
theorem mem_names_run_iff
    (ws : List HeaderWrite)
    (name : String) :
    ∀ headers p,
      name ∈ (run s ws headers p).1.names ↔
        name ∈ headers.names ∨ ∃ w ∈ ws, name ∈ w.names := by
  induction ws with
  | nil =>
      intro headers p
      simp [run, pure, StateT.pure]
  | cons w ws ih =>
      intro headers p
      rw [run_cons, ih, mem_names_perform_iff, List.exists_mem_cons_iff, or_assoc]

/-- Two writes that do not depend on the progress may be swapped, when they give the same values to
the names that both have. -/
theorem run_comm
    (w w' : HeaderWrite)
    {p : Progress}
    (hw : ∀ q name, w.value? s q name = w.value? s p name)
    (hw' : ∀ q name, w'.value? s q name = w'.value? s p name)
    (hshared : ∀ name ∈ w.names, name ∈ w'.names → w.value? s p name = w'.value? s p name)
    (headers : Headers) :
    (run s [w, w'] headers p).1 = (run s [w', w] headers p).1 := by
  have hpair : ∀ (a b : HeaderWrite) (name : String),
      (∀ q name, b.value? s q name = b.value? s p name) →
      (run s [a, b] headers p).1.get? name =
        (b.value? s p name).or ((a.value? s p name).or (headers.get? name)) := by
    intro a b name hb
    rw [← get?_perform, ← hb (a.perform s headers p).2, ← get?_perform]
    rfl
  apply SortedMap.eq_of_get?
  intro name
  rw [hpair w w' name hw', hpair w' w name hw, ← Option.or_assoc, ← Option.or_assoc]
  refine congrArg (Option.or · _) ?_
  cases hv : w.value? s p name with
  | none => rw [Option.or_none, Option.none_or]
  | some v =>
      cases hv' : w'.value? s p name with
      | none => rfl
      | some v' =>
          have hname := (isSome_value?_iff s p w name).mp (Option.isSome_of_eq_some hv)
          have hname' := (isSome_value?_iff s p w' name).mp (Option.isSome_of_eq_some hv')
          rw [Option.some_or, Option.some_or, ← hv, ← hv', hshared name hname hname']

end Runs

/-- What a run of writes leaves in the headers. -/
structure LastWins
    (s : Surroundings)
    (writes : List HeaderWrite)
    (headers : Headers)
    (p : Progress)
    (result : Headers) :
    Prop where
  inserted : ∀ before name value after,
    writes = before ++ .insert name value :: after →
    (∀ w ∈ after, name ∉ w.names) →
    result.get? name = some value
  injected : ∀ before spec topic fields after name,
    writes = before ++ .inject spec topic fields :: after →
    name ∈ Pairs.names (spec.headerEntries topic) →
    (∀ w ∈ after, name ∉ w.names) →
    ∃ value,
      (resolveHeaders s spec topic fields (run s before headers p).2).1.get? name = some value ∧
      result.get? name = some value
  untouched : ∀ name,
    (∀ w ∈ writes, name ∉ w.names) →
    result.get? name = headers.get? name
  kept : ∀ before after,
    writes = before ++ after →
    ∀ name ∈ (run s before headers p).1.names, name ∈ result.names
  names : ∀ name, name ∈ result.names ↔ name ∈ headers.names ∨ ∃ w ∈ writes, name ∈ w.names

theorem lastWins_run
    (s : Surroundings)
    (writes : List HeaderWrite)
    (headers : Headers)
    (p : Progress) :
    LastWins s writes headers p (run s writes headers p).1 := by
  refine ⟨?_, ?_, fun name => get?_run_of_none s, ?_, ?_⟩
  · rintro before name value after rfl hafter
    rw [get?_run_of_last s before (.insert name value) List.mem_cons_self hafter]
    exact if_pos rfl
  · rintro before spec topic fields after name rfl hname hafter
    have hlast := get?_run_of_last s before (.inject spec topic fields) hname hafter headers p
    obtain ⟨value, hvalue⟩ := Option.isSome_iff_exists.mp
      ((isSome_value?_iff s (run s before headers p).2 (.inject spec topic fields) name).mpr hname)
    exact ⟨value, hvalue, hlast.trans hvalue⟩
  · rintro before after rfl name hname
    rw [run_append, mem_names_run_iff]
    exact Or.inl hname
  · intro name
    exact mem_names_run_iff s writes name headers p

end HeaderWrite

namespace Specification

/-- No header of a topic is a fresh identifier or a timestamp. -/
def GeneratesNothing
    (spec : Specification)
    (topic : String) :
    Prop :=
  ∀ t ∈ spec.headerEntries topic, t.2 ≠ "${uuid()}" ∧ t.2 ≠ "${timestamp()}"

instance
    (spec : Specification)
    (topic : String) :
    Decidable (spec.GeneratesNothing topic) :=
  inferInstanceAs (Decidable (∀ t ∈ spec.headerEntries topic, _))

end Specification

section Injecting

variable (s : Surroundings)

theorem evaluateAll_fst_congr
    (fields : Fields)
    {ts : List (String × String)} :
    (∀ t ∈ ts, t.2 ≠ "${uuid()}" ∧ t.2 ≠ "${timestamp()}") →
    ∀ p p', (evaluateAll s fields ts p).1 = (evaluateAll s fields ts p').1 := by
  induction ts with
  | nil => exact fun _ _ _ => rfl
  | cons t ts ih =>
      intro h p p'
      rw [List.forall_mem_cons] at h
      obtain ⟨⟨hidentifier, htimestamp⟩, hts⟩ := h
      have hvalue : (resolveTemplate s fields t.2 p).1 = (resolveTemplate s fields t.2 p').1 :=
        resolveTemplate_congr hidentifier htimestamp (fun _ _ => rfl) s s p p'
      rw [evaluateAll_cons, evaluateAll_cons, hvalue, ih hts _ (resolveTemplate s fields t.2 p').2]

/-- Headers that are not generated do not depend on the progress. -/
theorem resolveHeaders_fst_congr
    {spec : Specification}
    {topic : String}
    (h : spec.GeneratesNothing topic)
    (fields : Fields)
    (p p' : Progress) :
    (resolveHeaders s spec topic fields p).1 = (resolveHeaders s spec topic fields p').1 := by
  rw [resolveHeaders_eq, resolveHeaders_eq]
  exact congrArg ResolvedHeaders.mk (evaluateAll_fst_congr s fields h p p')

theorem get?_inject
    (spec : Specification)
    (topic : String)
    (fields : Fields)
    (headers : Headers)
    (p : Progress)
    (name : String) :
    (inject s spec topic fields headers p).1.get? name =
      ((resolveHeaders s spec topic fields p).1.get? name).or (headers.get? name) :=
  HeaderWrite.get?_perform s headers p (.inject spec topic fields) name

/-- A topic without headers leaves the headers of the transport as they are. -/
theorem inject_of_lacksHeaders
    {spec : Specification}
    {topic : String}
    (h : spec.LacksHeaders topic)
    (fields : Fields)
    (headers : Headers)
    (p : Progress) :
    (inject s spec topic fields headers p).1 = headers := by
  have hentries := Specification.headerEntries_eq_nil_iff.mpr h
  apply SortedMap.eq_of_get?
  intro name
  rw [get?_inject, resolveHeaders_eq, hentries]
  rfl

/-- Injecting headers again changes nothing when none of them is generated. -/
theorem inject_inject
    {spec : Specification}
    {topic : String}
    (h : spec.GeneratesNothing topic)
    (fields : Fields)
    (headers : Headers)
    (p p' : Progress) :
    (inject s spec topic fields (inject s spec topic fields headers p).1 p').1 =
      (inject s spec topic fields headers p).1 := by
  apply SortedMap.eq_of_get?
  intro name
  rw [get?_inject, get?_inject, resolveHeaders_fst_congr s h fields p' p, ← Option.or_assoc,
    Option.or_self]

/-- Headers that are not generated may be injected in either order, when those with the same name
have the same value. -/
theorem run_inject_comm
    {spec spec' : Specification}
    {topic topic' : String}
    (h : spec.GeneratesNothing topic)
    (h' : spec'.GeneratesNothing topic')
    {fields fields' : Fields}
    {p : Progress}
    (hshared : ∀ name ∈ Pairs.names (spec.headerEntries topic),
      name ∈ Pairs.names (spec'.headerEntries topic') →
      (resolveHeaders s spec topic fields p).1.get? name =
        (resolveHeaders s spec' topic' fields' p).1.get? name)
    (headers : Headers) :
    (HeaderWrite.run s [.inject spec topic fields, .inject spec' topic' fields'] headers p).1 =
      (HeaderWrite.run s [.inject spec' topic' fields', .inject spec topic fields]
        headers p).1 := by
  refine HeaderWrite.run_comm s (.inject spec topic fields) (.inject spec' topic' fields') ?_ ?_
    hshared headers
  · intro q name
    exact congrArg (ResolvedHeaders.get? · name) (resolveHeaders_fst_congr s h fields q p)
  · intro q name
    exact congrArg (ResolvedHeaders.get? · name) (resolveHeaders_fst_congr s h' fields' q p)

end Injecting

/-- The last write with a name decides the value under it, and nothing else is touched. -/
theorem last_write_wins (s : Surroundings) :
    (∀ (writes : List HeaderWrite) (headers : Headers) (p : Progress),
      HeaderWrite.LastWins s writes headers p (HeaderWrite.run s writes headers p).1) ∧
    (∀ (spec : Specification) (topic : String) (fields : Fields) (headers : Headers)
      (p p' : Progress),
      let injected := (inject s spec topic fields headers p).1
      (spec.LacksHeaders topic → injected = headers) ∧
      (headers = .empty → injected = (resolveHeaders s spec topic fields p).1.toHeaders) ∧
      (spec.GeneratesNothing topic → (inject s spec topic fields injected p').1 = injected)) ∧
    ∀ (spec spec' : Specification) (topic topic' : String) (fields fields' : Fields)
      (headers : Headers) (p : Progress),
      spec.GeneratesNothing topic →
      spec'.GeneratesNothing topic' →
      (∀ name ∈ Pairs.names (spec.headerEntries topic),
        name ∈ Pairs.names (spec'.headerEntries topic') →
        (resolveHeaders s spec topic fields p).1.get? name =
          (resolveHeaders s spec' topic' fields' p).1.get? name) →
      (HeaderWrite.run s [.inject spec topic fields, .inject spec' topic' fields'] headers p).1 =
        (HeaderWrite.run s [.inject spec' topic' fields', .inject spec topic fields]
          headers p).1 := by
  refine ⟨HeaderWrite.lastWins_run s, ?_, ?_⟩
  · intro spec topic fields headers p p' injected
    refine ⟨fun h => inject_of_lacksHeaders s h fields headers p, ?_,
      fun h => inject_inject s h fields headers p p'⟩
    rintro rfl
    rfl
  · intro spec spec' topic topic' fields fields' headers p h h' hshared
    exact run_inject_comm s h h' hshared headers

/-- A header that is set and then injected, one that is set behind the injection, one that is left
alone, and two topics that share a header. -/
theorem last_write_wins_orders :
    let orders : HeaderTemplates := .ofList
      [("x-id", "${message.payload.id}"), ("x-source", "shop")]
    let bills : HeaderTemplates := .ofList [("x-source", "shop"), ("x-kind", "${now()}")]
    let spec : Specification :=
      ⟨none, none, .ofList [("orders", ⟨none, some orders⟩), ("bills", ⟨none, some bills⟩)],
        .empty⟩
    let fields : Fields := .ofList [("id", .text "7")]
    let headers : Headers := .ofList [("x-source", "none"), ("content-type", "json")]
    let writes : List HeaderWrite :=
      [.insert "x-id" "draft", .inject spec "orders" fields, .insert "x-kind" "note"]
    ∀ (s : Surroundings) (p : Progress),
      let result := (HeaderWrite.run s writes headers p).1
      result.get? "x-id" = some "7" ∧
        result.get? "x-kind" = some "note" ∧
        result.get? "content-type" = some "json" ∧
        "x-source" ∈ result.names ∧
        "x-other" ∉ result.names ∧
        (inject s spec "notes" fields headers p).1 = headers ∧
        (HeaderWrite.run s [.inject spec "orders" fields, .inject spec "bills" fields]
            headers p).1 =
          (HeaderWrite.run s [.inject spec "bills" fields, .inject spec "orders" fields]
            headers p).1 := by
  intro orders bills spec fields headers writes s p result
  obtain ⟨hruns, hinject, hswap⟩ := last_write_wins s
  have hresult : HeaderWrite.LastWins s writes headers p result := hruns writes headers p
  have horders : spec.GeneratesNothing "orders" := by decide
  have hbills : spec.GeneratesNothing "bills" := by decide
  have hnotes : spec.LacksHeaders "notes" := by decide
  refine ⟨?_, ?_, ?_, ?_, ?_, (hinject spec "notes" fields headers p p).1 hnotes, ?_⟩
  · obtain ⟨value, hvalue, hget⟩ :=
      hresult.injected [.insert "x-id" "draft"] spec "orders" fields [.insert "x-kind" "note"]
        "x-id" rfl (by decide) (by decide)
    exact hget.trans (hvalue.symm.trans rfl)
  · exact hresult.inserted [.insert "x-id" "draft", .inject spec "orders" fields] "x-kind" "note" []
      rfl (by simp)
  · exact (hresult.untouched "content-type" (by decide)).trans rfl
  · exact (hresult.names "x-source").mpr (Or.inl (by decide))
  · exact mt (hresult.names "x-other").mp (by decide)
  · refine hswap spec spec "orders" "bills" fields fields headers p horders hbills ?_
    have hshared : ∀ name ∈ Pairs.names (spec.headerEntries "orders"),
        name ∈ Pairs.names (spec.headerEntries "bills") → name = "x-source" := by
      decide
    intro name hname hname'
    obtain rfl := hshared name hname hname'
    rfl

end ChannelHeaders
