import Mathlib
import ChannelHeaders.Proofs.DecimalTexts
import ChannelHeaders.Proofs.OperationEffects
import ChannelHeaders.Threads

/-!
# Timestamps never go back

The clock may jump in either direction, and a thread may be held up between its reading and
its raise of the mark.  What a raise returns does not depend on the time at which the clock
was read, but on the raises before it.

Calls one after another cannot be held up.  Each timestamp is then the greatest of the mark
at first and the readings taken so far, and a thread that nobody interrupts does the same.

**Invariants.**  The mark is the greatest reading that was committed, and the greatest value
that was returned.  A thread that waits with a reading has done nothing else for its task,
and nothing at all for the tasks behind it.

**Results.**
* `Instant.countsAs_milliseconds`: how a reading counts.
* `raises_evaluateAll`, `raises_run`: timestamps of calls one after another.
* `Machine.goes_next`: the ways in which a thread goes on.
* `Machine.Recorded.step`, `Machine.Recorded.run`: the invariants of a history.
* `timestamps_never_go_back`: the order of timestamps, in a history and in a run.
-/

namespace ChannelHeaders

open Payload

section Readings

/-- How a reading counts as milliseconds: as none before the epoch, as the greatest number when
there are more, and as those that have passed otherwise. -/
inductive Instant.CountsAs (i : Instant) : Nat → Prop
  | early
      (h : i.nanoseconds < 0) :
      CountsAs i 0
  | late
      (h : (maxTimestamp : Int) < i.nanoseconds / 1000000) :
      CountsAs i maxTimestamp
  | passed
      {n : Nat}
      (h : (n : Int) = i.nanoseconds / 1000000)
      (hle : n ≤ maxTimestamp) :
      CountsAs i n

theorem Instant.countsAs_milliseconds (i : Instant) : i.CountsAs i.milliseconds := by
  rw [milliseconds]
  by_cases hneg : i.nanoseconds < 0
  · have hzero : (i.nanoseconds / 1000000).toNat = 0 := by omega
    rw [hzero, Nat.zero_min]
    exact .early hneg
  · by_cases hlate : (maxTimestamp : Int) < i.nanoseconds / 1000000
    · rw [Nat.min_eq_right (by omega)]
      exact .late hlate
    · rw [Nat.min_eq_left (by omega)]
      exact .passed (by omega) (by omega)

theorem Instant.milliseconds_le (i : Instant) : i.milliseconds ≤ maxTimestamp :=
  Nat.min_le_right _ _

end Readings

section Evaluations

variable (s : Surroundings) (fields : Fields)

theorem parse_eq_timestamp_iff {text : String} :
    Template.parse text = .timestamp ↔ text = "${timestamp()}" := by
  constructor
  · intro h
    have hrender := Template.render_parse text
    rw [h] at hrender
    exact hrender.symm
  · rintro rfl
    rfl

/-- Every other template leaves the clock and the mark alone. -/
theorem clock_resolveTemplate
    {text : String}
    (h : text ≠ "${timestamp()}")
    (p : Progress) :
    (resolveTemplate s fields text p).2.readings = p.readings ∧
    (resolveTemplate s fields text p).2.mark = p.mark := by
  by_cases hidentifier : text = "${uuid()}"
  · rw [hidentifier, resolveTemplate_identifier]
    exact ⟨rfl, rfl⟩
  · rw [progress_resolveTemplate s fields hidentifier h]
    exact ⟨rfl, rfl⟩

end Evaluations

section Maxima

/-- The greatest of a number and two lists, by the greatest of the first list. -/
theorem isGreatest_append
    {a b c : Nat}
    {xs ys : List Nat}
    (h : IsGreatest (insert a {x | x ∈ xs}) b)
    (h' : IsGreatest (insert b {y | y ∈ ys}) c) :
    IsGreatest (insert a {x | x ∈ xs ++ ys}) c := by
  have hbc : b ≤ c := h'.2 (Set.mem_insert b _)
  constructor
  · rcases h'.1 with rfl | hc
    · rcases h.1 with rfl | hc
      · exact Set.mem_insert c _
      · exact Set.mem_insert_of_mem a (List.mem_append_left ys hc)
    · exact Set.mem_insert_of_mem a (List.mem_append_right xs hc)
  · rintro z (rfl | hz)
    · exact (h.2 (Set.mem_insert z _)).trans hbc
    · rcases List.mem_append.mp hz with hz | hz
      · exact (h.2 (Set.mem_insert_of_mem a hz)).trans hbc
      · exact h'.2 (Set.mem_insert_of_mem b hz)

theorem isGreatest_nil (a : Nat) : IsGreatest (insert a {x | x ∈ ([] : List Nat)}) a := by
  simp [IsGreatest]

theorem isGreatest_singleton
    {a b : Nat}
    (h : a ≤ b) :
    IsGreatest (insert a {x | x ∈ [b]}) b := by
  constructor
  · exact Set.mem_insert_of_mem a (List.mem_singleton_self b)
  · rintro z (rfl | hz)
    · exact h
    · exact (List.mem_singleton.mp hz).le

end Maxima

section Calls

/-- Values that do not fall, on the way from one mark to another. -/
structure Rises
    (first : Nat)
    (vs : List Nat)
    (last : Nat) :
    Prop where
  le : first ≤ last
  above : ∀ v ∈ vs, first ≤ v
  below : ∀ v ∈ vs, v ≤ last
  ordered : vs.Pairwise (· ≤ ·)

/-- Values for readings that raise a mark one after another.  Each value is the greatest of the
first mark and the readings up to its own.  The last mark is the greatest of all readings, and the
greatest of the values, unless the first mark is greater. -/
structure Raises
    (first : Nat)
    (readings vs : List Nat)
    (last : Nat) :
    Prop where
  length : vs.length = readings.length
  greatest : ∀ k v,
    vs[k]? = some v →
    IsGreatest (insert first {r | r ∈ readings.take (k + 1)}) v
  committed : IsGreatest (insert first {r | r ∈ readings}) last
  returned : IsGreatest (insert first {v | v ∈ vs}) last

theorem Raises.nil (mark : Nat) : Raises mark [] [] mark := by
  refine ⟨rfl, ?_, isGreatest_nil mark, isGreatest_nil mark⟩
  intro k v hv
  exact absurd hv (by simp)

theorem Raises.single (mark r : Nat) : Raises mark [r] [max mark r] (max mark r) := by
  have hreading : IsGreatest (insert mark {x | x ∈ [r]}) (max mark r) := by
    rcases Nat.le_total mark r with h | h
    · rw [Nat.max_eq_right h]
      exact isGreatest_singleton h
    · rw [Nat.max_eq_left h]
      refine ⟨Set.mem_insert mark _, ?_⟩
      rintro x (rfl | hx)
      · exact Nat.le_refl x
      · exact (List.mem_singleton.mp hx).trans_le h
  refine ⟨rfl, ?_, hreading, isGreatest_singleton (Nat.le_max_left mark r)⟩
  intro k v hv
  obtain ⟨rfl, rfl⟩ : k = 0 ∧ max mark r = v := by
    simpa [List.getElem?_singleton] using hv
  exact hreading

theorem Raises.append
    {first mid last : Nat}
    {rs rs' vs vs' : List Nat}
    (h : Raises first rs vs mid)
    (h' : Raises mid rs' vs' last) :
    Raises first (rs ++ rs') (vs ++ vs') last := by
  refine ⟨?_, ?_, isGreatest_append h.committed h'.committed,
    isGreatest_append h.returned h'.returned⟩
  · rw [List.length_append, List.length_append, h.length, h'.length]
  · intro k v hv
    have hlength := h.length
    rcases Nat.lt_or_ge k vs.length with hk | hk
    · rw [List.getElem?_append_left hk] at hv
      rw [List.take_append_of_le_length (by omega)]
      exact h.greatest k v hv
    · rw [List.getElem?_append_right hk] at hv
      have htake : (rs ++ rs').take (k + 1) = rs ++ rs'.take (k - vs.length + 1) := by
        rw [List.take_append, List.take_of_length_le (by omega)]
        congr 2
        omega
      rw [htake]
      exact isGreatest_append h.committed (h'.greatest _ v hv)

/-- Each value is the greatest among more readings than those before it. -/
theorem Raises.rises
    {first last : Nat}
    {rs vs : List Nat}
    (h : Raises first rs vs last) :
    Rises first vs last := by
  refine ⟨h.committed.2 (Set.mem_insert first _), ?_, ?_, ?_⟩
  · intro v hv
    obtain ⟨k, hk⟩ := List.mem_iff_getElem?.mp hv
    exact (h.greatest k v hk).2 (Set.mem_insert first _)
  · intro v hv
    exact h.returned.2 (Set.mem_insert_of_mem first hv)
  · refine List.pairwise_iff_getElem.mpr ?_
    intro i j hi hj hij
    have hearlier := h.greatest i vs[i] (List.getElem?_eq_getElem hi)
    have hlater := h.greatest j vs[j] (List.getElem?_eq_getElem hj)
    refine hlater.2 (Set.insert_subset_insert ?_ hearlier.1)
    exact List.take_subset_take_left rs (Nat.succ_le_succ hij.le)

/-- A value is the first mark or a reading. -/
theorem Raises.le_of_readings
    {first last bound : Nat}
    {rs vs : List Nat}
    (h : Raises first rs vs last)
    (hrs : ∀ r ∈ rs, r ≤ bound)
    {v : Nat}
    (hv : v ∈ vs) :
    v ≤ max first bound := by
  obtain ⟨k, hk⟩ := List.mem_iff_getElem?.mp hv
  rcases (h.greatest k v hk).1 with rfl | hr
  · exact Nat.le_max_left v bound
  · exact (hrs v (List.mem_of_mem_take hr)).trans (Nat.le_max_right first bound)

/-- The number of timestamps among templates. -/
def timestampCount (ts : List (String × String)) : Nat :=
  ts.countP fun t => t.2 = "${timestamp()}"

theorem timestampCount_cons
    (t : String × String)
    (ts : List (String × String)) :
    timestampCount (t :: ts) = timestampCount ts + if t.2 = "${timestamp()}" then 1 else 0 := by
  simp only [timestampCount, List.countP_cons, decide_eq_true_eq]

/-- The milliseconds of some readings of the clock. -/
def Surroundings.milliseconds
    (s : Surroundings)
    (readings : List Nat) :
    List Nat :=
  readings.map fun n => (s.clock n).milliseconds

variable (s : Surroundings)

/-- Templates that are evaluated one after another read the clock once for each timestamp, and
raise the mark to the reading. -/
theorem raises_evaluateAll
    (fields : Fields)
    (ts : List (String × String)) :
    ∀ p, ∃ vs,
      pick "${timestamp()}" ts (evaluateAll s fields ts p).1 = vs.map toString ∧
      (evaluateAll s fields ts p).2.readings = p.readings + timestampCount ts ∧
      Raises p.mark (s.milliseconds (List.range' p.readings (timestampCount ts))) vs
        (evaluateAll s fields ts p).2.mark := by
  induction ts with
  | nil => exact fun p => ⟨[], rfl, rfl, Raises.nil p.mark⟩
  | cons t ts ih =>
      intro p
      obtain ⟨name, text⟩ := t
      rw [evaluateAll_cons, pick_cons, timestampCount_cons]
      obtain ⟨vs, hpick, hreadings, hraises⟩ := ih (resolveTemplate s fields text p).2
      by_cases h : text = "${timestamp()}"
      · subst h
        let r := (s.clock p.readings).milliseconds
        have hresolve := resolveTemplate_timestamp s fields p
        rw [hresolve] at hreadings hraises
        refine ⟨max p.mark r :: vs, ?_, ?_, ?_⟩
        · rw [hpick, if_pos rfl, hresolve]
          rfl
        · rw [hresolve, hreadings, if_pos rfl, Nat.add_right_comm]
          rfl
        · rw [hresolve, if_pos rfl, List.range'_succ]
          exact (Raises.single p.mark r).append hraises
      · obtain ⟨hsame, hmark⟩ := clock_resolveTemplate s fields h p
        rw [hsame] at hreadings hraises
        rw [hmark] at hraises
        refine ⟨vs, ?_, ?_, ?_⟩
        · rw [hpick, if_neg h]
          rfl
        · rw [hreadings, if_neg h, Nat.add_zero]
        · rw [if_neg h, Nat.add_zero]
          exact hraises

variable {σ : Type}

/-- The readings that operations take for timestamps, when `n` were taken before.  Each message
takes one more, for its time. -/
def Operation.timestampReadings : List (Operation σ) → Nat → List Nat
  | [], _ => []
  | operation :: operations, n =>
      let count := timestampCount operation.evaluated
      List.range' n count ++ timestampReadings operations (n + count + operation.messageCount)

/-- A run raises the mark with one reading after another. -/
theorem raises_run (operations : List (Operation σ)) :
    ∀ (p : Progress) (t : σ), ∃ vs,
      (Operation.run s operations (p, t)).1.flatMap
          (Operation.Entry.valuesOf "${timestamp()}") = vs.map toString ∧
      Raises p.mark (s.milliseconds (Operation.timestampReadings operations p.readings)) vs
        (Operation.run s operations (p, t)).2.1.mark := by
  induction operations with
  | nil => exact fun p _ => ⟨[], rfl, Raises.nil p.mark⟩
  | cons operation operations ih =>
      intro p t
      obtain ⟨fields, h⟩ := Operation.perform_evaluates s p t operation
      obtain ⟨vs, hpick, hreadings, hraises⟩ := raises_evaluateAll s fields operation.evaluated p
      obtain ⟨ws, hvalues, hrest⟩ :=
        ih (operation.perform s (p, t)).2.1 (operation.perform s (p, t)).2.2
      rw [h.readings, hreadings] at hrest
      rw [← h.mark] at hraises
      refine ⟨vs ++ ws, ?_, ?_⟩
      · rw [Operation.run_cons, List.flatMap_cons, h.values, hpick, hvalues, List.map_append]
      · rw [Operation.timestampReadings, Surroundings.milliseconds, List.map_append]
        exact hraises.append hrest

theorem milliseconds_le
    {readings : List Nat}
    {r : Nat}
    (h : r ∈ s.milliseconds readings) :
    r ≤ maxTimestamp := by
  obtain ⟨n, -, rfl⟩ := List.mem_map.mp h
  exact (s.clock n).milliseconds_le

end Calls

section Templates

/-- The template that a task evaluates, with its name. -/
def Task.template? : Task → Option (String × String)
  | .warn _ => none
  | .evaluate _ name text => some (name, text)

/-- The templates that a call evaluates, each under the name of its header. -/
def Call.templates : Call → List (String × String)
  | .template _ text => [("", text)]
  | .headers spec topic _ => spec.headerEntries topic

/-- The tasks of a call evaluate its templates. -/
theorem filterMap_tasks (call : Call) :
    call.tasks.filterMap Task.template? = call.templates := by
  cases call with
  | template fields text => rfl
  | headers spec topic fields =>
      rw [Call.tasks, Call.templates, Specification.templates?_eq_headerEntries]
      cases spec.templates? topic with
      | none => rfl
      | some templates =>
          rw [List.filterMap_map]
          exact List.filterMap_some

end Templates

namespace Moment

/-- Whether a moment belongs to a task. -/
def ofTask
    (thread task : Nat)
    (x : Moment) :
    Bool :=
  x.thread = thread ∧ x.task = task

/-- The reading of the clock that was taken. -/
def reading? (x : Moment) : Option Instant :=
  match x.act with
  | .read now => some now
  | _ => none

/-- The milliseconds to which the mark was raised. -/
def committed? (x : Moment) : Option Nat :=
  match x.act with
  | .raise now _ => some now.milliseconds
  | _ => none

/-- The timestamp that was returned. -/
def value? (x : Moment) : Option Nat :=
  match x.act with
  | .raise _ value => some value
  | _ => none

theorem exists_of_value
    {x : Moment}
    {v : Nat}
    (h : x.value? = some v) :
    ∃ i k now, x = ⟨i, k, .raise now v⟩ := by
  obtain ⟨i, k, act⟩ := x
  cases act with
  | raise now value =>
      cases h
      exact ⟨i, k, now, rfl⟩
  | rest => cases h
  | warn => cases h
  | evaluate => cases h
  | read now => cases h

theorem committed_le
    {x : Moment}
    {r : Nat}
    (h : x.committed? = some r) :
    r ≤ maxTimestamp := by
  rw [committed?] at h
  split at h
  · rename_i now _ _
    cases h
    exact now.milliseconds_le
  · cases h

end Moment

namespace Machine

section Moves

/-- The ways in which a thread goes on, and what they do to the progress. -/
inductive Goes
    (s : Surroundings)
    (t : Thread)
    (p : Progress) :
    Act → Thread → Progress → Prop
  | rest
      (h : t.tasks = []) :
      Goes s t p .rest t p
  | warn
      {topic : String}
      {tasks : List Task}
      (h : t.tasks = .warn topic :: tasks) :
      Goes s t p .warn ⟨t.done + 1, tasks, none, t.headers⟩
        { p with events := p.events ++ [.noTemplates topic] }
  | read
      {fields : Fields}
      {name : String}
      {tasks : List Task}
      (h : t.tasks = .evaluate fields name "${timestamp()}" :: tasks)
      (hreading : t.reading = none) :
      Goes s t p (.read (s.clock p.readings)) { t with reading := some (s.clock p.readings) }
        { p with readings := p.readings + 1 }
  | raise
      {fields : Fields}
      {name : String}
      {tasks : List Task}
      {now : Instant}
      (h : t.tasks = .evaluate fields name "${timestamp()}" :: tasks)
      (hreading : t.reading = some now) :
      Goes s t p (.raise now (max p.mark now.milliseconds))
        ⟨t.done + 1, tasks, none, t.headers ++ [(name, toString (max p.mark now.milliseconds))]⟩
        { p with mark := max p.mark now.milliseconds }
  | evaluate
      {fields : Fields}
      {name text value : String}
      {tasks : List Task}
      {p' : Progress}
      (h : t.tasks = .evaluate fields name text :: tasks)
      (hne : text ≠ "${timestamp()}")
      (hreadings : p'.readings = p.readings)
      (hmark : p'.mark = p.mark) :
      Goes s t p .evaluate ⟨t.done + 1, tasks, none, t.headers ++ [(name, value)]⟩ p'

/-- A step of a thread is one of these ways. -/
theorem goes_next
    (s : Surroundings)
    (t : Thread)
    (p : Progress) :
    Goes s t p (t.next s p).1.1 (t.next s p).1.2 (t.next s p).2 := by
  cases htasks : t.tasks with
  | nil =>
      rw [Thread.next_of_nil s p htasks]
      exact .rest htasks
  | cons task tasks =>
      cases task with
      | warn topic =>
          rw [Thread.next_warn s p htasks]
          exact .warn htasks
      | evaluate fields name text =>
          by_cases htext : text = "${timestamp()}"
          · subst htext
            cases hreading : t.reading with
            | none =>
                rw [Thread.next_read s p htasks rfl hreading]
                exact .read htasks hreading
            | some now =>
                rw [Thread.next_raise s p htasks rfl hreading]
                exact .raise htasks hreading
          · obtain ⟨hreadings, hmark⟩ := clock_resolveTemplate s fields htext p
            rw [Thread.next_evaluate s p htasks (mt parse_eq_timestamp_iff.mp htext)]
            exact .evaluate htasks htext hreadings hmark

end Moves

section Orders

/-- The timestamps that a thread got. -/
def valuesOf
    (thread : Nat)
    (history : List Moment) :
    List Nat :=
  (history.filter fun x => x.thread = thread).filterMap Moment.value?

/-- What a moment may be, after those before it.  A task reads the clock before it does anything
else, and raises the mark to that reading after nothing else.  The raise returns the greatest of
the readings that have been committed. -/
def InOrder
    (before : List Moment)
    (x : Moment) :
    Prop :=
  match x.act with
  | .read _ => before.filter (Moment.ofTask x.thread x.task) = []
  | .raise now value =>
      before.filter (Moment.ofTask x.thread x.task) = [⟨x.thread, x.task, .read now⟩] ∧
      IsGreatest {r | r ∈ (before ++ [x]).filterMap Moment.committed?} value
  | _ => True

/-- Every moment of a history is in order after those before it. -/
def Ordered (history : List Moment) : Prop :=
  ∀ before x after, history = before ++ x :: after → InOrder before x

theorem ordered_nil : Ordered [] := by
  intro before x after h
  exact absurd h (by simp)

theorem Ordered.concat
    {history : List Moment}
    (h : Ordered history)
    {x : Moment}
    (hx : InOrder history x) :
    Ordered (history ++ [x]) := by
  intro before y after hsplit
  rcases List.eq_nil_or_concat after with rfl | ⟨after, z, rfl⟩
  · obtain ⟨rfl, hy⟩ := List.append_inj' hsplit rfl
    cases hy
    exact hx
  · rw [List.concat_eq_append, ← List.cons_append, ← List.append_assoc] at hsplit
    exact h before y after (List.append_inj' hsplit rfl).1

end Orders

section Marks

/-- The readings of the clock are taken in order, and the mark is the greatest reading that was
committed as well as the greatest value that was returned. -/
structure Marked
    (s : Surroundings)
    (history : List Moment)
    (p : Progress) :
    Prop where
  clock : history.filterMap Moment.reading? = (List.range p.readings).map s.clock
  committed : IsGreatest (insert 0 {r | r ∈ history.filterMap Moment.committed?}) p.mark
  returned : IsGreatest (insert 0 {v | v ∈ history.filterMap Moment.value?}) p.mark

variable {s : Surroundings} {history : List Moment} {t t' : Thread} {p p' : Progress} {act : Act}

theorem marked_start (s : Surroundings) : Marked s [] .start :=
  ⟨rfl, isGreatest_nil 0, isGreatest_nil 0⟩

/-- The greatest of the readings, when one is added to those below the mark. -/
theorem isGreatest_concat
    {rs : List Nat}
    {mark : Nat}
    (h : IsGreatest (insert 0 {r | r ∈ rs}) mark)
    (r : Nat) :
    IsGreatest {r' | r' ∈ rs ++ [r]} (max mark r) := by
  constructor
  · rcases Nat.le_total mark r with hle | hle
    · rw [Nat.max_eq_right hle]
      exact List.mem_append_right rs (List.mem_singleton_self r)
    · rw [Nat.max_eq_left hle]
      rcases h.1 with rfl | hmem
      · rw [Nat.le_zero.mp hle]
        exact List.mem_append_right rs (List.mem_singleton_self 0)
      · exact List.mem_append_left [r] hmem
  · intro r' hr'
    rcases List.mem_append.mp hr' with hmem | hmem
    · exact (h.2 (Set.mem_insert_of_mem 0 hmem)).trans (Nat.le_max_left mark r)
    · rw [List.mem_singleton.mp hmem]
      exact Nat.le_max_right mark r

/-- A value that is not below the mark is the greatest when it is added. -/
theorem isGreatest_insert_concat
    {vs : List Nat}
    {mark v : Nat}
    (h : IsGreatest (insert 0 {w | w ∈ vs}) mark)
    (hle : mark ≤ v) :
    IsGreatest (insert 0 {w | w ∈ vs ++ [v]}) v :=
  isGreatest_append h (isGreatest_singleton hle)

theorem Marked.quiet
    (h : Marked s history p)
    {x : Moment}
    (hact : x.act = .rest ∨ x.act = .warn ∨ x.act = .evaluate)
    (hreadings : p'.readings = p.readings)
    (hmark : p'.mark = p.mark) :
    Marked s (history ++ [x]) p' := by
  have hnone : x.reading? = none ∧ x.committed? = none ∧ x.value? = none := by
    rcases hact with hact | hact | hact
    all_goals simp [Moment.reading?, Moment.committed?, Moment.value?, hact]
  obtain ⟨hreading, hcommitted, hvalue⟩ := hnone
  constructor
  · rw [filterMap_concat, hreading, Option.toList_none, List.append_nil, hreadings]
    exact h.clock
  · rw [filterMap_concat, hcommitted, Option.toList_none, List.append_nil, hmark]
    exact h.committed
  · rw [filterMap_concat, hvalue, Option.toList_none, List.append_nil, hmark]
    exact h.returned

theorem Marked.read
    (h : Marked s history p)
    (i n : Nat) :
    Marked s (history ++ [⟨i, n, .read (s.clock p.readings)⟩])
      { p with readings := p.readings + 1 } := by
  constructor
  · rw [filterMap_concat, h.clock, List.range_succ, List.map_append]
    rfl
  · rw [filterMap_concat]
    exact (List.append_nil (history.filterMap Moment.committed?)).symm ▸ h.committed
  · rw [filterMap_concat]
    exact (List.append_nil (history.filterMap Moment.value?)).symm ▸ h.returned

theorem Marked.raise
    (h : Marked s history p)
    (i n : Nat)
    (now : Instant) :
    let mark := max p.mark now.milliseconds
    Marked s (history ++ [⟨i, n, .raise now mark⟩]) { p with mark } := by
  intro mark
  constructor
  · rw [filterMap_concat]
    exact (List.append_nil _).trans h.clock
  · rw [filterMap_concat]
    have hgreatest := (isGreatest_concat h.committed now.milliseconds).insert 0
    rwa [Nat.zero_max] at hgreatest
  · rw [filterMap_concat]
    exact isGreatest_insert_concat h.returned (Nat.le_max_left _ _)

theorem Marked.step
    (h : Marked s history p)
    (hgo : Goes s t p act t' p')
    (i n : Nat) :
    Marked s (history ++ [⟨i, n, act⟩]) p' := by
  cases hgo with
  | rest => exact h.quiet (.inl rfl) rfl rfl
  | warn => exact h.quiet (.inr (.inl rfl)) rfl rfl
  | evaluate _ _ hreadings hmark => exact h.quiet (.inr (.inr rfl)) hreadings hmark
  | read => exact h.read i n
  | raise => exact h.raise i n _

end Marks

section Threads

/-- A thread has done the first tasks of its program, and has a header for each template among
them.  For the next task it has taken a reading at most. -/
structure Follows
    (program : List Task)
    (history : List Moment)
    (i : Nat)
    (t : Thread) :
    Prop where
  past : ∀ x ∈ history, x.thread = i → x.task ≤ t.done
  current : t.tasks ≠ [] →
    history.filter (Moment.ofTask i t.done) =
      (t.reading.map fun now => ⟨i, t.done, .read now⟩).toList
  finished : ∃ done,
    program = done ++ t.tasks ∧
    Pairs.names t.headers = Pairs.names (done.filterMap Task.template?) ∧
    pick "${timestamp()}" (done.filterMap Task.template?) t.headers =
      (valuesOf i history).map toString

variable {program : List Task} {history : List Moment} {i : Nat} {t : Thread}

theorem follows_start
    (program : List Task)
    (i : Nat) :
    Follows program [] i (.start program) :=
  ⟨fun _ h => absurd h List.not_mem_nil, fun _ => rfl, [], rfl, rfl, rfl⟩

theorem valuesOf_concat
    (history : List Moment)
    (x : Moment) :
    valuesOf i (history ++ [x]) =
      valuesOf i history ++ if x.thread = i then x.value?.toList else [] := by
  rw [valuesOf, List.filter_append]
  by_cases h : x.thread = i
  · rw [if_pos h, List.filter_cons_of_pos (by simpa using h)]
    exact filterMap_concat Moment.value? _ x
  · rw [if_neg h, List.filter_cons_of_neg (by simpa using h), List.filterMap_append]
    rfl

/-- What another thread does is of no concern to a thread. -/
theorem Follows.other
    (h : Follows program history i t)
    {x : Moment}
    (hne : x.thread ≠ i) :
    Follows program (history ++ [x]) i t := by
  refine ⟨?_, ?_, ?_⟩
  · intro y hy hthread
    rcases List.mem_append.mp hy with hy | hy
    · exact h.past y hy hthread
    · rw [List.mem_singleton.mp hy] at hthread
      exact absurd hthread hne
  · intro htasks
    rw [List.filter_append, List.filter_cons_of_neg (by simp [Moment.ofTask, hne])]
    exact (List.append_nil _).trans (h.current htasks)
  · obtain ⟨done, hprogram, hnames, hpick⟩ := h.finished
    refine ⟨done, hprogram, hnames, ?_⟩
    rw [valuesOf_concat, if_neg hne, List.append_nil]
    exact hpick

/-- Nothing was done for the tasks behind the next one. -/
theorem Follows.past_concat
    (h : Follows program history i t)
    (act : Act) :
    ∀ x ∈ history ++ [⟨i, t.done, act⟩], x.thread = i → x.task ≤ t.done := by
  intro x hx hthread
  rcases List.mem_append.mp hx with hx | hx
  · exact h.past x hx hthread
  · rw [List.mem_singleton.mp hx]

/-- A thread that finishes a task has not begun the next one. -/
theorem Follows.finish
    (h : Follows program history i t)
    (act : Act)
    {task : Task}
    {tasks : List Task}
    (htasks : t.tasks = task :: tasks)
    (headers : List (String × String))
    (hnames : Pairs.names headers = Pairs.names task.template?.toList)
    (hpick : pick "${timestamp()}" task.template?.toList headers =
      (Moment.value? ⟨i, t.done, act⟩).toList.map toString) :
    Follows program (history ++ [⟨i, t.done, act⟩]) i
      ⟨t.done + 1, tasks, none, t.headers ++ headers⟩ := by
  have hpast := h.past_concat act
  refine ⟨?_, ?_, ?_⟩
  · intro x hx hthread
    exact (hpast x hx hthread).trans (Nat.le_succ _)
  · intro _
    refine List.filter_eq_nil_iff.mpr ?_
    intro x hx htask
    obtain ⟨hthread, htask⟩ : x.thread = i ∧ x.task = t.done + 1 := by
      simpa [Moment.ofTask] using htask
    have hle := hpast x hx hthread
    omega
  · obtain ⟨done, hprogram, hdone, hvalues⟩ := h.finished
    have htemplates := filterMap_concat Task.template? done task
    refine ⟨done ++ [task], ?_, ?_, ?_⟩
    · rw [hprogram, htasks, List.append_assoc]
      rfl
    · rw [htemplates, Pairs.names, List.map_append, Pairs.names, List.map_append]
      exact congrArg₂ (· ++ ·) hdone hnames
    · rw [htemplates, pick_append _ hdone, hvalues, hpick, valuesOf_concat, if_pos rfl,
        List.map_append]

theorem Follows.step
    (h : Follows program history i t)
    {s : Surroundings}
    {p p' : Progress}
    {act : Act}
    {t' : Thread}
    (hgo : Goes s t p act t' p') :
    Follows program (history ++ [⟨i, t.done, act⟩]) i t' := by
  cases hgo with
  | rest htasks =>
      obtain ⟨done, hprogram, hnames, hpick⟩ := h.finished
      refine ⟨h.past_concat .rest, fun hne => absurd htasks hne, done, hprogram, hnames, ?_⟩
      rw [valuesOf_concat, if_pos rfl]
      exact hpick.trans (congrArg _ (List.append_nil _).symm)
  | warn htasks =>
      have hfinish := h.finish .warn htasks [] rfl rfl
      rwa [List.append_nil] at hfinish
  | read htasks hreading =>
      obtain ⟨done, hprogram, hnames, hpick⟩ := h.finished
      refine ⟨h.past_concat _, ?_, done, hprogram, hnames, ?_⟩
      · intro _
        have hcurrent := h.current (by simp [htasks])
        rw [hreading] at hcurrent
        rw [List.filter_append, hcurrent, List.filter_cons_of_pos (by simp [Moment.ofTask])]
        rfl
      · rw [valuesOf_concat, if_pos rfl]
        exact hpick.trans (congrArg _ (List.append_nil _).symm)
  | raise htasks => exact h.finish _ htasks _ rfl rfl
  | evaluate htasks hne =>
      refine h.finish .evaluate htasks _ rfl ?_
      rw [Task.template?, Option.toList, pick_cons, if_neg hne]
      rfl

end Threads

section Histories

variable {s : Surroundings} {programs : Nat → List Task} {history : List Moment} {m : Machine}

/-- What a history tells about a machine whose threads started with given tasks. -/
structure Recorded
    (s : Surroundings)
    (programs : Nat → List Task)
    (history : List Moment)
    (m : Machine) :
    Prop where
  marked : Marked s history m.progress
  follows : ∀ i, Follows (programs i) history i (m.thread i)
  ordered : Ordered history

/-- A step is in order after those before it. -/
theorem inOrder_of_goes
    {program : List Task}
    {i : Nat}
    {t t' : Thread}
    {p p' : Progress}
    {act : Act}
    (hmarked : Marked s history p)
    (hfollows : Follows program history i t)
    (hgo : Goes s t p act t' p') :
    InOrder history ⟨i, t.done, act⟩ := by
  cases hgo with
  | rest => exact trivial
  | warn => exact trivial
  | evaluate => exact trivial
  | read htasks hreading =>
      have hcurrent := hfollows.current (by simp [htasks])
      rw [hreading] at hcurrent
      exact hcurrent
  | raise htasks hreading =>
      rename_i now
      have hcurrent := hfollows.current (by simp [htasks])
      rw [hreading] at hcurrent
      refine ⟨hcurrent, ?_⟩
      rw [List.filterMap_append]
      exact isGreatest_concat hmarked.committed now.milliseconds

theorem recorded_start
    (s : Surroundings)
    (calls : Nat → List Call) :
    Recorded s (fun i => (calls i).flatMap Call.tasks) [] (.start calls) :=
  ⟨marked_start s, fun i => follows_start _ i, ordered_nil⟩

theorem Recorded.step
    (h : Recorded s programs history m)
    (i : Nat) :
    Recorded s programs (history ++ [(m.step s i).1]) (m.step s i).2 := by
  have hgo := goes_next s (m.thread i) m.progress
  refine ⟨?_, ?_, ?_⟩
  · exact h.marked.step hgo i (m.thread i).done
  · intro j
    by_cases hj : j = i
    · subst hj
      rw [Machine.step_eq, Machine.put_thread_self]
      exact (h.follows j).step hgo
    · rw [Machine.step_eq, Machine.put_thread_of_ne _ _ _ _ hj]
      exact (h.follows j).other (Ne.symm hj)
  · exact h.ordered.concat (inOrder_of_goes h.marked (h.follows i) hgo)

theorem Recorded.run (schedule : List Nat) :
    ∀ {history m},
      Recorded s programs history m →
      Recorded s programs (history ++ (Machine.run s schedule m).1)
        (Machine.run s schedule m).2 := by
  induction schedule with
  | nil =>
      intro history m h
      exact (List.append_nil history).symm ▸ h
  | cons i schedule ih =>
      intro history m h
      have hrest := ih (h.step i)
      rwa [List.append_assoc] at hrest

/-- A timestamp that was returned is a reading that was committed. -/
theorem Ordered.committed_of_value
    (h : Ordered history)
    {x : Moment}
    {v : Nat}
    (hx : x ∈ history)
    (hv : x.value? = some v) :
    v ∈ history.filterMap Moment.committed? := by
  obtain ⟨i, k, now, rfl⟩ := Moment.exists_of_value hv
  obtain ⟨before, after, rfl⟩ := List.append_of_mem hx
  have hin := h before _ after rfl
  rw [List.append_cons, List.filterMap_append]
  exact List.mem_append_left _ hin.2.1

/-- Timestamps do not fall from one raise to the next. -/
theorem Ordered.pairwise (h : Ordered history) :
    history.Pairwise fun x y => ∀ v, x.value? = some v → ∀ w, y.value? = some w → v ≤ w := by
  induction history using List.reverseRecOn with
  | nil => exact List.Pairwise.nil
  | append_singleton history y ih =>
      have hbefore : Ordered history := by
        intro before x after hsplit
        exact h before x (after ++ [y]) (by rw [hsplit, List.append_assoc]; rfl)
      refine List.pairwise_append.mpr ⟨ih hbefore, List.pairwise_singleton _ y, ?_⟩
      intro x hx y' hy' v hv w hw
      obtain rfl := List.mem_singleton.mp hy'
      obtain ⟨i, k, now, rfl⟩ := Moment.exists_of_value hw
      have hin := h history _ [] rfl
      refine hin.2.2 ?_
      rw [Set.mem_ofPred_eq, List.filterMap_append]
      exact List.mem_append_left _ (hbefore.committed_of_value hx hv)

theorem Ordered.pairwise_valuesOf
    (h : Ordered history)
    (i : Nat) :
    (valuesOf i history).Pairwise (· ≤ ·) :=
  List.pairwise_filterMap.mpr (h.pairwise.filter _)

/-- A task that begins after a timestamp was returned gets one that is not lower. -/
theorem Ordered.le_of_later
    (h : Ordered history)
    {before after : List Moment}
    {x : Moment}
    (hsplit : history = before ++ x :: after)
    {v j k w : Nat}
    {now : Instant}
    (hv : x.value? = some v)
    (hread : ⟨j, k, .read now⟩ ∈ after)
    (hraise : ⟨j, k, .raise now w⟩ ∈ history) :
    v ≤ w := by
  have hlater : ⟨j, k, .raise now w⟩ ∈ after := by
    obtain ⟨between, last, rfl⟩ := List.append_of_mem hread
    have hsplit' : history = (before ++ x :: between) ++ ⟨j, k, .read now⟩ :: last := by
      rw [hsplit, List.append_assoc]
      rfl
    -- Nothing was done for the task before its reading, so that its raise comes behind.
    have hnothing := List.filter_eq_nil_iff.mp (h _ _ _ hsplit')
    rw [hsplit'] at hraise
    rcases List.mem_append.mp hraise with hfirst | hlast
    · exact absurd (by simp [Moment.ofTask]) (hnothing _ hfirst)
    · exact List.mem_append_right between hlast
  have hpairwise := h.pairwise
  rw [hsplit] at hpairwise
  have hx := (List.pairwise_append.mp hpairwise).2.1
  exact List.rel_of_pairwise_cons hx hlater v hv w rfl

end Histories

/-- The order of timestamps in a history of calls.  The clock is read by one task after another.
A timestamp is returned by a task that has read the clock and done nothing else, and is the
greatest of the readings that are committed by then, its own among them.  The headers of a thread
are those of its calls, in order, and those for timestamps hold what the thread was returned. -/
structure NeverGoBack
    (s : Surroundings)
    (calls : Nat → List Call)
    (history : List Moment)
    (m : Machine) :
    Prop where
  clock : history.filterMap Moment.reading? = (List.range m.progress.readings).map s.clock
  greatest : ∀ before i k now v after,
    history = before ++ ⟨i, k, .raise now v⟩ :: after →
    before.filter (Moment.ofTask i k) = [⟨i, k, .read now⟩] ∧
    IsGreatest {r | r ∈ (before ++ [⟨i, k, .raise now v⟩]).filterMap Moment.committed?} v
  mark : IsGreatest (insert 0 {v | v ∈ history.filterMap Moment.value?}) m.progress.mark
  /-- A task that begins after a timestamp was returned gets one that is not lower. -/
  later : ∀ before x after v j k now w,
    history = before ++ x :: after →
    x.value? = some v →
    ⟨j, k, .read now⟩ ∈ after →
    ⟨j, k, .raise now w⟩ ∈ history →
    v ≤ w
  names : ∀ i,
    Pairs.names (m.thread i).headers <+: Pairs.names ((calls i).flatMap Call.templates)
  complete : ∀ i,
    (m.thread i).tasks = [] →
    Pairs.names (m.thread i).headers = Pairs.names ((calls i).flatMap Call.templates)
  headers : ∀ i,
    pick "${timestamp()}" ((calls i).flatMap Call.templates) (m.thread i).headers =
      (valuesOf i history).map toString
  ordered : ∀ i, (valuesOf i history).Pairwise (· ≤ ·)
  decimal : ∀ v ∈ history.filterMap Moment.value?,
    v ≤ maxTimestamp ∧ IsDecimal v (toString v)

section Conclusions

variable {s : Surroundings} {history : List Moment} {m : Machine}

/-- Timestamps stay within their range, since they are readings. -/
theorem Ordered.le_maxTimestamp
    (h : Ordered history)
    {v : Nat}
    (hv : v ∈ history.filterMap Moment.value?) :
    v ≤ maxTimestamp := by
  obtain ⟨x, hx, hvalue⟩ := List.mem_filterMap.mp hv
  obtain ⟨y, -, hy⟩ := List.mem_filterMap.mp (h.committed_of_value hx hvalue)
  exact Moment.committed_le hy

theorem Recorded.neverGoBack
    {calls : Nat → List Call}
    (h : Recorded s (fun i => (calls i).flatMap Call.tasks) history m) :
    NeverGoBack s calls history m := by
  -- What is done of a thread's tasks has its templates first among those of the calls.
  have hdone : ∀ i, ∃ done : List Task,
      (calls i).flatMap Call.templates =
        done.filterMap Task.template? ++ (m.thread i).tasks.filterMap Task.template? ∧
      Pairs.names (m.thread i).headers = Pairs.names (done.filterMap Task.template?) ∧
      pick "${timestamp()}" (done.filterMap Task.template?) (m.thread i).headers =
        (valuesOf i history).map toString := by
    intro i
    obtain ⟨done, hprogram, hnames, hpick⟩ := (h.follows i).finished
    refine ⟨done, ?_, hnames, hpick⟩
    rw [← List.filterMap_append, ← hprogram, List.filterMap_flatMap]
    exact congrArg (fun f => (calls i).flatMap f) (funext fun call => (filterMap_tasks call).symm)
  constructor
  · exact h.marked.clock
  · intro before i k now v after hsplit
    exact h.ordered before _ after hsplit
  · exact h.marked.returned
  · intro before x after v j k now w hsplit hv hread hraise
    exact h.ordered.le_of_later hsplit hv hread hraise
  · intro i
    obtain ⟨done, htemplates, hnames, -⟩ := hdone i
    rw [htemplates, hnames, Pairs.names, Pairs.names, List.map_append]
    exact List.prefix_append _ _
  · intro i htasks
    obtain ⟨done, htemplates, hnames, -⟩ := hdone i
    rw [htemplates, hnames, htasks]
    exact congrArg Pairs.names (List.append_nil _).symm
  · intro i
    obtain ⟨done, htemplates, hnames, hpick⟩ := hdone i
    rw [htemplates, ← List.append_nil (m.thread i).headers, pick_append _ hnames, hpick]
    exact (congrArg _ (by simp [pick])).trans (List.append_nil _)
  · exact h.ordered.pairwise_valuesOf
  · intro v hv
    exact ⟨h.ordered.le_maxTimestamp hv, isDecimal_toString v⟩

end Conclusions

end Machine

/-- The timestamps of operations one after another.  Each is the greatest of the mark at first and
the readings that were taken for timestamps up to it, and the mark is raised to the last of them. -/
structure RisesTo
    {σ : Type}
    (s : Surroundings)
    (operations : List (Operation σ))
    (p : Progress)
    (trace : List (Operation.Entry σ))
    (p' : Progress)
    (vs : List Nat) :
    Prop where
  texts : trace.flatMap (Operation.Entry.valuesOf "${timestamp()}") = vs.map toString
  raises :
    Raises p.mark (s.milliseconds (Operation.timestampReadings operations p.readings)) vs p'.mark
  rises : Rises p.mark vs p'.mark
  decimal : ∀ v ∈ vs, v ≤ max p.mark maxTimestamp ∧ IsDecimal v (toString v)

/-- Timestamps never go back, whatever the clock says, and in whatever order threads go on.  A
thread that nobody interrupts answers a call as if there were no other.  Calls one after another
hand out the greatest reading so far, in the headers that they return, store and send. -/
theorem timestamps_never_go_back (s : Surroundings) :
    (∀ calls schedule,
      Machine.NeverGoBack s calls (Machine.run s schedule (.start calls)).1
        (Machine.run s schedule (.start calls)).2) ∧
    (∀ (m : Machine) (i : Nat) (call : Call) (rest : List Task) (t : Thread) (p : Progress),
      t.tasks = call.tasks ++ rest →
      t.reading = none →
      ∃ steps,
        (Machine.run s (List.replicate steps i) (m.put i t p)).2 =
          m.put i ⟨t.done + call.tasks.length, rest, none, t.headers ++ (call.answer s p).1⟩
            (call.answer s p).2) ∧
    (∀ now : Instant, now.CountsAs now.milliseconds) ∧
    ∀ (σ : Type) (operations : List (Operation σ)) (p : Progress) (t : σ), ∃ vs,
      RisesTo s operations p (Operation.run s operations (p, t)).1
        (Operation.run s operations (p, t)).2.1 vs := by
  refine ⟨?_, ?_, Instant.countsAs_milliseconds, ?_⟩
  · intro calls schedule
    exact ((Machine.recorded_start s calls).run schedule).neverGoBack
  · intro m i call rest t p h hreading
    exact Machine.run_alone s m i call rest t p h hreading
  · intro σ operations p t
    obtain ⟨vs, htexts, hraises⟩ := raises_run s operations p t
    refine ⟨vs, htexts, hraises, hraises.rises, ?_⟩
    intro v hv
    exact ⟨hraises.le_of_readings (fun r hr => milliseconds_le s hr) hv, isDecimal_toString v⟩

/-- A thread is overtaken between its reading and its raise, and then the clock jumps back.  Alone,
the same thread gets the first two readings. -/
theorem timestamps_never_go_back_overtaken :
    let clock : List Int := [5000000000, 9000000000, -1]
    let s : Surroundings := ⟨fun _ => ⟨0⟩, fun n => ⟨clock[n]?.getD 0⟩⟩
    let templates : HeaderTemplates :=
      .ofList [("x-at", "${timestamp()}"), ("x-kind", "order"), ("x-until", "${timestamp()}")]
    let spec : Specification :=
      ⟨none, none, .ofList [("orders", ⟨none, some templates⟩)], .empty⟩
    let call : Call := .headers spec "orders" .empty
    let calls : Nat → List Call := fun i =>
      if i = 0 then [call] else if i = 1 then [.template .empty "${timestamp()}"] else []
    let schedule := [0, 1, 1, 0, 0, 0, 0]
    let history := (Machine.run s schedule (.start calls)).1
    let m := (Machine.run s schedule (.start calls)).2
    let alone : Thread := .start call.tasks
    let operations : List (Operation Unit) :=
      [.resolveTemplate "${timestamp()}" .empty, .resolveHeaders spec "orders" .empty]
    let run := Operation.run s operations (.start, ())
    history =
      [⟨0, 0, .read ⟨5000000000⟩⟩, ⟨1, 0, .read ⟨9000000000⟩⟩, ⟨1, 0, .raise ⟨9000000000⟩ 9000⟩,
        ⟨0, 0, .raise ⟨5000000000⟩ 9000⟩, ⟨0, 1, .evaluate⟩, ⟨0, 2, .read ⟨-1⟩⟩,
        ⟨0, 2, .raise ⟨-1⟩ 9000⟩] ∧
    (m.thread 0).headers = [("x-at", "9000"), ("x-kind", "order"), ("x-until", "9000")] ∧
    Machine.NeverGoBack s calls history m ∧
    (call.answer s .start).1 = [("x-at", "5000"), ("x-kind", "order"), ("x-until", "9000")] ∧
    alone.tasks = call.tasks ++ [] ∧
    alone.reading = none ∧
    (∃ steps,
      (Machine.run s (List.replicate steps 0) ((Machine.start calls).put 0 alone .start)).2 =
        (Machine.start calls).put 0 ⟨alone.done + call.tasks.length, [], none,
          alone.headers ++ (call.answer s .start).1⟩ (call.answer s .start).2) ∧
    run.1.flatMap (Operation.Entry.valuesOf "${timestamp()}") = ["5000", "9000", "9000"] ∧
    ∃ vs, RisesTo s operations .start run.1 run.2.1 vs := by
  intro clock s templates spec call calls schedule history m alone operations run
  have htasks : alone.tasks = call.tasks ++ [] := (List.append_nil call.tasks).symm
  obtain ⟨hthreads, halone, -, hrun⟩ := timestamps_never_go_back s
  refine ⟨?_, ?_, hthreads calls schedule, ?_, htasks, rfl,
    halone (.start calls) 0 call [] alone .start htasks rfl, ?_,
    hrun Unit operations .start ()⟩
  · decide +kernel
  · decide +kernel
  · decide +kernel
  · decide +kernel

end ChannelHeaders
