import Mathlib
import ChannelHeaders.Proofs.Publishing
import ChannelHeaders.Publishing.Session

/-!
# The store as a history

A session goes on for any number of actions, with any number of handles and streams, in any
order.  The store then holds the messages whose results were taken, in the order in which
they were taken.  What was taken from one stream is the beginning of its batch, and every
payload that was published is one message of the store.

The history is a list of takings, each with the place that it was taken from.  It is read
against the answers that the session gave, which are all that its users can see.  One
invariant relates the answers, the state and the history; every action keeps it, with a
history that only grows.

**Results.**
* `expectPublished_ok_iff`: the check for a published message.
* `History.of_step`: what one action adds to the history.
* `History.of_run`: what a whole session adds to the history.
* `store_is_history`: the store of a session, and what each action does next.
-/

namespace ChannelHeaders

open Payload

namespace Store

theorem expectPublished_ok_iff
    (t : Store)
    (topic : Topic)
    (id : Identifier) :
    t.expectPublished topic id = .ok () ↔ ∃ m, (topic, m) ∈ t.messages ∧ m.id = id := by
  rw [expectPublished]
  split_ifs with h
  · obtain ⟨⟨topic', m⟩, hm, hmatch⟩ := List.any_eq_true.mp h
    simp only [Bool.and_eq_true, decide_eq_true_eq] at hmatch
    obtain ⟨rfl, rfl⟩ := hmatch
    exact iff_of_true rfl ⟨m, hm, rfl⟩
  · refine iff_of_false nofun ?_
    rintro ⟨m, hm, rfl⟩
    exact h (List.any_eq_true.mpr ⟨(topic, m), hm, by simp⟩)

theorem expectPublished_error_iff
    (t : Store)
    (topic : Topic)
    (id : Identifier) :
    t.expectPublished topic id = .error ⟨topic, id⟩ ↔
      ¬ ∃ m, (topic, m) ∈ t.messages ∧ m.id = id := by
  rw [← expectPublished_ok_iff, expectPublished]
  split_ifs <;> simp

/-- The store gives the first message of a batch as its first result. -/
theorem publish_of_decode_ok
    {payload : String}
    {fields : Fields}
    (h : Fields.decode payload.toUTF8 = .ok fields)
    (s : Surroundings)
    (spec : Specification)
    (topic : String)
    (p : Progress)
    (t : Store) :
    ∃ m p',
      let r := (resolveHeaders s spec topic fields p).1
      Carries spec topic payload r m ∧
      publish s spec publisher topic payload (p, t) = (.ok ⟨m.id, r⟩, p', t.keep ⟨topic⟩ m) := by
  obtain ⟨m, hm, -, -, hpublish⟩ :=
    ChannelHeaders.publish_of_decode_ok h s spec publisher topic (Prod.eta _).symm t
  exact ⟨m, _, hm, hpublish⟩

/-- The messages that are still to be taken, each with the topic. -/
def Stream.pairs (stream : Stream) : List (Topic × Message) :=
  stream.pending.map fun m => (stream.topic, m)

end Store

namespace Session

section Trace

/-- Where a result is taken from: a stream, or a call of `publish`. -/
inductive Origin where
  | stream (index : Nat)
  | call
deriving DecidableEq

/-- The result that an entry gives. -/
def Entry.result? : Entry → Option (Origin × Identifier)
  | ⟨.take i, .result (some id)⟩ => some (.stream i, id)
  | ⟨.publish .., .outcome (.ok published)⟩ => some (.call, published.id)
  | _ => none

/-- The stream that an entry opens, with the whole batch. -/
def Entry.opened? : Entry → Option Store.Stream
  | ⟨.send _ topic batch, .done⟩ => some ⟨topic, batch⟩
  | _ => none

/-- The stream that an entry drops. -/
def Entry.dropped? : Entry → Option Nat
  | ⟨.drop i, .done⟩ => some i
  | _ => none

/-- Whether an entry makes a handle. -/
def Entry.shares : Entry → Bool
  | ⟨.share _, .done⟩ => true
  | _ => false

/-- A call of `publish` that succeeded. -/
structure Publication where
  spec : Specification
  topic : String
  payload : String
  published : Published Identifier

/-- The publication of an entry. -/
def Entry.publication? : Entry → Option Publication
  | ⟨.publish _ spec topic payload, .outcome (.ok published)⟩ =>
      some ⟨spec, topic, payload, published⟩
  | _ => none

def results (trace : List Entry) : List (Origin × Identifier) :=
  trace.filterMap Entry.result?

def publications (trace : List Entry) : List Publication :=
  trace.filterMap Entry.publication?

def opened (trace : List Entry) : List Store.Stream :=
  trace.filterMap Entry.opened?

def dropped (trace : List Entry) : List Nat :=
  trace.filterMap Entry.dropped?

/-- The stream `i` was opened with the batch of `first`, and it was not dropped. -/
def IsOpen
    (trace : List Entry)
    (i : Nat)
    (first : Store.Stream) :
    Prop :=
  (opened trace)[i]? = some first ∧ i ∉ dropped trace

theorem results_concat
    (trace : List Entry)
    (entry : Entry) :
    results (trace ++ [entry]) = results trace ++ entry.result?.toList :=
  filterMap_concat _ trace entry

theorem publications_concat
    (trace : List Entry)
    (entry : Entry) :
    publications (trace ++ [entry]) = publications trace ++ entry.publication?.toList :=
  filterMap_concat _ trace entry

theorem opened_concat
    (trace : List Entry)
    (entry : Entry) :
    opened (trace ++ [entry]) = opened trace ++ entry.opened?.toList :=
  filterMap_concat _ trace entry

theorem dropped_concat
    (trace : List Entry)
    (entry : Entry) :
    dropped (trace ++ [entry]) = dropped trace ++ entry.dropped?.toList :=
  filterMap_concat _ trace entry

theorem opened_quiet
    (trace : List Entry)
    {entry : Entry}
    (h : entry.opened? = none) :
    opened (trace ++ [entry]) = opened trace := by
  rw [opened_concat, h, Option.toList_none, List.append_nil]

theorem dropped_quiet
    (trace : List Entry)
    {entry : Entry}
    (h : entry.dropped? = none) :
    dropped (trace ++ [entry]) = dropped trace := by
  rw [dropped_concat, h, Option.toList_none, List.append_nil]

end Trace

section Histories

/-- A message whose result was taken. -/
structure Taking where
  origin : Origin
  topic : Topic
  message : Message

/-- The taking as the store keeps it. -/
def Taking.pair (x : Taking) : Topic × Message :=
  (x.topic, x.message)

/-- The taking as its user sees it. -/
def Taking.result (x : Taking) : Origin × Identifier :=
  (x.origin, x.message.id)

/-- The takings from one place. -/
def takenFrom
    (o : Origin)
    (history : List Taking) :
    List Taking :=
  history.filter fun x => x.origin = o

theorem takenFrom_concat
    (o : Origin)
    (history : List Taking)
    (x : Taking) :
    takenFrom o (history ++ [x]) =
      takenFrom o history ++ if x.origin = o then [x] else [] := by
  rw [takenFrom, List.filter_append]
  by_cases h : x.origin = o
  · simp [takenFrom, h]
  · simp [takenFrom, h]

/-- The taking `x` is the message of a publication. -/
structure Delivers
    (p : Publication)
    (x : Taking) :
    Prop where
  topic : x.topic = ⟨p.topic⟩
  id : x.message.id = p.published.id
  carries : Carries p.spec p.topic p.payload p.published.headers x.message

/-- The store keeps what the entries took, and nothing else. -/
structure Recorded
    (trace : List Entry)
    (store : Store)
    (history : List Taking) :
    Prop where
  kept : store.messages = history.map Taking.pair
  results : results trace = history.map Taking.result
  published : List.Forall₂ Delivers (publications trace) (takenFrom .call history)

/-- The stream `rest` is what is left of the batch of `first`, after what was taken from it. -/
structure IsRest
    (history : List Taking)
    (i : Nat)
    (first rest : Store.Stream) :
    Prop where
  topic : rest.topic = first.topic
  pairs : (takenFrom (.stream i) history).map Taking.pair ++ rest.pairs = first.pairs

theorem IsRest.congr
    {history history' : List Taking}
    {i : Nat}
    {first rest : Store.Stream}
    (h : IsRest history i first rest)
    (htaken : takenFrom (.stream i) history' = takenFrom (.stream i) history) :
    IsRest history' i first rest where
  topic := h.topic
  pairs := by rw [htaken, h.pairs]

/-- The next message of the batch is the first one of the rest. -/
theorem IsRest.next
    {history : List Taking}
    {i : Nat}
    {first rest : Store.Stream}
    (h : IsRest history i first rest) :
    first.pending[(takenFrom (.stream i) history).length]? = rest.pending.head? := by
  have hmessages :
      (takenFrom (.stream i) history).map Taking.message ++ rest.pending = first.pending := by
    simpa [Store.Stream.pairs, Taking.pair, Function.comp_def] using
      congrArg (List.map Prod.snd) h.pairs
  rw [← hmessages, List.getElem?_append_right (by simp), List.length_map, Nat.sub_self,
    List.head?_eq_getElem?]

/-- Each stream is the rest of its batch, until it is dropped.  Nothing is taken or dropped
before it is opened. -/
structure Followed
    (trace : List Entry)
    (streams : List (Option Store.Stream))
    (history : List Taking) :
    Prop where
  rest : ∀ i first, (opened trace)[i]? = some first →
    ∃ rest,
      IsRest history i first rest ∧
      streams[i]? = some (if i ∈ dropped trace then none else some rest)
  numbered : streams.length = (opened trace).length
  drops : ∀ i ∈ dropped trace, i < (opened trace).length
  takings : ∀ i, takenFrom (.stream i) history ≠ [] → i < (opened trace).length

/-- The takings of `history` are what a session with these entries took until now. -/
structure History
    (trace : List Entry)
    (w : Session)
    (history : List Taking) :
    Prop where
  recorded : Recorded trace w.store history
  followed : Followed trace w.streams history
  handles : w.handles = trace.countP Entry.shares + 1

theorem History.start : History [] Session.start [] where
  recorded := ⟨rfl, rfl, .nil⟩
  followed := ⟨nofun, rfl, nofun, nofun⟩
  handles := rfl

end Histories

section Streams

variable {trace : List Entry} {streams : List (Option Store.Stream)}
variable {history history' : List Taking}

theorem Followed.exists_of_isOpen
    (h : Followed trace streams history)
    {i : Nat}
    {first : Store.Stream}
    (hopen : IsOpen trace i first) :
    ∃ rest, IsRest history i first rest ∧ streams[i]? = some (some rest) := by
  obtain ⟨rest, hrest, hi⟩ := h.rest i first hopen.1
  rw [if_neg hopen.2] at hi
  exact ⟨rest, hrest, hi⟩

theorem Followed.isOpen_of_stream
    (h : Followed trace streams history)
    {i : Nat}
    {stream : Store.Stream}
    (hi : streams[i]? = some (some stream)) :
    ∃ first, IsOpen trace i first ∧ IsRest history i first stream := by
  have hlt : i < (opened trace).length :=
    h.numbered ▸ (List.getElem?_eq_some_iff.mp hi).1
  have hfirst := List.getElem?_eq_getElem hlt
  obtain ⟨rest, hrest, hi'⟩ := h.rest i _ hfirst
  rw [hi] at hi'
  split_ifs at hi' with hdrop
  · simp at hi'
  · obtain rfl : stream = rest := by simpa using hi'
    exact ⟨_, ⟨hfirst, hdrop⟩, hrest⟩

/-- The streams are followed as long as nothing is opened, dropped or taken from one. -/
theorem Followed.congr
    (h : Followed trace streams history)
    {entry : Entry}
    (hopened : entry.opened? = none)
    (hdropped : entry.dropped? = none)
    (htaken : ∀ i, takenFrom (.stream i) history' = takenFrom (.stream i) history) :
    Followed (trace ++ [entry]) streams history' := by
  have hopened' := opened_quiet trace hopened
  have hdropped' := dropped_quiet trace hdropped
  constructor
  · intro i first hfirst
    rw [hopened'] at hfirst
    obtain ⟨rest, hrest, hi⟩ := h.rest i first hfirst
    exact ⟨rest, hrest.congr (htaken i), hdropped' ▸ hi⟩
  · rw [hopened', h.numbered]
  · rw [hopened', hdropped']
    exact h.drops
  · simpa only [hopened', htaken] using h.takings

theorem Followed.quiet
    (h : Followed trace streams history)
    {entry : Entry}
    (hopened : entry.opened? = none)
    (hdropped : entry.dropped? = none) :
    Followed (trace ++ [entry]) streams history :=
  h.congr hopened hdropped fun _ => rfl

/-- The whole batch of a new stream is still to be taken. -/
theorem Followed.send
    (h : Followed trace streams history)
    (handle : Nat)
    (topic : Topic)
    (batch : List Message) :
    Followed (trace ++ [⟨.send handle topic batch, .done⟩])
      (streams ++ [some ⟨topic, batch⟩]) history := by
  have hopened : opened (trace ++ [⟨.send handle topic batch, .done⟩]) =
      opened trace ++ [⟨topic, batch⟩] :=
    opened_concat trace _
  have hdropped : dropped (trace ++ [⟨.send handle topic batch, .done⟩]) = dropped trace :=
    dropped_quiet trace rfl
  constructor
  · intro i first hfirst
    rw [hopened] at hfirst
    rw [hdropped]
    -- An older stream is where it was; the new one has a number under which nothing was taken.
    rcases Nat.lt_trichotomy i (opened trace).length with hlt | rfl | hgt
    · rw [List.getElem?_append_left hlt] at hfirst
      rw [List.getElem?_append_left (h.numbered ▸ hlt)]
      exact h.rest i first hfirst
    · have hfresh : takenFrom (.stream (opened trace).length) history = [] := by
        by_contra hne
        exact absurd (h.takings _ hne) (Nat.lt_irrefl _)
      have hopen : (opened trace).length ∉ dropped trace := fun hmem =>
        absurd (h.drops _ hmem) (Nat.lt_irrefl _)
      obtain rfl : first = ⟨topic, batch⟩ := by simpa using hfirst.symm
      refine ⟨⟨topic, batch⟩, ⟨rfl, ?_⟩, ?_⟩
      · rw [hfresh, List.map_nil, List.nil_append]
      · rw [if_neg hopen, ← h.numbered, List.getElem?_concat_length]
    · rw [List.getElem?_eq_none (by simpa using hgt)] at hfirst
      cases hfirst
  · rw [hopened, List.length_append, List.length_append, h.numbered]
    rfl
  · intro i hi
    rw [hopened, List.length_append]
    exact Nat.lt_add_right _ (h.drops i (hdropped ▸ hi))
  · intro i hi
    rw [hopened, List.length_append]
    exact Nat.lt_add_right _ (h.takings i hi)

/-- Taking a result moves one message from the stream to the history. -/
theorem Followed.take
    (h : Followed trace streams history)
    {i : Nat}
    {topic : Topic}
    {m : Message}
    {ms : List Message}
    (hi : streams[i]? = some (some ⟨topic, m :: ms⟩)) :
    Followed (trace ++ [⟨.take i, .result (some m.id)⟩])
      (streams.set i (some ⟨topic, ms⟩)) (history ++ [⟨.stream i, topic, m⟩]) := by
  obtain ⟨first, ⟨hfirst, hdrop⟩, hrest⟩ := h.isOpen_of_stream hi
  have hlt : i < (opened trace).length := (List.getElem?_eq_some_iff.mp hfirst).1
  have hopened : opened (trace ++ [⟨.take i, .result (some m.id)⟩]) = opened trace :=
    opened_quiet trace rfl
  have hdropped : dropped (trace ++ [⟨.take i, .result (some m.id)⟩]) = dropped trace :=
    dropped_quiet trace rfl
  constructor
  · intro j first' hfirst'
    rw [hopened] at hfirst'
    rw [hdropped]
    by_cases hij : i = j
    · subst hij
      obtain rfl : first = first' := by simpa [hfirst] using hfirst'
      refine ⟨⟨topic, ms⟩, ⟨hrest.topic, ?_⟩, ?_⟩
      · rw [← hrest.pairs, takenFrom_concat]
        simp [Store.Stream.pairs, Taking.pair]
      · rw [if_neg hdrop, List.getElem?_set_self (h.numbered ▸ hlt)]
    · obtain ⟨rest, hrest', hj⟩ := h.rest j first' hfirst'
      refine ⟨rest, hrest'.congr ?_, ?_⟩
      · simp [takenFrom_concat, hij]
      · rw [List.getElem?_set_ne hij, hj]
  · rw [hopened, List.length_set, h.numbered]
  · rw [hopened, hdropped]
    exact h.drops
  · intro j hj
    rw [hopened]
    by_cases hij : i = j
    · exact hij ▸ hlt
    · rw [takenFrom_concat] at hj
      exact h.takings j (by simpa [hij] using hj)

/-- Dropping a stream keeps what was taken from it. -/
theorem Followed.drop
    (h : Followed trace streams history)
    {i : Nat}
    {stream : Store.Stream}
    (hi : streams[i]? = some (some stream)) :
    Followed (trace ++ [⟨.drop i, .done⟩]) (streams.set i none) history := by
  obtain ⟨_, ⟨hfirst, -⟩, -⟩ := h.isOpen_of_stream hi
  have hlt : i < (opened trace).length := (List.getElem?_eq_some_iff.mp hfirst).1
  have hopened : opened (trace ++ [⟨.drop i, .done⟩]) = opened trace :=
    opened_quiet trace rfl
  have hdropped : dropped (trace ++ [⟨.drop i, .done⟩]) = dropped trace ++ [i] :=
    dropped_concat trace _
  constructor
  · intro j first' hfirst'
    rw [hopened] at hfirst'
    obtain ⟨rest, hrest, hj⟩ := h.rest j first' hfirst'
    refine ⟨rest, hrest, ?_⟩
    by_cases hij : i = j
    · subst hij
      simp [hdropped, h.numbered, hlt]
    · rw [List.getElem?_set_ne hij, hj]
      simp [hdropped, Ne.symm hij]
  · rw [hopened, List.length_set, h.numbered]
  · rw [hopened, hdropped]
    intro j hj
    rcases List.mem_append.mp hj with hj | hj
    · exact h.drops j hj
    · exact List.mem_singleton.mp hj ▸ hlt
  · rw [hopened]
    exact h.takings

end Streams

section Steps

variable {trace : List Entry} {store : Store} {w : Session} {history : List Taking}

theorem Recorded.quiet
    (h : Recorded trace store history)
    {entry : Entry}
    (hresult : entry.result? = none)
    (hpublication : entry.publication? = none) :
    Recorded (trace ++ [entry]) store history := by
  refine ⟨h.kept, ?_, ?_⟩
  · simpa [results_concat, hresult] using h.results
  · simpa [publications_concat, hpublication] using h.published

theorem Recorded.take
    (h : Recorded trace store history)
    (i : Nat)
    (topic : Topic)
    (m : Message) :
    Recorded (trace ++ [⟨.take i, .result (some m.id)⟩]) (store.keep topic m)
      (history ++ [⟨.stream i, topic, m⟩]) := by
  constructor
  · simp [Store.keep, h.kept, Taking.pair]
  · simp [results_concat, Entry.result?, Taking.result, h.results]
  · rw [takenFrom_concat]
    simpa [publications_concat, Entry.publication?] using h.published

/-- A payload that is published adds its message. -/
theorem Recorded.publish
    (h : Recorded trace store history)
    (handle : Nat)
    {spec : Specification}
    {topic payload : String}
    {m : Message}
    {r : ResolvedHeaders}
    (hm : Carries spec topic payload r m) :
    Recorded
      (trace ++ [⟨.publish handle spec topic payload, .outcome (.ok ⟨m.id, r⟩)⟩])
      (store.keep ⟨topic⟩ m) (history ++ [⟨.call, ⟨topic⟩, m⟩]) := by
  constructor
  · simp [Store.keep, h.kept, Taking.pair]
  · simp [results_concat, Entry.result?, Taking.result, h.results]
  · rw [publications_concat, takenFrom_concat]
    exact List.rel_append h.published (.cons ⟨rfl, rfl, hm⟩ .nil)

theorem History.quiet
    (h : History trace w history)
    {entry : Entry}
    (hresult : entry.result? = none)
    (hpublication : entry.publication? = none)
    (hopened : entry.opened? = none)
    (hdropped : entry.dropped? = none)
    (hshares : entry.shares = false) :
    History (trace ++ [entry]) w history where
  recorded := h.recorded.quiet hresult hpublication
  followed := h.followed.quiet hopened hdropped
  handles := by simp [h.handles, hshares]

/-- A refused action adds nothing to the history. -/
theorem History.refused
    (h : History trace w history)
    (action : Action) :
    History (trace ++ [⟨action, .refused⟩]) w history := by
  cases action <;> exact h.quiet rfl rfl rfl rfl rfl

end Steps

section Runs

variable {s : Surroundings} {trace : List Entry} {w : Session} {history : List Taking}

/-- The message of a payload that is decoded is kept, and its identifier is returned. -/
theorem step_publish_ok
    {handle : Nat}
    (h : handle < w.handles)
    {payload : String}
    {fields : Fields}
    (hdecode : Fields.decode payload.toUTF8 = .ok fields)
    (spec : Specification)
    (topic : String) :
    ∃ m progress,
      let r := (resolveHeaders s spec topic fields w.progress).1
      Carries spec topic payload r m ∧
      step s (.publish handle spec topic payload) w =
        (.outcome (.ok ⟨m.id, r⟩), { w with store := w.store.keep ⟨topic⟩ m, progress }) := by
  obtain ⟨m, progress, hm, hpublish⟩ :=
    Store.publish_of_decode_ok hdecode s spec topic w.progress w.store
  refine ⟨m, progress, hm, ?_⟩
  simp only [step, if_pos h, hpublish]

/-- One action adds to the history, and keeps it a history. -/
theorem History.of_step
    (h : History trace w history)
    (action : Action) :
    ∃ taken,
      History (trace ++ [⟨action, (step s action w).1⟩]) (step s action w).2
        (history ++ taken) := by
  cases action with
  | share handle =>
      refine ⟨[], ?_⟩
      rw [List.append_nil]
      by_cases hlt : handle < w.handles
      · rw [step_share hlt]
        exact ⟨h.recorded.quiet rfl rfl, h.followed.quiet rfl rfl,
          by simp [h.handles, Entry.shares]⟩
      · simpa [step, hlt] using h.refused _
  | send handle topic batch =>
      refine ⟨[], ?_⟩
      rw [List.append_nil]
      by_cases hlt : handle < w.handles
      · rw [step_send hlt]
        exact ⟨h.recorded.quiet rfl rfl, h.followed.send handle topic batch,
          by simp [h.handles, Entry.shares]⟩
      · simpa [step, hlt] using h.refused _
  | take i =>
      cases hi : w.stream? i with
      | none =>
          exact ⟨[], by simpa [step, hi] using h.refused _⟩
      | some stream =>
          obtain ⟨topic, pending⟩ := stream
          cases pending with
          | nil =>
              refine ⟨[], ?_⟩
              rw [step_take_nil hi, List.append_nil]
              exact h.quiet rfl rfl rfl rfl rfl
          | cons m ms =>
              refine ⟨[⟨.stream i, topic, m⟩], ?_⟩
              rw [step_take_cons hi]
              exact ⟨h.recorded.take i topic m, h.followed.take (stream?_eq_some_iff.mp hi),
                by simp [h.handles, Entry.shares]⟩
  | drop i =>
      refine ⟨[], ?_⟩
      rw [List.append_nil]
      cases hi : w.stream? i with
      | none =>
          simpa [step, hi] using h.refused _
      | some stream =>
          rw [step_drop hi]
          exact ⟨h.recorded.quiet rfl rfl, h.followed.drop (stream?_eq_some_iff.mp hi),
            by simp [h.handles, Entry.shares]⟩
  | publish handle spec topic payload =>
      by_cases hlt : handle < w.handles
      · cases hdecode : Fields.decode payload.toUTF8 with
        | error e =>
            refine ⟨[], ?_⟩
            rw [step_publish_error hlt hdecode, List.append_nil]
            exact h.quiet rfl rfl rfl rfl rfl
        | ok fields =>
            obtain ⟨m, progress, hm, hstep⟩ := step_publish_ok (s := s) hlt hdecode spec topic
            refine ⟨[⟨.call, ⟨topic⟩, m⟩], ?_⟩
            rw [hstep]
            exact ⟨h.recorded.publish handle hm,
              h.followed.congr rfl rfl (by simp [takenFrom_concat]),
              by simp [h.handles, Entry.shares]⟩
      · exact ⟨[], by simpa [step, hlt] using h.refused _⟩

/-- A session adds to the history, and keeps it a history. -/
theorem History.of_run
    (s : Surroundings)
    (actions : List Action)
    (h : History trace w history) :
    ∃ taken,
      History (trace ++ (run s actions w).1) (run s actions w).2 (history ++ taken) := by
  -- The first action leads to a history of its own, from which the others go on.
  induction actions generalizing trace w history with
  | nil =>
      exact ⟨[], by simpa [run_nil] using h⟩
  | cons action actions ih =>
      obtain ⟨taken, hstep⟩ := h.of_step (s := s) action
      obtain ⟨later, hrun⟩ := ih hstep
      refine ⟨taken ++ later, ?_⟩
      rw [run_cons, ← List.append_assoc]
      simpa using hrun

/-- What each action does in a session with this history. -/
structure Continues
    (s : Surroundings)
    (trace : List Entry)
    (w : Session)
    (history : List Taking) :
    Prop where
  share : ∀ handle, handle < w.handles →
    step s (.share handle) w = (.done, { w with handles := w.handles + 1 })
  send : ∀ handle topic batch, handle < w.handles →
    step s (.send handle topic batch) w =
      (.done, { w with streams := w.streams ++ [some ⟨topic, batch⟩] })
  take : ∀ i first m, IsOpen trace i first →
    first.pending[(takenFrom (.stream i) history).length]? = some m →
    (step s (.take i) w).1 = .result (some m.id) ∧
    (step s (.take i) w).2.store.messages = w.store.messages ++ [(first.topic, m)]
  exhausted : ∀ i first, IsOpen trace i first →
    first.pending.length ≤ (takenFrom (.stream i) history).length →
    step s (.take i) w = (.result none, w)
  drop : ∀ i first, IsOpen trace i first →
    step s (.drop i) w = (.done, { w with streams := w.streams.set i none })
  publish : ∀ handle spec topic payload fields, handle < w.handles →
    Fields.decode payload.toUTF8 = .ok fields →
    ∃ m,
      let r := (resolveHeaders s spec topic fields w.progress).1
      Carries spec topic payload r m ∧
      (step s (.publish handle spec topic payload) w).1 = .outcome (.ok ⟨m.id, r⟩) ∧
      (step s (.publish handle spec topic payload) w).2.store.messages =
        w.store.messages ++ [(⟨topic⟩, m)]
  undecodable : ∀ handle spec topic payload e, handle < w.handles →
    Fields.decode payload.toUTF8 = .error e →
    step s (.publish handle spec topic payload) w = (.outcome (.error (.decode e)), w)

theorem History.continues
    (s : Surroundings)
    (h : History trace w history) :
    Continues s trace w history where
  share _ hlt := step_share hlt
  send _ topic batch hlt := step_send hlt topic batch
  take i first m hopen hm := by
    obtain ⟨⟨topic, pending⟩, hrest, hi⟩ := h.followed.exists_of_isOpen hopen
    obtain rfl : topic = first.topic := hrest.topic
    have hhead := hrest.next
    rw [hm] at hhead
    obtain ⟨ms, rfl⟩ := List.head?_eq_some_iff.mp hhead.symm
    rw [step_take_cons (stream?_eq_some_iff.mpr hi)]
    exact ⟨rfl, rfl⟩
  exhausted i first hopen hend := by
    obtain ⟨⟨topic, pending⟩, hrest, hi⟩ := h.followed.exists_of_isOpen hopen
    have hhead := hrest.next
    rw [List.getElem?_eq_none hend] at hhead
    obtain rfl := List.head?_eq_none_iff.mp hhead.symm
    exact step_take_nil (stream?_eq_some_iff.mpr hi)
  drop i first hopen := by
    obtain ⟨rest, -, hi⟩ := h.followed.exists_of_isOpen hopen
    exact step_drop (stream?_eq_some_iff.mpr hi)
  publish handle spec topic payload fields hlt hdecode := by
    obtain ⟨m, progress, hm, hstep⟩ := step_publish_ok (s := s) hlt hdecode spec topic
    rw [hstep]
    exact ⟨m, hm, rfl, rfl⟩
  undecodable _ spec topic _ _ hlt hdecode := step_publish_error hlt hdecode spec topic

/-- The check for a published message looks through the history. -/
theorem History.expectPublished_ok_iff
    (h : History trace w history)
    (topic : Topic)
    (id : Identifier) :
    w.store.expectPublished topic id = .ok () ↔
      ∃ x ∈ history, x.topic = topic ∧ x.message.id = id := by
  rw [Store.expectPublished_ok_iff, h.recorded.kept]
  constructor
  · rintro ⟨m, hm, rfl⟩
    obtain ⟨x, hx, hpair⟩ := List.mem_map.mp hm
    obtain ⟨rfl, rfl⟩ := Prod.mk.inj hpair
    exact ⟨x, hx, rfl, rfl⟩
  · rintro ⟨x, hx, rfl, rfl⟩
    exact ⟨x.message, List.mem_map_of_mem hx, rfl⟩

/-- Whatever is done in a session, and in whatever order, its store is the history of what was
taken.  Each further action adds to it what it takes. -/
theorem store_is_history
    (s : Surroundings)
    (actions : List Action) :
    ∃ history,
      History (run s actions .start).1 (run s actions .start).2 history ∧
      Continues s (run s actions .start).1 (run s actions .start).2 history ∧
      (∀ more, ∃ taken,
        History (run s (actions ++ more) .start).1 (run s (actions ++ more) .start).2
          (history ++ taken)) ∧
      (∀ topic id,
        ((run s actions .start).2.store.expectPublished topic id = .ok () ↔
          ∃ x ∈ history, x.topic = topic ∧ x.message.id = id) ∧
        ((run s actions .start).2.store.expectPublished topic id = .error ⟨topic, id⟩ ↔
          ∀ x ∈ history, x.topic = topic → x.message.id ≠ id)) := by
  obtain ⟨history, h⟩ := History.start.of_run s actions
  rw [List.nil_append, List.nil_append] at h
  refine ⟨history, h, h.continues s, ?_, ?_⟩
  · intro more
    rw [run_append]
    exact h.of_run s more
  · intro topic id
    refine ⟨h.expectPublished_ok_iff topic id, ?_⟩
    rw [Store.expectPublished_error_iff, ← Store.expectPublished_ok_iff,
      h.expectPublished_ok_iff topic id]
    simp only [not_exists, not_and, ne_eq]

/-- Two streams with one identifier, the first dropped half-taken and the second taken beyond
its end, and two calls of `publish`. -/
theorem store_is_history_interleaved :
    let m : Message := ⟨⟨1⟩, ⟨0⟩, none, .ofList [], "m".toUTF8⟩
    let n : Message := ⟨⟨1⟩, ⟨5⟩, none, .ofList [], "n".toUTF8⟩
    let spec : Specification := ⟨none, none, .ofList [], .ofList []⟩
    let payload := "\x7b\"id\": \"7\"\x7d"
    let before : List Action :=
      [.share 0, .send 0 ⟨"a"⟩ [m, n], .send 1 ⟨"b"⟩ [n], .take 1, .take 0, .take 1, .drop 0]
    let actions : List Action :=
      before ++ [.publish 0 spec "c" "7", .publish 1 spec "c" payload]
    ∀ s : Surroundings,
      ∃ x history,
        History (run s actions .start).1 (run s actions .start).2 history ∧
        history.map Taking.pair = [(⟨"b"⟩, n), (⟨"a"⟩, m), (⟨"c"⟩, x)] ∧
        history.map Taking.result = [(.stream 1, n.id), (.stream 0, m.id), (.call, x.id)] ∧
        x.data = payload.toUTF8 ∧
        (run s actions .start).2.store.expectPublished ⟨"c"⟩ x.id = .ok () := by
  intro m n spec payload before actions s
  let w : Session :=
    ⟨⟨[(⟨"b"⟩, n), (⟨"a"⟩, m)]⟩, .start, 2, [none, some ⟨⟨"b"⟩, []⟩]⟩
  have hbefore : (run s before .start).2 = w := rfl
  have hfirst : 0 < w.handles := by decide
  have hsecond : 1 < w.handles := by decide
  have hfailed := step_publish_error (s := s) hfirst decode_seven spec "c"
  have hdecode : Fields.decode payload.toUTF8 = .ok (.ofList [("id", .text "7")]) := decode_idSeven
  obtain ⟨x, p, hx, hpublished⟩ := step_publish_ok (s := s) hsecond hdecode spec "c"
  have hrun := run_append s before [.publish 0 spec "c" "7", .publish 1 spec "c" payload] .start
  simp only [hbefore, run_cons, run_nil, hfailed, hpublished] at hrun
  obtain ⟨history, h, -, -, hcheck⟩ := store_is_history s actions
  have hpairs : history.map Taking.pair = [(⟨"b"⟩, n), (⟨"a"⟩, m), (⟨"c"⟩, x)] := by
    rw [← h.recorded.kept, hrun]
    rfl
  have hresults : history.map Taking.result =
      [(.stream 1, n.id), (.stream 0, m.id), (.call, x.id)] := by
    rw [← h.recorded.results, hrun]
    rfl
  have hmem : ((⟨"c"⟩ : Topic), x) ∈ history.map Taking.pair := by
    simp [hpairs]
  obtain ⟨y, hy, hpair⟩ := List.mem_map.mp hmem
  obtain ⟨htopic, rfl⟩ := Prod.mk.inj hpair
  exact ⟨y.message, history, h, hpairs, hresults, hx.data,
    (hcheck ⟨"c"⟩ y.message.id).1.mpr ⟨y, hy, htopic, rfl⟩⟩

end Runs

end Session
end ChannelHeaders
