import Mathlib
import ChannelHeaders.Proofs.Publishing
import ChannelHeaders.Publishing.Operations

/-!
# What operations answer and leave behind

The operations that resolve headers do it alike: the templates that the topic declares are
evaluated in order, and a warning is reported when there are none.  A topic that is not
declared, one without headers and one with an empty set of headers count the same.

A header is found again in a reply by its name, in whatever form the reply holds it: a list
of resolved headers, the headers of a transport, or the headers of the message that was
sent.  The names of a topic are distinct, so each look-up finds the value of one template.

**Results.**
* `resolveHeaders_eq`: a resolution by the declared templates, in one equation.
* `filterMap_headersOf`: the headers with a template hold the values of that template.
* `perform_publish_error`, `perform_publish_ok`: what publishing answers, sends and leaves.
* `run_sendsOnce`: a payload is sent once, with the headers that are returned.
* `perform_evaluates`: every operation is one evaluation of its templates.
-/

namespace ChannelHeaders

open Payload

namespace Specification

/-- The names and templates of the headers that a topic declares, in order. -/
def headerEntries
    (spec : Specification)
    (topic : String) :
    List (String × String) :=
  match (spec.channel? topic).bind Channel.headers with
  | none => []
  | some templates => templates.entries

/-- A topic lacks headers when it is not declared, has no headers, or has an empty set. -/
def LacksHeaders
    (spec : Specification)
    (topic : String) :
    Prop :=
  spec.channel? topic = none ∨
  ∃ channel,
    spec.channel? topic = some channel ∧
    (channel.headers = none ∨ channel.headers = some .empty)

/-- The names of the headers of a topic that have a given template, in order. -/
def headersOf
    (spec : Specification)
    (template : String)
    (topic : String) :
    List String :=
  ((spec.headerEntries topic).filter fun t => t.2 = template).map Prod.fst

theorem headerEntries_eq_nil_iff
    {spec : Specification}
    {topic : String} :
    spec.headerEntries topic = [] ↔ spec.LacksHeaders topic := by
  rw [headerEntries, LacksHeaders]
  cases hchannel : spec.channel? topic with
  | none => simp
  | some channel =>
      cases hheaders : channel.headers with
      | none => simp [hheaders]
      | some templates => simp [hheaders, OrderedMap.ext_iff, OrderedMap.empty]

instance
    (spec : Specification)
    (topic : String) :
    Decidable (spec.LacksHeaders topic) :=
  decidable_of_iff _ headerEntries_eq_nil_iff

theorem nodup_headerEntries
    (spec : Specification)
    (topic : String) :
    (Pairs.names (spec.headerEntries topic)).Nodup := by
  rw [headerEntries]
  split
  · exact List.nodup_nil
  · rename_i templates _
    exact templates.distinct

/-- The templates that are evaluated are those that are declared. -/
theorem templates?_eq_headerEntries
    (spec : Specification)
    (topic : String) :
    spec.headerEntries topic = ((spec.templates? topic).map OrderedMap.entries).getD [] := by
  rw [headerEntries, templates?]
  cases (spec.channel? topic).bind Channel.headers with
  | none => rfl
  | some templates =>
      obtain ⟨entries, distinct⟩ := templates
      cases entries with
      | nil => rfl
      | cons t ts => rfl

end Specification

section Resolving

variable (s : Surroundings) (fields : Fields)

/-- A resolution evaluates what the topic declares, and warns when that is nothing. -/
theorem resolveHeaders_eq
    (spec : Specification)
    (topic : String)
    (p : Progress) :
    let run := evaluateAll s fields (spec.headerEntries topic) p
    resolveHeaders s spec topic fields p =
      (⟨run.1⟩, { run.2 with
        events := p.events ++ if spec.LacksHeaders topic then [.noTemplates topic] else [] }) := by
  intro run
  have hentries := spec.templates?_eq_headerEntries topic
  cases htemplates : spec.templates? topic with
  | none =>
      rw [htemplates] at hentries
      have hlacks : spec.LacksHeaders topic := Specification.headerEntries_eq_nil_iff.mp hentries
      have hrun : run = ([], p) := by
        simp only [run, hentries]
        rfl
      rw [resolveHeaders_of_none htemplates, hrun, if_pos hlacks]
      rfl
  | some templates =>
      rw [htemplates] at hentries
      have hne : spec.headerEntries topic ≠ [] := by
        obtain ⟨_, _, _, hne⟩ := templates?_eq_some_iff.mp htemplates
        rw [hentries]
        simpa [OrderedMap.isEmpty] using hne
      have hlacks : ¬ spec.LacksHeaders topic := mt Specification.headerEntries_eq_nil_iff.mpr hne
      rw [resolveHeaders_of_templates htemplates, if_neg hlacks, List.append_nil,
        ← events_evaluateAll s fields (spec.headerEntries topic) p]
      simp only [run, hentries]
      rfl

end Resolving

section Picking

/-- The values of the pairs that have a given template, in order. -/
def pick
    (template : String)
    (ts ps : List (String × String)) :
    List String :=
  ((ts.zip ps).filter fun x => x.1.2 = template).map fun x => x.2.2

theorem pick_cons
    (template : String)
    (t p : String × String)
    (ts ps : List (String × String)) :
    pick template (t :: ts) (p :: ps) =
      (if t.2 = template then [p.2] else []) ++ pick template ts ps := by
  by_cases h : t.2 = template
  · simp [pick, h]
  · simp [pick, h]

theorem pick_append
    (template : String)
    {ts ps : List (String × String)}
    (h : Pairs.names ps = Pairs.names ts)
    (ts' ps' : List (String × String)) :
    pick template (ts ++ ts') (ps ++ ps') = pick template ts ps ++ pick template ts' ps' := by
  rw [pick, List.zip_append (Pairs.length_eq_of_names h).symm, List.filter_append,
    List.map_append]
  rfl

/-- Looking up the names that have a template finds the values of that template, in order. -/
theorem filterMap_lookup_eq_pick
    (template : String)
    {ts : List (String × String)} :
    ∀ {ps : List (String × String)},
      Pairs.names ps = Pairs.names ts →
      (Pairs.names ts).Nodup →
      ((ts.filter fun t => t.2 = template).map Prod.fst).filterMap (Pairs.lookup · ps) =
        pick template ts ps := by
  induction ts with
  | nil =>
      intro ps _ _
      rfl
  | cons t ts ih =>
      intro ps hnames hnodup
      cases ps with
      | nil => simp [Pairs.names] at hnames
      | cons p ps =>
          obtain ⟨hname, hnames⟩ : p.1 = t.1 ∧ Pairs.names ps = Pairs.names ts := by
            simpa [Pairs.names] using hnames
          obtain ⟨hnew, hnodup⟩ : t.1 ∉ Pairs.names ts ∧ (Pairs.names ts).Nodup := by
            simpa only [Pairs.names, List.map_cons, List.nodup_cons] using hnodup
          -- The names behind the first one differ from it, so they are looked up behind it.
          have hrest :
              ((ts.filter fun t => t.2 = template).map Prod.fst).filterMap
                  (Pairs.lookup · (p :: ps)) =
                pick template ts ps := by
            rw [← ih hnames hnodup]
            refine List.filterMap_congr ?_
            intro name hname'
            have hmem : name ∈ Pairs.names ts :=
              (List.filter_sublist.map Prod.fst).mem hname'
            have hne : p.1 ≠ name := by
              rintro rfl
              exact hnew (hname ▸ hmem)
            exact if_neg hne
          rw [pick_cons, ← hrest]
          by_cases h : t.2 = template
          · simp [h, Pairs.lookup, hname]
          · simp [h]

variable (s : Surroundings) (template : String) (spec : Specification) (topic : String)
variable (fields : Fields) (p : Progress)

/-- Any view of resolved headers shows the values of a template, when it finds them by name. -/
theorem filterMap_headersOf
    {get? : String → Option String}
    (h : ∀ name ∈ Pairs.names (spec.headerEntries topic),
      get? name = (resolveHeaders s spec topic fields p).1.get? name) :
    (spec.headersOf template topic).filterMap get? =
      pick template (spec.headerEntries topic)
        (evaluateAll s fields (spec.headerEntries topic) p).1 := by
  rw [← filterMap_lookup_eq_pick template (names_evaluateAll s fields _ p)
    (spec.nodup_headerEntries topic)]
  refine List.filterMap_congr ?_
  intro name hname
  have hmem : name ∈ Pairs.names (spec.headerEntries topic) :=
    (List.filter_sublist.map Prod.fst).mem hname
  rw [h name hmem, resolveHeaders_eq]
  rfl

theorem get?_insertAll_resolved
    (headers : Headers)
    {name : String}
    (h : name ∈ Pairs.names (spec.headerEntries topic)) :
    (headers.insertAll (resolveHeaders s spec topic fields p).1.pairs).get? name =
      (resolveHeaders s spec topic fields p).1.get? name := by
  have hnodup := nodup_resolveHeaders s spec topic fields p
  have hnames : name ∈ Pairs.names (resolveHeaders s spec topic fields p).1.pairs := by
    rw [resolveHeaders_eq]
    exact (names_evaluateAll s fields _ p).symm ▸ h
  rw [SortedMap.get?_insertAll, Pairs.last?_eq_lookup name hnodup]
  refine Option.or_of_isSome ?_
  rw [← Pairs.last?_eq_lookup name hnodup]
  exact Pairs.last?_isSome_iff.mpr hnames

end Picking

namespace Operation

variable {σ : Type}

section Replies

/-- The messages that the publisher was asked to send. -/
def Entry.messages : Entry σ → List Message
  | ⟨_, .outcome _ sent⟩ => sent.flatMap Prod.snd
  | _ => []

/-- The values that an operation gave to the headers with a given template.  When a payload is
published, they are found in the messages. -/
def Entry.valuesOf (template : String) : Entry σ → List String
  | ⟨.resolveTemplate text _, .text value⟩ => if text = template then [value] else []
  | ⟨.resolveHeaders spec topic _, .resolved headers⟩ =>
      (spec.headersOf template topic).filterMap headers.get?
  | ⟨.inject spec topic _ _, .injected headers⟩ =>
      (spec.headersOf template topic).filterMap headers.get?
  | ⟨.publish _ spec topic _, .outcome _ sent⟩ =>
      (sent.flatMap Prod.snd).flatMap fun m =>
        (spec.headersOf template topic).filterMap m.headers.get?
  | _ => []

end Replies

section Performing

variable {ι ε : Type}
variable (s : Surroundings) (spec : Specification) (topic : String) (p : Progress) (t : σ)

/-- A payload that cannot be decoded leaves everything as it is. -/
theorem perform_publish_error
    {payload : String}
    {e : DecodeError}
    (h : Fields.decode payload.toUTF8 = .error e)
    (publisher : Publisher σ ι ε) :
    perform s (.publish publisher spec topic payload) (p, t) =
      (.outcome (.error (.decode e) : Except (PublishError ε) (Published ι)) [], p, t) := by
  rw [perform, publish_of_decode_error h]

/-- A payload that was decoded is sent as one message, with the headers that are resolved. -/
theorem perform_publish_ok
    {payload : String}
    {fields : Fields}
    (h : Fields.decode payload.toUTF8 = .ok fields)
    (publisher : Publisher σ ι ε) :
    ∃ m,
      let resolution := ChannelHeaders.resolveHeaders s spec topic fields p
      let result := publisher.firstResult ⟨topic⟩ [m] t
      Carries spec topic payload resolution.1 m ∧
      m.id = s.identifier resolution.2.drawn ∧
      perform s (.publish publisher spec topic payload) (p, t) =
        (.outcome (outcomeOf resolution.1 result.1) [(⟨topic⟩, [m])],
          ⟨resolution.2.drawn + 1, resolution.2.readings + 1, resolution.2.mark,
            resolution.2.events ++ reportsOf topic m resolution.1 result.1⟩,
          result.2) := by
  obtain ⟨m, hm, hid, -, hpublish⟩ :=
    publish_of_decode_ok h s spec publisher.recording topic (Prod.eta _).symm (t, [])
  refine ⟨m, hm, hid, ?_⟩
  rw [perform, hpublish, Publisher.firstResult_recording]
  rfl

end Performing

/-- The trace of a run lists its operations. -/
theorem map_operation_run
    (s : Surroundings)
    (operations : List (Operation σ)) :
    ∀ state, (run s operations state).1.map Entry.operation = operations := by
  induction operations with
  | nil => exact fun _ => rfl
  | cons operation operations ih => exact fun _ => congrArg (operation :: ·) (ih _)

section Sending

/-- A payload that is decoded is sent once, as one message, whose headers are those that are
returned.  Any other payload is refused and not sent. -/
def Entry.SendsOnce : Entry σ → Prop
  | ⟨.publish _ _ topic payload, .outcome outcome sent⟩ =>
      match Fields.decode payload.toUTF8 with
      | .error e => outcome = .error (.decode e) ∧ sent = []
      | .ok _ =>
          (∀ e, outcome ≠ .error (.decode e)) ∧
          ∃ m,
            sent = [(⟨topic⟩, [m])] ∧
            ∀ published, outcome = .ok published →
              m.headers.entries.Perm published.headers.pairs ∧
              ∀ name, m.headers.get? name = published.headers.get? name
  | ⟨.publish _ _ _ _, _⟩ => False
  | _ => True

theorem outcomeOf_ne_decode
    {ι ε : Type}
    (r : ResolvedHeaders)
    (result : Option (Except ε ι))
    (e : DecodeError) :
    outcomeOf r result ≠ .error (.decode e) := by
  rcases result with _ | _ | _ <;> simp [outcomeOf]

theorem headers_of_outcomeOf
    {ι ε : Type}
    {r : ResolvedHeaders}
    {result : Option (Except ε ι)}
    {published : Published ι}
    (h : outcomeOf r result = .ok published) :
    published.headers = r := by
  rcases result with _ | _ | _
  · simp [outcomeOf] at h
  · simp [outcomeOf] at h
  · simp only [outcomeOf, Except.ok.injEq] at h
    rw [← h]

theorem perform_sendsOnce
    (s : Surroundings)
    (operation : Operation σ)
    (p : Progress)
    (t : σ) :
    Entry.SendsOnce ⟨operation, (operation.perform s (p, t)).1⟩ := by
  cases operation with
  | publish publisher spec topic payload =>
      cases hdecode : Fields.decode payload.toUTF8 with
      | error e =>
          rw [perform_publish_error s spec topic p t hdecode]
          simp only [Entry.SendsOnce, hdecode, and_self]
      | ok fields =>
          obtain ⟨m, hm, -, hperform⟩ := perform_publish_ok s spec topic p t hdecode publisher
          have hviews := viewsAgree_of_nodup (nodup_resolveHeaders s spec topic fields p)
          rw [hperform]
          simp only [Entry.SendsOnce, hdecode]
          refine ⟨outcomeOf_ne_decode _ _, m, rfl, ?_⟩
          intro published hpublished
          rw [headers_of_outcomeOf hpublished]
          refine ⟨hm.complete, ?_⟩
          intro name
          rw [hm.headers]
          exact hviews.transport_get? name
  | _ => exact trivial

theorem run_sendsOnce
    (s : Surroundings)
    (operations : List (Operation σ)) :
    ∀ state, ∀ entry ∈ (run s operations state).1, entry.SendsOnce := by
  induction operations with
  | nil =>
      intro state entry h
      exact absurd h List.not_mem_nil
  | cons operation operations ih =>
      intro state entry h
      rw [run_cons] at h
      rcases List.mem_cons.mp h with rfl | h
      · exact perform_sendsOnce s operation state.1 state.2
      · exact ih _ entry h

end Sending

section Evaluating

/-- The templates that an operation evaluates, each under the name of its header. -/
def evaluated : Operation σ → List (String × String)
  | .resolveTemplate text _ => [("", text)]
  | .resolveHeaders spec topic _ => spec.headerEntries topic
  | .inject spec topic _ _ => spec.headerEntries topic
  | .publish _ spec topic payload =>
      match Fields.decode payload.toUTF8 with
      | .ok _ => spec.headerEntries topic
      | .error _ => []
  | _ => []

/-- Whether an operation makes a message: publishing does, when the payload is decoded. -/
def makesMessage : Operation σ → Bool
  | .publish _ _ _ payload => (Fields.decode payload.toUTF8).isOk
  | _ => false

/-- The number of messages that an operation makes. -/
def messageCount (operation : Operation σ) : Nat :=
  if operation.makesMessage then 1 else 0

/-- An operation answers with the values of `run`.  For its message it draws one more identifier
and reads the clock once more.  It raises the mark no further. -/
structure Evaluates
    (s : Surroundings)
    (entry : Entry σ)
    (run : List (String × String) × Progress)
    (p : Progress) :
    Prop where
  values : ∀ template, entry.valuesOf template = pick template entry.operation.evaluated run.1
  messages : entry.messages.map Message.id =
    (List.range' run.2.drawn entry.operation.messageCount).map s.identifier
  drawn : p.drawn = run.2.drawn + entry.operation.messageCount
  readings : p.readings = run.2.readings + entry.operation.messageCount
  mark : p.mark = run.2.mark

section Publish

variable {ι ε : Type} {payload : String}
variable (s : Surroundings) (spec : Specification) (topic : String) (p : Progress) (t : σ)

theorem evaluates_publish_error
    {e : DecodeError}
    (h : Fields.decode payload.toUTF8 = .error e)
    (publisher : Publisher σ ι ε) :
    let operation : Operation σ := .publish publisher spec topic payload
    Evaluates s ⟨operation, (operation.perform s (p, t)).1⟩
      (evaluateAll s .empty operation.evaluated p) (operation.perform s (p, t)).2.1 := by
  intro operation
  have hevaluated : operation.evaluated = [] := by
    simp only [operation, evaluated, h]
  have hcount : operation.messageCount = 0 := by
    rw [messageCount, makesMessage, h]
    rfl
  rw [perform_publish_error s spec topic p t h, hevaluated]
  constructor
  · intro template
    rw [hevaluated]
    rfl
  · rw [hcount]
    rfl
  · rw [hcount]
    rfl
  · rw [hcount]
    rfl
  · rfl

theorem evaluates_publish_ok
    {fields : Fields}
    (h : Fields.decode payload.toUTF8 = .ok fields)
    (publisher : Publisher σ ι ε) :
    let operation : Operation σ := .publish publisher spec topic payload
    Evaluates s ⟨operation, (operation.perform s (p, t)).1⟩
      (evaluateAll s fields operation.evaluated p) (operation.perform s (p, t)).2.1 := by
  intro operation
  have hevaluated : operation.evaluated = spec.headerEntries topic := by
    simp only [operation, evaluated, h]
  have hcount : operation.messageCount = 1 := by
    rw [messageCount, makesMessage, h]
    rfl
  have hr := resolveHeaders_eq s fields spec topic p
  have hviews := viewsAgree_of_nodup (nodup_resolveHeaders s spec topic fields p)
  obtain ⟨m, hm, hid, hperform⟩ := perform_publish_ok s spec topic p t h publisher
  have hget : ∀ name,
      m.headers.get? name =
        (ChannelHeaders.resolveHeaders s spec topic fields p).1.get? name := by
    intro name
    rw [hm.headers]
    exact hviews.transport_get? name
  rw [hperform, hevaluated]
  constructor
  · intro template
    rw [hevaluated, ← filterMap_headersOf s template spec topic fields p fun name _ => hget name]
    exact List.append_nil _
  · rw [hcount, List.range'_one, List.map_singleton]
    refine congrArg (fun id => [id]) (hid.trans ?_)
    exact congrArg (fun r => s.identifier r.2.drawn) hr
  · rw [hcount]
    exact congrArg (·.2.drawn + 1) hr
  · rw [hcount]
    exact congrArg (·.2.readings + 1) hr
  · exact congrArg (·.2.mark) hr

end Publish

variable (s : Surroundings) (p : Progress) (t : σ)

/-- What an operation answers and leaves comes from one evaluation of its templates. -/
theorem perform_evaluates (operation : Operation σ) :
    ∃ fields, Evaluates s ⟨operation, (operation.perform s (p, t)).1⟩
      (evaluateAll s fields operation.evaluated p) (operation.perform s (p, t)).2.1 := by
  cases operation with
  | resolveTemplate text fields =>
      refine ⟨fields, ?_, rfl, rfl, rfl, rfl⟩
      intro template
      rw [evaluated, evaluateAll_cons, pick_cons, pick, List.zip_nil_left]
      exact (List.append_nil _).symm
  | resolveHeaders spec topic fields =>
      have hr := resolveHeaders_eq s fields spec topic p
      refine ⟨fields, ?_, rfl, ?_, ?_, ?_⟩
      · intro template
        exact filterMap_headersOf s template spec topic fields p fun _ _ => rfl
      · exact congrArg (·.2.drawn) hr
      · exact congrArg (·.2.readings) hr
      · exact congrArg (·.2.mark) hr
  | inject spec topic fields headers =>
      have hr := resolveHeaders_eq s fields spec topic p
      refine ⟨fields, ?_, rfl, ?_, ?_, ?_⟩
      · intro template
        refine filterMap_headersOf s template spec topic fields p ?_
        intro name hname
        exact get?_insertAll_resolved s spec topic fields p headers hname
      · exact congrArg (·.2.drawn) hr
      · exact congrArg (·.2.readings) hr
      · exact congrArg (·.2.mark) hr
  | undeclaredFields spec topic => exact ⟨.empty, fun _ => rfl, rfl, rfl, rfl, rfl⟩
  | topics spec => exact ⟨.empty, fun _ => rfl, rfl, rfl, rfl, rfl⟩
  | messageSchema spec topic => exact ⟨.empty, fun _ => rfl, rfl, rfl, rfl, rfl⟩
  | publish publisher spec topic payload =>
      cases hdecode : Fields.decode payload.toUTF8 with
      | error e => exact ⟨.empty, evaluates_publish_error s spec topic p t hdecode publisher⟩
      | ok fields => exact ⟨fields, evaluates_publish_ok s spec topic p t hdecode publisher⟩

end Evaluating

end Operation

end ChannelHeaders
