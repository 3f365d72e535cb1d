import ChannelHeaders.Proofs.DocumentContents
import ChannelHeaders.Proofs.ResolvedHeaders

/-!
# What resolved headers depend on

Two runs are compared.  Each reads a document of its own and resolves the headers of one
topic against a payload of its own.  When both documents declare the same templates for
the topic, and both payloads give the same text for every field that these templates refer
to, the headers agree, except for those that are generated anew in each run.

The declared templates are taken from the entries of the document, as they are written:
those of the last entry of the topic, with repeated names.  Everything else in the
documents and in the payloads is free, and so are the clock, the identifiers and the
progress at which a run starts.

**Results.**
* `templates?_of_ofTree`: the templates of a topic, from its declared ones.
* `resolveTemplate_congr`: a template that generates nothing has one value.
* `resolveHeaders_of_ofTree`: a run on a document, by its declared templates.
* `resolveHeaders_depends_on`: the comparison of two runs.
-/

namespace ChannelHeaders

open Payload

namespace Specification

open Document

section Declared

/-- The header names and template texts under the last entry of a topic, in document order. -/
def declaredTemplates
    (t : Tree)
    (topic : String) :
    List (String × String) :=
  let channel := Pairs.last? topic (named (channelEntries t))
  (named (inside (Tree.field? "x-headers" (inside channel)))).map fun e => (e.1, templateText e.2)

/-- Headers are collected from the texts of the entries. -/
theorem spellsHeaders_ofList (es : Entries) :
    SpellsHeaders es (.ofList ((named es).map fun e => (e.1, templateText e.2))) := by
  constructor
  · rw [OrderedMap.names_ofList, Pairs.names_map]
  · intro name
    rw [OrderedMap.get?_ofList, Pairs.last?_map]

/-- A topic has templates when at least one is declared under its last entry. -/
theorem templates?_of_ofTree
    {t : Tree}
    {spec : Specification}
    (h : ofTree t = .ok spec)
    (topic : String) :
    spec.templates? topic =
      if declaredTemplates t topic = [] then none
      else some (.ofList (declaredTemplates t topic)) := by
  have hfilter : ∀ ps : List (String × String),
      (some (OrderedMap.ofList ps)).filter (!·.isEmpty) =
        if ps = [] then none else some (.ofList ps) := by
    intro ps
    cases ps with
    | nil => rfl
    | cons p ps => simp [OrderedMap.isEmpty_ofList]
  rw [← hfilter]
  have hchannel := (spells_of_ofTree h).channels topic
  rw [templates?, declaredTemplates]
  generalize Pairs.last? topic (named (channelEntries t)) = last at hchannel ⊢
  generalize spec.channel? topic = channel at hchannel ⊢
  cases hchannel with
  | none => rfl
  | @some last channel hspells =>
      have hheaders := hspells.headers
      rw [Option.bind_some, inside]
      generalize section? (Tree.field? "x-headers" (inside (some last))) = es at hheaders ⊢
      generalize channel.headers = headers at hheaders ⊢
      cases hheaders with
      | none => rfl
      | @some es headers hspells =>
          rw [spellsHeaders_unique es headers _ hspells (spellsHeaders_ofList es),
            Option.getD_some]

end Declared

end Specification

section Values

/-- The text that a payload gives for a field; a field that is absent counts as empty. -/
def fieldText
    (fields : Fields)
    (field : String) :
    String :=
  ((fields.get? field).map Value.headerText).getD ""

/-- A template that generates nothing has one value in all runs. -/
theorem resolveTemplate_congr
    {text : String}
    {fields fields' : Fields}
    (hidentifier : text ≠ "${uuid()}")
    (htimestamp : text ≠ "${timestamp()}")
    (hfields : ∀ field, text = "$\x7bmessage.payload." ++ field ++ "\x7d" →
      fieldText fields field = fieldText fields' field)
    (s s' : Surroundings)
    (p p' : Progress) :
    (resolveTemplate s fields text p).1 = (resolveTemplate s' fields' text p').1 := by
  have hrender := Template.render_parse text
  cases hparse : Template.parse text with
  | literal part =>
      rw [resolveTemplate_fixed s fields (Or.inl hparse),
        resolveTemplate_fixed s' fields' (Or.inl hparse)]
  | unknown part =>
      rw [resolveTemplate_fixed s fields (Or.inr hparse),
        resolveTemplate_fixed s' fields' (Or.inr hparse)]
  | identifier =>
      rw [hparse] at hrender
      exact absurd hrender.symm hidentifier
  | timestamp =>
      rw [hparse] at hrender
      exact absurd hrender.symm htimestamp
  | payloadField field =>
      rw [hparse] at hrender
      have htext : text = "$\x7bmessage.payload." ++ field ++ "\x7d" := by
        rw [← hrender, Template.render, Template.directive, ← String.append_assoc]
        rfl
      rw [resolveTemplate_payloadField s fields hparse,
        resolveTemplate_payloadField s' fields' hparse]
      exact hfields field htext

end Values

section Runs

variable (s : Surroundings) (fields : Fields)

/-- The header under a declared name is the value of its template at some progress. -/
theorem get?_evaluateAll
    {templates : HeaderTemplates}
    {name text : String}
    (h : templates.get? name = some text)
    (p : Progress) :
    ∃ q, ResolvedHeaders.get? ⟨(evaluateAll s fields templates.entries p).1⟩ name =
      some (resolveTemplate s fields text q).1 := by
  have hmem := (OrderedMap.get?_eq_some_iff templates name text).mp h
  obtain ⟨i, hi⟩ := List.mem_iff_getElem?.mp hmem
  obtain ⟨value, -, hget, hvalue, -⟩ :=
    (resolves_evaluateAll s fields templates p).values i name text hi
  exact ⟨_, hget.trans (congrArg some hvalue)⟩

theorem get?_evaluateAll_eq_none
    {templates : HeaderTemplates}
    {name : String}
    (h : templates.get? name = none)
    (p : Progress) :
    ResolvedHeaders.get? ⟨(evaluateAll s fields templates.entries p).1⟩ name = none := by
  rw [ResolvedHeaders.get?, Pairs.lookup_eq_none_iff, names_evaluateAll]
  exact Pairs.lookup_eq_none_iff.mp h

/-- A run on a document, by the templates that it declares: their values, and one warning when
there are none. -/
theorem resolveHeaders_of_ofTree
    {t : Document.Tree}
    {spec : Specification}
    (h : Specification.ofTree t = .ok spec)
    (topic : String)
    (p : Progress) :
    let declared := Specification.declaredTemplates t topic
    let run := resolveHeaders s spec topic fields p
    run.1 = ⟨(evaluateAll s fields (OrderedMap.ofList declared).entries p).1⟩ ∧
      run.2.events = p.events ++ if declared = [] then [.noTemplates topic] else [] := by
  intro declared run
  have htemplates := Specification.templates?_of_ofTree h topic
  by_cases hempty : declared = []
  · rw [if_pos hempty] at htemplates
    simp only [run, resolveHeaders_of_none htemplates, hempty, if_true, and_true]
    rfl
  · rw [if_neg hempty] at htemplates
    simp only [run, resolveHeaders_of_templates htemplates, events_evaluateAll, if_neg hempty,
      List.append_nil, and_true]
    rfl

end Runs

/-- A name under which nothing is generated has the same header in both runs. -/
theorem get?_evaluateAll_congr
    {declared : List (String × String)}
    {fields fields' : Fields}
    (hfields : ∀ name field, (name, "$\x7bmessage.payload." ++ field ++ "\x7d") ∈ declared →
      fieldText fields field = fieldText fields' field)
    {name : String}
    (hidentifier : Pairs.last? name declared ≠ some "${uuid()}")
    (htimestamp : Pairs.last? name declared ≠ some "${timestamp()}")
    (s s' : Surroundings)
    (p p' : Progress) :
    ResolvedHeaders.get?
        ⟨(evaluateAll s fields (OrderedMap.ofList declared).entries p).1⟩ name =
      ResolvedHeaders.get?
        ⟨(evaluateAll s' fields' (OrderedMap.ofList declared).entries p').1⟩ name := by
  have hlast := OrderedMap.get?_ofList declared name
  cases hget : (OrderedMap.ofList declared).get? name with
  | none =>
      rw [get?_evaluateAll_eq_none s fields hget, get?_evaluateAll_eq_none s' fields' hget]
  | some text =>
      obtain ⟨q, hq⟩ := get?_evaluateAll s fields hget p
      obtain ⟨q', hq'⟩ := get?_evaluateAll s' fields' hget p'
      have htext : Pairs.last? name declared = some text := by
        rw [← hlast, hget]
      have hmem : (name, text) ∈ declared := Pairs.mem_of_last? htext
      rw [htext] at hidentifier htimestamp
      rw [hq, hq']
      refine congrArg some (resolveTemplate_congr ?_ ?_ ?_ s s' q q')
      · rintro rfl
        exact hidentifier rfl
      · rintro rfl
        exact htimestamp rfl
      · rintro field rfl
        exact hfields name field hmem

/-- The headers of a topic depend on its own templates and on the fields these refer to.  A name
that is not declared has no header in either run. -/
theorem resolveHeaders_depends_on
    {t t' : Document.Tree}
    {spec spec' : Specification}
    (h : Specification.ofTree t = .ok spec)
    (h' : Specification.ofTree t' = .ok spec')
    {topic : String}
    {declared : List (String × String)}
    (hdeclared : Specification.declaredTemplates t topic = declared)
    (hdeclared' : Specification.declaredTemplates t' topic = declared)
    {fields fields' : Fields}
    (hfields : ∀ name field, (name, "$\x7bmessage.payload." ++ field ++ "\x7d") ∈ declared →
      fieldText fields field = fieldText fields' field)
    (s s' : Surroundings)
    (p p' : Progress) :
    let run := resolveHeaders s spec topic fields p
    let run' := resolveHeaders s' spec' topic fields' p'
    let warnings := if declared = [] then [Event.noTemplates topic] else []
    Pairs.names run.1.pairs = Pairs.names run'.1.pairs ∧
    (∀ name,
      Pairs.last? name declared ≠ some "${uuid()}" →
      Pairs.last? name declared ≠ some "${timestamp()}" →
      run.1.get? name = run'.1.get? name) ∧
    run.2.events = p.events ++ warnings ∧
    run'.2.events = p'.events ++ warnings := by
  intro run run' warnings
  obtain ⟨hheaders, hevents⟩ := resolveHeaders_of_ofTree s fields h topic p
  obtain ⟨hheaders', hevents'⟩ := resolveHeaders_of_ofTree s' fields' h' topic p'
  rw [hdeclared] at hheaders hevents
  rw [hdeclared'] at hheaders' hevents'
  refine ⟨?_, ?_, hevents, hevents'⟩
  · simp only [run, run', hheaders, hheaders', names_evaluateAll]
  · intro name hidentifier htimestamp
    simp only [run, run', hheaders, hheaders']
    exact get?_evaluateAll_congr hfields hidentifier htimestamp s s' p p'

/-- Two documents that share nothing but the templates of one topic, and two payloads that differ
in a field of no template and in how another one is empty. -/
theorem resolveHeaders_depends_on_orders :
    let templates : Document.Tree := .mapping
      [(.text "x-id", .text "${message.payload.id}"),
        (.text "x-trace", .text "${uuid()}"),
        (.text "x-note", .text "${message.payload.note}")]
    let t : Document.Tree := .mapping
      [(.text "channels", .mapping [(.text "orders", .mapping [(.text "x-headers", templates)])])]
    let t' : Document.Tree := .mapping
      [(.text "asyncapi", .text "2.6.0"), (.text "channels", .mapping
        [(.tagged "!old" (.text "orders"), .mapping [(.text "x-headers", .mapping
            [(.text "x-id", .text "none")])]),
          (.text "bills", .null),
          (.text "orders", .tagged "!new" (.mapping
            [(.text "publish", .mapping []), (.text "x-headers", templates)]))])]
    let declared := [("x-id", "${message.payload.id}"), ("x-trace", "${uuid()}"),
      ("x-note", "${message.payload.note}")]
    let headers : HeaderTemplates := .ofList declared
    let spec : Specification :=
      ⟨none, none, .ofList [("orders", ⟨none, some headers⟩)], .empty⟩
    let spec' : Specification :=
      ⟨some "2.6.0", none,
        .ofList [("bills", ⟨none, none⟩), ("orders", ⟨some ⟨none⟩, some headers⟩)], .empty⟩
    let fields : Fields := .ofList [("id", .text "7"), ("secret", .text "a")]
    let fields' : Fields := .ofList [("note", .null), ("secret", .bool true), ("id", .text "7")]
    Specification.ofTree t = .ok spec ∧
      Specification.ofTree t' = .ok spec' ∧
      Specification.declaredTemplates t "orders" = declared ∧
      Specification.declaredTemplates t' "orders" = declared ∧
      ∀ s s' : Surroundings,
        let run := resolveHeaders s spec "orders" fields .start
        let run' := resolveHeaders s' spec' "orders" fields' .start
        Pairs.names run.1.pairs = Pairs.names run'.1.pairs ∧
          run.1.get? "x-id" = run'.1.get? "x-id" ∧
          run.1.get? "x-note" = run'.1.get? "x-note" ∧
          run.2.events = run'.2.events := by
  intro templates t t' declared headers spec spec' fields fields'
  have h : Specification.ofTree t = .ok spec := by rfl
  have h' : Specification.ofTree t' = .ok spec' := by rfl
  have hdeclared : Specification.declaredTemplates t "orders" = declared := by rfl
  have hdeclared' : Specification.declaredTemplates t' "orders" = declared := by rfl
  have hfields : ∀ name field,
      (name, "$\x7bmessage.payload." ++ field ++ "\x7d") ∈ declared →
        fieldText fields field = fieldText fields' field := by
    intro name field hmem
    have hid : "${message.payload.id}" = "$\x7bmessage.payload." ++ "id" ++ "\x7d" := by rfl
    have hnote :
        "${message.payload.note}" = "$\x7bmessage.payload." ++ "note" ++ "\x7d" := by
      rfl
    have huuid : "$\x7bmessage.payload." ++ field ++ "\x7d" ≠ "${uuid()}" := by
      intro he
      simpa using congrArg String.toList he
    simp only [declared, List.mem_cons, Prod.mk.injEq, List.not_mem_nil, or_false, huuid,
      and_false, false_or] at hmem
    rcases hmem with ⟨-, he⟩ | ⟨-, he⟩
    · rw [hid, String.append_left_inj, String.append_right_inj] at he
      subst he
      rfl
    · rw [hnote, String.append_left_inj, String.append_right_inj] at he
      subst he
      rfl
  refine ⟨h, h', hdeclared, hdeclared', ?_⟩
  intro s s' run run'
  obtain ⟨hnames, hheaders, hevents, hevents'⟩ :=
    resolveHeaders_depends_on h h' hdeclared hdeclared' hfields s s' .start .start
  refine ⟨hnames, hheaders "x-id" ?_ ?_, hheaders "x-note" ?_ ?_, hevents.trans hevents'.symm⟩
  · decide
  · decide
  · decide
  · decide

end ChannelHeaders
