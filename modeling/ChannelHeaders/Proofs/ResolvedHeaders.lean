import ChannelHeaders.Proofs.Collections
import ChannelHeaders.Resolution

/-!
# Resolved headers and their templates

The headers of a message correspond one to one to the header templates of its topic.  The
templates are evaluated from the first to the last, and a template that draws an
identifier or reads the clock leaves the next template with a changed progress.  The value
of a header is therefore stated at the progress that is reached in front of its template.

The names of the templates are distinct, however the templates were put together, so each
header has one value, and a transport that keeps headers in byte order loses none of them.

**Results.**
* `getElem?_evaluateAll`: the header at each position, by the template at that position.
* `viewsAgree_of_nodup`: look-up, list and transport headers hold the same pairs.
* `resolveHeaders_one_to_one`: the correspondence for every topic of every specification.
-/

namespace ChannelHeaders

open Payload

section Evaluation

variable (s : Surroundings) (fields : Fields)

/-- The progress in front of the template at position `i`. -/
def progressBefore
    (templates : List (String × String))
    (p : Progress)
    (i : Nat) :
    Progress :=
  (evaluateAll s fields (templates.take i) p).2

theorem evaluateAll_cons
    (t : String × String)
    (ts : List (String × String))
    (p : Progress) :
    evaluateAll s fields (t :: ts) p =
      ((t.1, (resolveTemplate s fields t.2 p).1) ::
          (evaluateAll s fields ts (resolveTemplate s fields t.2 p).2).1,
        (evaluateAll s fields ts (resolveTemplate s fields t.2 p).2).2) := by
  rfl

/-- Each header has the name of its template and the value of it at the progress so far. -/
theorem getElem?_evaluateAll
    (ts : List (String × String)) :
    ∀ (p : Progress) (i : Nat),
      (evaluateAll s fields ts p).1[i]? =
        ts[i]?.map fun t =>
          (t.1, (resolveTemplate s fields t.2 (progressBefore s fields ts p i)).1) := by
  induction ts with
  | nil =>
      intro p i
      rfl
  | cons t ts ih =>
      intro p i
      rw [evaluateAll_cons]
      cases i with
      | zero =>
          rfl
      | succ i =>
          have hprogress :
              progressBefore s fields (t :: ts) p (i + 1) =
                progressBefore s fields ts (resolveTemplate s fields t.2 p).2 i := by
            rw [progressBefore, List.take_succ_cons, evaluateAll_cons]
            rfl
          rw [hprogress]
          exact ih _ i

/-- A template without directive and an unknown directive stand for themselves. -/
theorem resolveTemplate_fixed
    {text part : String}
    (h : Template.parse text = .literal part ∨ Template.parse text = .unknown part)
    (p : Progress) :
    resolveTemplate s fields text p = (text, p) := by
  have hrender := Template.render_parse text
  rcases h with h | h
  · rw [h] at hrender
    have hpart : part = text := hrender
    rw [resolveTemplate, h, hpart]
    rfl
  · rw [h] at hrender
    have hpart : part = text := hrender
    rw [resolveTemplate, h, hpart]
    rfl

theorem resolveTemplate_payloadField
    {text name : String}
    (h : Template.parse text = .payloadField name)
    (p : Progress) :
    resolveTemplate s fields text p =
      (((fields.get? name).map Value.headerText).getD "", p) := by
  rw [resolveTemplate, h]
  rfl

theorem resolveTemplate_identifier (p : Progress) :
    resolveTemplate s fields "${uuid()}" p =
      ((s.identifier p.drawn).text, { p with drawn := p.drawn + 1 }) := by
  rfl

theorem resolveTemplate_timestamp (p : Progress) :
    let mark := max p.mark (s.clock p.readings).milliseconds
    resolveTemplate s fields "${timestamp()}" p =
      (toString mark, { p with readings := p.readings + 1, mark }) := by
  rfl

/-- Every other template leaves the progress as it is. -/
theorem progress_resolveTemplate
    {text : String}
    (hidentifier : text ≠ "${uuid()}")
    (htimestamp : text ≠ "${timestamp()}")
    (p : Progress) :
    (resolveTemplate s fields text p).2 = p := by
  have hrender := Template.render_parse text
  cases hparse : Template.parse text with
  | literal part => exact congrArg Prod.snd (resolveTemplate_fixed s fields (.inl hparse) p)
  | unknown part => exact congrArg Prod.snd (resolveTemplate_fixed s fields (.inr hparse) p)
  | payloadField field => exact congrArg Prod.snd (resolveTemplate_payloadField s fields hparse p)
  | identifier =>
      rw [hparse] at hrender
      exact absurd hrender.symm hidentifier
  | timestamp =>
      rw [hparse] at hrender
      exact absurd hrender.symm htimestamp

theorem events_resolveTemplate
    (text : String)
    (p : Progress) :
    (resolveTemplate s fields text p).2.events = p.events := by
  rw [resolveTemplate]
  cases Template.parse text with
  | literal part => rfl
  | unknown part => rfl
  | identifier => rfl
  | timestamp => rfl
  | payloadField field => rfl

/-- Evaluating templates reports nothing. -/
theorem events_evaluateAll (ts : List (String × String)) :
    ∀ p, (evaluateAll s fields ts p).2.events = p.events := by
  induction ts with
  | nil =>
      intro p
      rfl
  | cons t ts ih =>
      intro p
      rw [evaluateAll_cons, ih, events_resolveTemplate]

/-- The headers `r` are those of the templates, resolved one after another from `p` on. -/
structure Resolves
    (templates : HeaderTemplates)
    (p : Progress)
    (r : ResolvedHeaders) :
    Prop where
  size : r.size = templates.size
  names : Pairs.names r.pairs = templates.names
  distinct : (Pairs.names r.pairs).Nodup
  collected : ∀ ps, templates = .ofList ps →
    Pairs.names r.pairs = (Pairs.names ps).eraseDups
  values : ∀ i name text, templates.entries[i]? = some (name, text) →
    ∃ value,
      r.pairs[i]? = some (name, value) ∧
      r.get? name = some value ∧
      value = ((Template.parse text).evaluate s fields
        (progressBefore s fields templates.entries p i)).1 ∧
      (∀ part, Template.parse text = .literal part ∨ Template.parse text = .unknown part →
        value = text) ∧
      (∀ field, Template.parse text = .payloadField field →
        value = ((fields.get? field).map Value.headerText).getD "")

theorem resolves_evaluateAll
    (templates : HeaderTemplates)
    (p : Progress) :
    Resolves s fields templates p ⟨(evaluateAll s fields templates.entries p).1⟩ := by
  have hnames := names_evaluateAll s fields templates.entries p
  have hdistinct : (Pairs.names (evaluateAll s fields templates.entries p).1).Nodup := by
    rw [hnames]
    exact templates.distinct
  refine ⟨Pairs.length_eq_of_names hnames, hnames, hdistinct, ?_, ?_⟩
  · rintro ps rfl
    exact hnames.trans (OrderedMap.names_ofList ps)
  · intro i name text ht
    have hi := getElem?_evaluateAll s fields templates.entries p i
    rw [ht, Option.map_some] at hi
    refine ⟨_, hi, ?_, rfl, ?_, ?_⟩
    · exact (Pairs.lookup_eq_some_iff hdistinct).mpr (List.mem_of_getElem? hi)
    · intro part hpart
      exact congrArg Prod.fst (resolveTemplate_fixed s fields hpart _)
    · intro field hfield
      exact congrArg Prod.fst (resolveTemplate_payloadField s fields hfield _)

end Evaluation

/-- The ways to look at resolved headers hold the same pairs. -/
structure ViewsAgree (r : ResolvedHeaders) : Prop where
  get?_iff : ∀ name value, r.get? name = some value ↔ (name, value) ∈ r.pairs
  transport : r.toHeaders.entries.Perm r.pairs
  transport_size : r.toHeaders.entries.length = r.size
  transport_get? : ∀ name, r.toHeaders.get? name = r.get? name

theorem viewsAgree_of_nodup
    {r : ResolvedHeaders}
    (h : (Pairs.names r.pairs).Nodup) :
    ViewsAgree r := by
  have hperm : r.toHeaders.entries.Perm r.pairs := SortedMap.perm_ofList h
  refine ⟨?_, hperm, hperm.length_eq, ?_⟩
  · intro name value
    exact Pairs.lookup_eq_some_iff h
  · intro name
    have hlast : r.toHeaders.get? name = Pairs.last? name r.pairs :=
      SortedMap.get?_ofList r.pairs name
    rw [hlast]
    exact Pairs.last?_eq_lookup name h

theorem resolveHeaders_of_templates
    {spec : Specification}
    {topic : String}
    {templates : HeaderTemplates}
    (h : spec.templates? topic = some templates)
    (s : Surroundings)
    (fields : Fields)
    (p : Progress) :
    resolveHeaders s spec topic fields p =
      (⟨(evaluateAll s fields templates.entries p).1⟩,
        (evaluateAll s fields templates.entries p).2) := by
  rw [resolveHeaders, h]
  rfl

/-- A topic has templates when its channel declares headers and declares at least one. -/
theorem templates?_eq_some_iff
    {spec : Specification}
    {topic : String}
    {templates : HeaderTemplates} :
    spec.templates? topic = some templates ↔
      ∃ channel,
        spec.channel? topic = some channel ∧
        channel.headers = some templates ∧
        templates.isEmpty = false := by
  rw [Specification.templates?, Option.filter_eq_some_iff, Option.bind_eq_some_iff]
  constructor
  · rintro ⟨⟨channel, hchannel, hheaders⟩, hne⟩
    exact ⟨channel, hchannel, hheaders, by simpa using hne⟩
  · rintro ⟨channel, hchannel, hheaders, hne⟩
    exact ⟨⟨channel, hchannel, hheaders⟩, by simpa using hne⟩

theorem nodup_resolveHeaders
    (s : Surroundings)
    (spec : Specification)
    (topic : String)
    (fields : Fields)
    (p : Progress) :
    (Pairs.names (resolveHeaders s spec topic fields p).1.pairs).Nodup := by
  cases h : spec.templates? topic with
  | none =>
      rw [resolveHeaders_of_none h]
      exact List.nodup_nil
  | some templates =>
      rw [resolveHeaders_of_templates h]
      exact (resolves_evaluateAll s fields templates p).distinct

/-- Resolution is one to one with the declaration, and each of its views is complete. -/
theorem resolveHeaders_one_to_one
    (s : Surroundings)
    (spec : Specification)
    (topic : String)
    (fields : Fields)
    (p : Progress) :
    (∀ channel templates,
      spec.channel? topic = some channel →
      channel.headers = some templates →
      templates.isEmpty = false →
      Resolves s fields templates p (resolveHeaders s spec topic fields p).1) ∧
    ((∀ channel templates,
        spec.channel? topic = some channel →
        channel.headers = some templates →
        templates.isEmpty = true) →
      (resolveHeaders s spec topic fields p).1.pairs = []) ∧
    ViewsAgree (resolveHeaders s spec topic fields p).1 := by
  refine ⟨?_, ?_, ?_⟩
  · intro channel templates hchannel hheaders hne
    have h : spec.templates? topic = some templates :=
      templates?_eq_some_iff.mpr ⟨channel, hchannel, hheaders, hne⟩
    rw [resolveHeaders_of_templates h]
    exact resolves_evaluateAll s fields templates p
  · intro hempty
    have h : spec.templates? topic = none := by
      cases h : spec.templates? topic with
      | none => rfl
      | some templates =>
          obtain ⟨channel, hchannel, hheaders, hne⟩ := templates?_eq_some_iff.mp h
          rw [hempty channel templates hchannel hheaders] at hne
          exact absurd hne (by decide)
    rw [resolveHeaders_of_none h]
    rfl
  · exact viewsAgree_of_nodup (nodup_resolveHeaders s spec topic fields p)

/-- A header declared twice, a payload field and an unknown directive. -/
theorem resolveHeaders_one_to_one_orders :
    let templates : HeaderTemplates := .ofList
      [("x-id", "draft"), ("x-owner", "${message.payload.owner}"),
        ("x-id", "${now()}")]
    let spec : Specification :=
      ⟨none, none, .ofList [("orders", ⟨none, some templates⟩)], .empty⟩
    let fields : Fields := .ofList [("owner", .text "ada")]
    ∀ s : Surroundings,
      spec.channel? "orders" = some ⟨none, some templates⟩ ∧
      templates.isEmpty = false ∧
      Resolves s fields templates .start (resolveHeaders s spec "orders" fields .start).1 ∧
      (resolveHeaders s spec "orders" fields .start).1.pairs =
        [("x-id", "${now()}"), ("x-owner", "ada")] ∧
      spec.channel? "Orders" = none ∧
      (resolveHeaders s spec "Orders" fields .start).1.pairs = [] := by
  intro templates spec fields s
  have hchannel : spec.channel? "orders" = some ⟨none, some templates⟩ := by decide
  have hne : templates.isEmpty = false := by decide
  have hnone : spec.channel? "Orders" = none := by decide
  refine ⟨hchannel, hne, ?_, by rfl, hnone, ?_⟩
  · exact (resolveHeaders_one_to_one s spec "orders" fields .start).1 _ templates hchannel rfl hne
  · refine (resolveHeaders_one_to_one s spec "Orders" fields .start).2.1 ?_
    intro channel _ h
    rw [hnone] at h
    exact absurd h (by simp)

end ChannelHeaders
