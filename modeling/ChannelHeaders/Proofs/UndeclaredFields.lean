import ChannelHeaders.Proofs.HeaderDependence
import ChannelHeaders.Proofs.OperationEffects
import ChannelHeaders.Proofs.TemplateClasses

/-!
# Payload fields that are not declared

A topic may take payload fields for its headers that the schema of its message does not
declare.  The list of these fields has one entry for each such template, in the order of the
headers.  A field is not declared when there is no schema, when the schema has no payload, or
when the payload has no property of that name.

The list says in advance what headers will hold.  When a payload has declared fields only,
the headers on the list are empty.  When the list is empty and a payload has all declared
fields, no header is empty for want of a field.

The fields on the list may be declared afterwards, in the message of the topic or in the
component that it points to.  Other topics that point to this component then declare them
too, and no header changes.

**Results.**
* `lists_iff`: the list by the ways in which a field is not declared.
* `get?_resolveHeaders_ofField`: the header of a payload field.
* `messageSchema?_declare_of_shares`, `messageSchema?_declare_of_not_shares`: the schemas behind
  a declaration.
* `undeclaredFields_predict`: the list, and what follows from it for every payload.
-/

namespace ChannelHeaders

open Payload

namespace Template

/-- The template that takes a payload field. -/
def ofField (field : String) : String :=
  "$\x7bmessage.payload." ++ field ++ "\x7d"

theorem ofField_eq_directive (field : String) : ofField field = directive (fieldStem ++ field) := by
  rw [directive, ← String.append_assoc]
  rfl

theorem parse_ofField (field : String) : parse (ofField field) = .payloadField field := by
  rw [ofField_eq_directive, parse_payloadField]

end Template

/-- A template takes a field when it is the template of this field. -/
theorem referencedField?_eq_some_iff {text field : String} :
    referencedField? text = some field ↔ text = Template.ofField field := by
  constructor
  · intro h
    have hrender := Template.render_parse text
    unfold referencedField? at h
    split at h
    · rename_i field' hparse
      cases h
      rw [← hrender, hparse, Template.ofField_eq_directive]
      rfl
    · cases h
  · rintro rfl
    rw [referencedField?, Template.parse_ofField]

theorem referencedField?_ofField (field : String) :
    referencedField? (Template.ofField field) = some field :=
  referencedField?_eq_some_iff.mpr rfl

namespace Specification

section Declaring

variable (spec : Specification) (topic : String)

/-- The message of a topic declares a payload field. -/
def IsDeclared (field : String) : Prop :=
  ∃ schema payload,
    spec.messageSchema? topic = some schema ∧
    schema.payload = some payload ∧
    field ∈ payload.properties.names

/-- The ways in which the message of a topic does not declare a payload field. -/
inductive Lacks (field : String) : Prop
  | schema
      (hschema : spec.messageSchema? topic = none) :
      Lacks field
  | payload
      {schema : MessageSchema}
      (hschema : spec.messageSchema? topic = some schema)
      (hpayload : schema.payload = none) :
      Lacks field
  | property
      {schema : MessageSchema}
      {payload : PayloadSchema}
      (hschema : spec.messageSchema? topic = some schema)
      (hpayload : schema.payload = some payload)
      (hfield : field ∉ payload.properties.names) :
      Lacks field

/-- The fields of a list are those that the templates take and that are not declared, in the order
of the templates. -/
inductive Lists : List (String × String) → List String → Prop
  | nil : Lists [] []
  | undeclared
      {name field : String}
      {templates : List (String × String)}
      {fields : List String}
      (hfield : spec.Lacks topic field)
      (hrest : Lists templates fields) :
      Lists ((name, Template.ofField field) :: templates) (field :: fields)
  | declared
      {name field : String}
      {templates : List (String × String)}
      {fields : List String}
      (hfield : spec.IsDeclared topic field)
      (hrest : Lists templates fields) :
      Lists ((name, Template.ofField field) :: templates) fields
  | other
      {name text : String}
      {templates : List (String × String)}
      {fields : List String}
      (htext : ∀ field, text ≠ Template.ofField field)
      (hrest : Lists templates fields) :
      Lists ((name, text) :: templates) fields

end Declaring

section Listing

variable {spec : Specification} {topic : String}

theorem declares_eq
    (spec : Specification)
    (topic field : String) :
    spec.declares topic field =
      (((spec.messageSchema? topic).bind MessageSchema.payload).map fun payload =>
        payload.properties.contains field).getD false := by
  rw [declares]
  cases (spec.messageSchema? topic).bind MessageSchema.payload with
  | none => rfl
  | some payload => rfl

theorem declares_iff {field : String} :
    spec.declares topic field = true ↔ spec.IsDeclared topic field := by
  rw [declares_eq, IsDeclared]
  cases hschema : spec.messageSchema? topic with
  | none => simp
  | some schema =>
      cases hpayload : schema.payload with
      | none => simp [hpayload]
      | some payload => simp [hpayload, SortedMap.contains, SortedMap.mem_names_iff]

/-- A field lacks in one of the listed ways, or it is declared. -/
theorem lacks_iff {field : String} :
    spec.Lacks topic field ↔ ¬ spec.IsDeclared topic field := by
  constructor
  · rintro (hnone | ⟨hsome, hpayload⟩ | ⟨hsome, hpayload, hfield⟩) ⟨schema, payload, hs, hp, hf⟩
    · rw [hnone] at hs
      cases hs
    · rw [hsome] at hs
      cases hs
      rw [hpayload] at hp
      cases hp
    · rw [hsome] at hs
      cases hs
      rw [hpayload] at hp
      cases hp
      exact hfield hf
  · intro h
    cases hschema : spec.messageSchema? topic with
    | none => exact .schema hschema
    | some schema =>
        cases hpayload : schema.payload with
        | none => exact .payload hschema hpayload
        | some payload =>
            exact .property hschema hpayload fun hf => h ⟨schema, payload, hschema, hpayload, hf⟩

/-- The fields that some templates take and that are not declared, once for each template. -/
def undeclaredOf
    (spec : Specification)
    (topic : String)
    (templates : List (String × String)) :
    List String :=
  (templates.filterMap fun t => referencedField? t.2).filter (!spec.declares topic ·)

theorem undeclaredFields_eq
    (spec : Specification)
    (topic : String) :
    spec.undeclaredFields topic = spec.undeclaredOf topic (spec.headerEntries topic) := by
  rw [undeclaredFields, headerEntries]
  cases (spec.channel? topic).bind Channel.headers with
  | none => rfl
  | some templates => rfl

theorem undeclaredOf_cons_ofField
    (name field : String)
    (templates : List (String × String)) :
    spec.undeclaredOf topic ((name, Template.ofField field) :: templates) =
      if spec.declares topic field then spec.undeclaredOf topic templates
      else field :: spec.undeclaredOf topic templates := by
  simp only [undeclaredOf, List.filterMap_cons, referencedField?_ofField, List.filter_cons]
  cases spec.declares topic field with
  | false => rfl
  | true => rfl

theorem undeclaredOf_cons_other
    (name : String)
    {text : String}
    (htext : ∀ field, text ≠ Template.ofField field)
    (templates : List (String × String)) :
    spec.undeclaredOf topic ((name, text) :: templates) = spec.undeclaredOf topic templates := by
  have hnone : referencedField? text = none := by
    rw [Option.eq_none_iff_forall_ne_some]
    exact fun field hfield => htext field (referencedField?_eq_some_iff.mp hfield)
  simp only [undeclaredOf, List.filterMap_cons, hnone]

theorem lists_undeclaredOf (templates : List (String × String)) :
    spec.Lists topic templates (spec.undeclaredOf topic templates) := by
  induction templates with
  | nil => exact .nil
  | cons t templates ih =>
      obtain ⟨name, text⟩ := t
      by_cases htext : ∃ field, text = Template.ofField field
      · obtain ⟨field, rfl⟩ := htext
        rw [undeclaredOf_cons_ofField]
        split
        · rename_i hdeclares
          exact .declared (declares_iff.mp hdeclares) ih
        · rename_i hdeclares
          exact .undeclared (lacks_iff.mpr (mt declares_iff.mpr hdeclares)) ih
      · have hother : ∀ field, text ≠ Template.ofField field := not_exists.mp htext
        rw [undeclaredOf_cons_other name hother]
        exact .other hother ih

theorem Lists.eq_undeclaredOf
    {templates : List (String × String)}
    {fields : List String}
    (h : spec.Lists topic templates fields) :
    spec.undeclaredOf topic templates = fields := by
  induction h with
  | nil => rfl
  | undeclared hfield _ ih =>
      rw [undeclaredOf_cons_ofField, ih, if_neg (mt declares_iff.mp (lacks_iff.mp hfield))]
  | declared hfield _ ih =>
      rw [undeclaredOf_cons_ofField, ih, if_pos (declares_iff.mpr hfield)]
  | other htext _ ih => rw [undeclaredOf_cons_other _ htext, ih]

/-- The list is exact. -/
theorem lists_iff {fields : List String} :
    spec.undeclaredFields topic = fields ↔
      spec.Lists topic (spec.headerEntries topic) fields := by
  rw [undeclaredFields_eq]
  constructor
  · rintro rfl
    exact lists_undeclaredOf _
  · exact Lists.eq_undeclaredOf

theorem mem_undeclaredFields_iff {field : String} :
    field ∈ spec.undeclaredFields topic ↔
      (∃ name, (name, Template.ofField field) ∈ spec.headerEntries topic) ∧
      spec.Lacks topic field := by
  rw [undeclaredFields_eq, undeclaredOf, List.mem_filter, List.mem_filterMap, lacks_iff,
    ← declares_iff, Bool.not_eq_true, Bool.not_eq_true']
  refine and_congr ?_ Iff.rfl
  constructor
  · rintro ⟨⟨name, text⟩, hmem, htext⟩
    obtain rfl := referencedField?_eq_some_iff.mp htext
    exact ⟨name, hmem⟩
  · rintro ⟨name, hmem⟩
    exact ⟨_, hmem, referencedField?_ofField field⟩

theorem undeclaredFields_of_lacksHeaders (h : spec.LacksHeaders topic) :
    spec.undeclaredFields topic = [] := by
  rw [undeclaredFields_eq, headerEntries_eq_nil_iff.mpr h]
  rfl

end Listing

end Specification

section Predicting

variable (s : Surroundings) {spec : Specification} {topic name field : String}

/-- The header of a payload field is the text of the field. -/
theorem get?_resolveHeaders_ofField
    (h : (name, Template.ofField field) ∈ spec.headerEntries topic)
    (fields : Fields)
    (p : Progress) :
    (resolveHeaders s spec topic fields p).1.get? name = some (fieldText fields field) := by
  let templates : HeaderTemplates :=
    ⟨spec.headerEntries topic, spec.nodup_headerEntries topic⟩
  have hget : templates.get? name = some (Template.ofField field) :=
    (OrderedMap.get?_eq_some_iff templates name (Template.ofField field)).mpr h
  obtain ⟨q, hq⟩ := get?_evaluateAll s fields hget p
  rw [resolveTemplate_payloadField s fields (Template.parse_ofField field)] at hq
  rw [resolveHeaders_eq]
  exact hq

/-- A field that is not declared gives an empty header to a payload of declared fields. -/
theorem get?_resolveHeaders_of_lacks
    {fields : Fields}
    (hfields : ∀ f ∈ fields.names, spec.IsDeclared topic f)
    (hname : (name, Template.ofField field) ∈ spec.headerEntries topic)
    (hfield : spec.Lacks topic field)
    (p : Progress) :
    (resolveHeaders s spec topic fields p).1.get? name = some "" := by
  have habsent : fields.get? field = none := by
    rw [OrderedMap.get?, Pairs.lookup_eq_none_iff]
    exact fun hmem => Specification.lacks_iff.mp hfield (hfields field hmem)
  rw [get?_resolveHeaders_ofField s hname, fieldText, habsent]
  rfl

/-- When all fields are declared, a payload with the declared fields has a field for each header
that takes one. -/
theorem get?_resolveHeaders_of_declared
    {fields : Fields}
    (hnone : spec.undeclaredFields topic = [])
    (hfields : ∀ f, spec.IsDeclared topic f → f ∈ fields.names)
    (hname : (name, Template.ofField field) ∈ spec.headerEntries topic)
    (p : Progress) :
    ∃ value,
      fields.get? field = some value ∧
      (resolveHeaders s spec topic fields p).1.get? name = some value.headerText := by
  have hdeclared : spec.IsDeclared topic field := by
    by_contra hlacks
    have hlisted : field ∈ spec.undeclaredFields topic :=
      Specification.mem_undeclaredFields_iff.mpr ⟨⟨name, hname⟩, Specification.lacks_iff.mpr hlacks⟩
    rw [hnone] at hlisted
    exact List.not_mem_nil hlisted
  cases hvalue : fields.get? field with
  | none => exact absurd (hfields field hdeclared) (Pairs.lookup_eq_none_iff.mp hvalue)
  | some value =>
      refine ⟨value, rfl, ?_⟩
      rw [get?_resolveHeaders_ofField s hname, fieldText, hvalue]
      rfl

end Predicting

/-- Adds declarations to the properties of a payload. -/
def PayloadSchema.declare
    (ps : List (String × Property))
    (payload : PayloadSchema) :
    PayloadSchema :=
  { payload with properties := payload.properties.insertAll ps }

/-- Adds declarations to the payload of a message, when it has one. -/
def MessageSchema.declare
    (ps : List (String × Property))
    (schema : MessageSchema) :
    MessageSchema :=
  ⟨schema.payload.map (PayloadSchema.declare ps)⟩

namespace Specification

section Editing

variable (ps : List (String × Property))

/-- Adds declarations to the message of a topic: in place, or in the component that the topic
points to. -/
def declare
    (spec : Specification)
    (topic : String) :
    Specification :=
  match spec.publishedMessage? topic with
  | none => spec
  | some (.inline schema) =>
      let headers := (spec.channel? topic).bind Channel.headers
      { spec with
        channels :=
          spec.channels.insert topic ⟨some ⟨some (.inline (schema.declare ps))⟩, headers⟩ }
  | some (.reference pointer) =>
      match Text.after? pointerStem pointer with
      | none => spec
      | some name =>
          match spec.messages.get? name with
          | none => spec
          | some schema =>
              { spec with messages := spec.messages.insert name (schema.declare ps) }

/-- Two topics share a message when they are the same topic, or have the same pointer. -/
def SharesMessage
    (spec : Specification)
    (topic topic' : String) :
    Prop :=
  topic' = topic ∨
  ∃ pointer,
    spec.messagePointer? topic = some pointer ∧
    spec.messagePointer? topic' = some pointer

variable {spec : Specification} {topic : String}

/-- A topic without pointer shares its message with no other topic. -/
theorem SharesMessage.eq_topic
    {topic' : String}
    (h : spec.SharesMessage topic topic')
    (hmessage : ∀ pointer, spec.publishedMessage? topic ≠ some (.reference pointer)) :
    topic' = topic := by
  obtain he | ⟨pointer, hpointer, -⟩ := h
  · exact he
  · exact absurd (messagePointer?_eq_some_iff.mp hpointer) (hmessage pointer)

theorem SharesMessage.reference
    {topic' pointer : String}
    (h : spec.SharesMessage topic topic')
    (hmessage : spec.publishedMessage? topic = some (.reference pointer)) :
    spec.publishedMessage? topic' = some (.reference pointer) := by
  obtain rfl | ⟨pointer', hpointer, hpointer'⟩ := h
  · exact hmessage
  · rw [messagePointer?_eq_some_iff] at hpointer hpointer'
    rw [hpointer', ← hpointer, hmessage]

theorem messageSchema?_congr
    {spec' : Specification}
    {topic' : String}
    (hmessage : spec'.publishedMessage? topic' = spec.publishedMessage? topic')
    (hcomponent : ∀ pointer, spec.publishedMessage? topic' = some (.reference pointer) →
      spec'.component? pointer = spec.component? pointer) :
    spec'.messageSchema? topic' = spec.messageSchema? topic' := by
  rw [messageSchema?, messageSchema?, hmessage]
  split
  · rfl
  · rfl
  · rename_i pointer hpointer
    exact hcomponent pointer hpointer

section InPlace

variable {schema : MessageSchema} (h : spec.publishedMessage? topic = some (.inline schema))
include h

theorem declare_inline :
    let headers := (spec.channel? topic).bind Channel.headers
    let channel : Channel := ⟨some ⟨some (.inline (schema.declare ps))⟩, headers⟩
    spec.declare ps topic = { spec with channels := spec.channels.insert topic channel } := by
  rw [declare, h]

theorem publishedMessage?_declare_inline (topic' : String) :
    (spec.declare ps topic).publishedMessage? topic' =
      if topic = topic' then some (.inline (schema.declare ps))
      else spec.publishedMessage? topic' := by
  rw [declare_inline ps h, publishedMessage?, channel?, SortedMap.get?_insert]
  by_cases he : topic = topic'
  · rw [if_pos he, if_pos he]
    rfl
  · rw [if_neg he, if_neg he]
    rfl

theorem headers_declare_inline (topic' : String) :
    ((spec.declare ps topic).channel? topic').bind Channel.headers =
      (spec.channel? topic').bind Channel.headers := by
  rw [declare_inline ps h, channel?, SortedMap.get?_insert]
  by_cases he : topic = topic'
  · rw [if_pos he, ← he]
    rfl
  · rw [if_neg he]
    rfl

end InPlace

section ByPointer

variable {pointer : String} (h : spec.publishedMessage? topic = some (.reference pointer))
include h

/-- Behind a pointer, declarations are added to one component or to none. -/
theorem declare_reference_cases :
    (spec.component? pointer = none ∧ spec.declare ps topic = spec) ∨
    ∃ name schema,
      pointer = pointerStem ++ name ∧
      spec.component? pointer = some schema ∧
      spec.declare ps topic =
        { spec with messages := spec.messages.insert name (schema.declare ps) } := by
  simp only [declare, h, component?]
  cases hname : Text.after? pointerStem pointer with
  | none => exact Or.inl ⟨rfl, rfl⟩
  | some name =>
      simp only [Option.bind_some]
      cases hschema : spec.messages.get? name with
      | none => exact Or.inl ⟨rfl, rfl⟩
      | some schema => exact Or.inr ⟨name, schema, Text.after?_eq_some_iff.mp hname, rfl, rfl⟩

theorem channels_declare_reference : (spec.declare ps topic).channels = spec.channels := by
  obtain ⟨-, hspec⟩ | ⟨name, schema, -, -, hspec⟩ := declare_reference_cases ps h
  · rw [hspec]
  · rw [hspec]

theorem component?_declare_reference (pointer' : String) :
    (spec.declare ps topic).component? pointer' =
      if pointer' = pointer then (spec.component? pointer).map (MessageSchema.declare ps)
      else spec.component? pointer' := by
  obtain ⟨hnone, hspec⟩ | ⟨name, schema, rfl, hschema, hspec⟩ := declare_reference_cases ps h
  · rw [hspec, hnone]
    split
    · rename_i he
      rw [he, hnone]
      rfl
    · rfl
  · rw [hspec, hschema, component?, component?]
    by_cases he : pointer' = pointerStem ++ name
    · have hafter : Text.after? pointerStem pointer' = some name := Text.after?_eq_some_iff.mpr he
      rw [if_pos he, hafter, Option.bind_some, SortedMap.get?_insert, if_pos rfl]
      rfl
    · rw [if_neg he]
      -- Another pointer has another name, or does not name a component at all.
      refine Option.bind_congr ?_
      intro name' hname'
      have hne : name ≠ name' := by
        rintro rfl
        exact he (Text.after?_eq_some_iff.mp hname')
      rw [SortedMap.get?_insert, if_neg hne]

end ByPointer

section Schemas

/-- No declaration changes the headers of a topic. -/
theorem headers_declare
    (spec : Specification)
    (topic topic' : String) :
    ((spec.declare ps topic).channel? topic').bind Channel.headers =
      (spec.channel? topic').bind Channel.headers := by
  cases hmessage : spec.publishedMessage? topic with
  | none => rw [declare, hmessage]
  | some message =>
      cases message with
      | inline schema => exact headers_declare_inline ps hmessage topic'
      | reference pointer => rw [channel?, channels_declare_reference ps hmessage, channel?]

/-- A topic that shares the message has its schema with the added declarations. -/
theorem messageSchema?_declare_of_shares
    {topic' : String}
    (h : spec.SharesMessage topic topic') :
    (spec.declare ps topic).messageSchema? topic' =
      (spec.messageSchema? topic').map (MessageSchema.declare ps) := by
  cases hmessage : spec.publishedMessage? topic with
  | none =>
      obtain rfl := h.eq_topic (by simp [hmessage])
      rw [declare, hmessage, messageSchema?, hmessage]
      rfl
  | some message =>
      cases message with
      | inline schema =>
          obtain rfl := h.eq_topic (by simp [hmessage])
          have hdeclared := publishedMessage?_declare_inline ps hmessage topic'
          rw [if_pos rfl] at hdeclared
          rw [messageSchema?_inline hdeclared, messageSchema?_inline hmessage]
          rfl
      | reference pointer =>
          have hmessage' := h.reference hmessage
          have hdeclared :
              (spec.declare ps topic).publishedMessage? topic' = some (.reference pointer) := by
            rw [publishedMessage?, channel?, channels_declare_reference ps hmessage]
            exact hmessage'
          rw [messageSchema?_reference hdeclared, component?_declare_reference ps hmessage,
            if_pos rfl, messageSchema?_reference hmessage']

theorem messageSchema?_declare_of_not_shares
    {topic' : String}
    (h : ¬ spec.SharesMessage topic topic') :
    (spec.declare ps topic).messageSchema? topic' = spec.messageSchema? topic' := by
  obtain ⟨hne, hpointers⟩ := not_or.mp h
  cases hmessage : spec.publishedMessage? topic with
  | none => rw [declare, hmessage]
  | some message =>
      cases message with
      | inline schema =>
          refine messageSchema?_congr ?_ ?_
          · rw [publishedMessage?_declare_inline ps hmessage, if_neg (Ne.symm hne)]
          · intro pointer _
            rw [declare_inline ps hmessage]
            rfl
      | reference pointer =>
          refine messageSchema?_congr ?_ ?_
          · rw [publishedMessage?, channel?, channels_declare_reference ps hmessage]
            rfl
          · intro pointer' hmessage'
            have hother : pointer' ≠ pointer := by
              rintro rfl
              refine hpointers ⟨pointer', ?_, ?_⟩
              · exact messagePointer?_eq_some_iff.mpr hmessage
              · exact messagePointer?_eq_some_iff.mpr hmessage'
            rw [component?_declare_reference ps hmessage, if_neg hother]

end Schemas

section Lists

theorem headerEntries_declare
    (spec : Specification)
    (topic topic' : String) :
    (spec.declare ps topic).headerEntries topic' = spec.headerEntries topic' := by
  rw [headerEntries, headerEntries, headers_declare]

theorem mem_names_declare_iff
    (payload : PayloadSchema)
    (field : String) :
    field ∈ (payload.declare ps).properties.names ↔
      field ∈ payload.properties.names ∨ field ∈ Pairs.names ps := by
  rw [PayloadSchema.declare, SortedMap.mem_names_iff, SortedMap.get?_insertAll, Option.isSome_or,
    Bool.or_eq_true, Pairs.last?_isSome_iff, or_comm, SortedMap.mem_names_iff]

theorem messageSchema?_of_shares
    {topic' : String}
    (h : spec.SharesMessage topic topic') :
    spec.messageSchema? topic' = spec.messageSchema? topic := by
  obtain rfl | ⟨pointer, hpointer, hpointer'⟩ := h
  · rfl
  · rw [messagePointer?_eq_some_iff] at hpointer hpointer'
    rw [messageSchema?_reference hpointer, messageSchema?_reference hpointer']

/-- The added declarations are the only ones that a sharing topic has more. -/
theorem isDeclared_declare_iff
    {schema : MessageSchema}
    {payload : PayloadSchema}
    (hschema : spec.messageSchema? topic = some schema)
    (hpayload : schema.payload = some payload)
    {topic' : String}
    (h : spec.SharesMessage topic topic')
    (field : String) :
    (spec.declare ps topic).IsDeclared topic' field ↔
      spec.IsDeclared topic' field ∨ field ∈ Pairs.names ps := by
  have hbefore : spec.messageSchema? topic' = some schema :=
    (messageSchema?_of_shares h).trans hschema
  have hafter : (spec.declare ps topic).messageSchema? topic' = some (schema.declare ps) := by
    rw [messageSchema?_declare_of_shares ps h, hbefore]
    rfl
  have hpayload' : (schema.declare ps).payload = some (payload.declare ps) := by
    rw [MessageSchema.declare, hpayload]
    rfl
  simp [IsDeclared, hbefore, hafter, hpayload, hpayload', mem_names_declare_iff]

/-- A sharing topic no longer lists the fields that were declared. -/
theorem undeclaredFields_declare_of_shares
    {schema : MessageSchema}
    {payload : PayloadSchema}
    (hschema : spec.messageSchema? topic = some schema)
    (hpayload : schema.payload = some payload)
    {topic' : String}
    (h : spec.SharesMessage topic topic') :
    (spec.declare ps topic).undeclaredFields topic' =
      (spec.undeclaredFields topic').filter (· ∉ Pairs.names ps) := by
  rw [undeclaredFields_eq, undeclaredFields_eq, headerEntries_declare, undeclaredOf, undeclaredOf,
    List.filter_filter]
  refine List.filter_congr ?_
  intro field _
  have hdeclares := isDeclared_declare_iff ps hschema hpayload h field
  rw [← declares_iff, ← declares_iff] at hdeclares
  rw [Bool.eq_iff_iff]
  simp [← Bool.not_eq_true, hdeclares, and_comm]

theorem undeclaredFields_declare_of_not_shares
    {topic' : String}
    (h : ¬ spec.SharesMessage topic topic') :
    (spec.declare ps topic).undeclaredFields topic' = spec.undeclaredFields topic' := by
  have hdeclares :
      (spec.declare ps topic).declares topic' = spec.declares topic' := by
    funext field
    rw [declares_eq, declares_eq, messageSchema?_declare_of_not_shares ps h]
  rw [undeclaredFields_eq, undeclaredFields_eq, headerEntries_declare, undeclaredOf, hdeclares,
    undeclaredOf]

theorem resolveHeaders_declare
    (s : Surroundings)
    (spec : Specification)
    (topic topic' : String)
    (fields : Fields) :
    resolveHeaders s (spec.declare ps topic) topic' fields =
      resolveHeaders s spec topic' fields := by
  rw [resolveHeaders, resolveHeaders, templates?, headers_declare, templates?]

end Lists

end Editing

/-- What is different when the fields on the list of a topic have been declared. -/
structure Completes
    (spec : Specification)
    (topic : String)
    (ps : List (String × Property))
    (spec' : Specification) :
    Prop where
  inPlace : ∀ schema,
    spec.publishedMessage? topic = some (.inline schema) →
    spec'.messages = spec.messages ∧
      spec'.publishedMessage? topic = some (.inline (schema.declare ps))
  inComponents : ∀ pointer,
    spec.publishedMessage? topic = some (.reference pointer) →
    spec'.channels = spec.channels
  complete : spec'.undeclaredFields topic = []
  headers : ∀ s topic' fields p,
    resolveHeaders s spec' topic' fields p = resolveHeaders s spec topic' fields p
  schemas : ∀ topic',
    spec.SharesMessage topic topic' →
    spec'.messageSchema? topic' = (spec.messageSchema? topic').map (MessageSchema.declare ps)
  declared : ∀ topic',
    spec.SharesMessage topic topic' →
    ∀ field,
      spec'.IsDeclared topic' field ↔
        spec.IsDeclared topic' field ∨ field ∈ spec.undeclaredFields topic
  shared : ∀ topic',
    spec.SharesMessage topic topic' →
    spec'.undeclaredFields topic' =
      (spec.undeclaredFields topic').filter (· ∉ spec.undeclaredFields topic)
  others : ∀ topic',
    ¬ spec.SharesMessage topic topic' →
    spec'.messageSchema? topic' = spec.messageSchema? topic' ∧
      spec'.undeclaredFields topic' = spec.undeclaredFields topic'

theorem completes_declare
    {spec : Specification}
    {topic : String}
    {schema : MessageSchema}
    {payload : PayloadSchema}
    (hschema : spec.messageSchema? topic = some schema)
    (hpayload : schema.payload = some payload)
    {ps : List (String × Property)}
    (hps : ∀ field, field ∈ Pairs.names ps ↔ field ∈ spec.undeclaredFields topic) :
    spec.Completes topic ps (spec.declare ps topic) := by
  have hshared : ∀ topic', spec.SharesMessage topic topic' →
      (spec.declare ps topic).undeclaredFields topic' =
        (spec.undeclaredFields topic').filter (· ∉ spec.undeclaredFields topic) := by
    intro topic' h
    simp only [undeclaredFields_declare_of_shares ps hschema hpayload h, hps]
  refine ⟨?_, fun _ => channels_declare_reference ps, ?_, ?_,
    fun _ => messageSchema?_declare_of_shares ps, ?_, hshared, ?_⟩
  · intro schema hmessage
    have hmessage' := publishedMessage?_declare_inline ps hmessage topic
    rw [if_pos rfl] at hmessage'
    refine ⟨?_, hmessage'⟩
    rw [declare_inline ps hmessage]
  · rw [hshared topic (Or.inl rfl)]
    simp
  · intro s topic' fields p
    rw [resolveHeaders_declare]
  · intro topic' h field
    rw [isDeclared_declare_iff ps hschema hpayload h, hps]
  · intro topic' h
    exact ⟨messageSchema?_declare_of_not_shares ps h, undeclaredFields_declare_of_not_shares ps h⟩

/-- The list of undeclared fields is exact.  It predicts which headers are empty for payloads of
declared fields, and when its fields are declared, nothing is listed any more and no header
changes. -/
theorem undeclaredFields_predict
    (spec : Specification)
    (topic : String) :
    (∀ listed,
      spec.undeclaredFields topic = listed ↔
        spec.Lists topic (spec.headerEntries topic) listed) ∧
    (spec.LacksHeaders topic → spec.undeclaredFields topic = []) ∧
    (∀ (s : Surroundings) (fields : Fields) (p : Progress),
      let resolved := (resolveHeaders s spec topic fields p).1
      ((∀ field ∈ fields.names, spec.IsDeclared topic field) →
        ∀ name field,
          (name, Template.ofField field) ∈ spec.headerEntries topic →
          field ∈ spec.undeclaredFields topic →
          resolved.get? name = some "") ∧
      (spec.undeclaredFields topic = [] →
        (∀ field, spec.IsDeclared topic field → field ∈ fields.names) →
        ∀ name field,
          (name, Template.ofField field) ∈ spec.headerEntries topic →
          ∃ value,
            fields.get? field = some value ∧
            resolved.get? name = some value.headerText)) ∧
    ∀ schema payload ps,
      spec.messageSchema? topic = some schema →
      schema.payload = some payload →
      (∀ field, field ∈ Pairs.names ps ↔ field ∈ spec.undeclaredFields topic) →
      spec.Completes topic ps (spec.declare ps topic) := by
  refine ⟨fun _ => lists_iff, undeclaredFields_of_lacksHeaders, ?_, ?_⟩
  · intro s fields p resolved
    constructor
    · intro hfields name field hname hfield
      have hlacks : spec.Lacks topic field := (mem_undeclaredFields_iff.mp hfield).2
      exact get?_resolveHeaders_of_lacks s hfields hname hlacks p
    · intro hnone hfields name field hname
      exact get?_resolveHeaders_of_declared s hnone hfields hname p
  · intro schema payload ps hschema hpayload hps
    exact completes_declare hschema hpayload hps

/-- A field that two headers take is listed twice, until it is declared in the component that a
second topic shares. -/
theorem undeclaredFields_predict_orders :
    let orders : HeaderTemplates := .ofList
      [("x-id", "${message.payload.id}"), ("x-note", "${message.payload.note}"),
        ("x-trace", "${uuid()}"), ("x-copy", "${message.payload.note}")]
    let bills : HeaderTemplates := .ofList
      [("x-due", "${message.payload.due}"), ("x-note", "${message.payload.note}")]
    let order : Publication := ⟨some (.reference "#/components/messages/Order")⟩
    let payload : PayloadSchema := ⟨some "object", .ofList [("id", ⟨some "string"⟩)]⟩
    let spec : Specification :=
      ⟨none, none,
        .ofList [("orders", ⟨some order, some orders⟩), ("bills", ⟨some order, some bills⟩)],
        .ofList [("Order", ⟨some payload⟩)]⟩
    let ps : List (String × Property) := [("note", ⟨none⟩)]
    let spec' := spec.declare ps "orders"
    let fields : Fields := .ofList [("id", .text "7")]
    let fields' : Fields := .ofList [("note", .bool true), ("id", .text "7")]
    spec.Lists "orders" (spec.headerEntries "orders") ["note", "note"] ∧
      spec.undeclaredFields "notes" = [] ∧
      spec'.undeclaredFields "bills" = ["due"] ∧
      ∀ (s : Surroundings) (p : Progress),
        (resolveHeaders s spec "orders" fields p).1.get? "x-copy" = some "" ∧
        (resolveHeaders s spec' "orders" fields' p).1.get? "x-copy" = some "true" ∧
        resolveHeaders s spec' "bills" fields p = resolveHeaders s spec "bills" fields p := by
  intro orders bills order payload spec ps spec' fields fields'
  have hschema : spec.messageSchema? "orders" = some ⟨some payload⟩ := by rfl
  have hlisted : spec.undeclaredFields "orders" = ["note", "note"] := by rfl
  have hbills : spec.undeclaredFields "bills" = ["due", "note"] := by rfl
  have hnotes : spec.LacksHeaders "notes" := by decide
  have hcopy : ("x-copy", Template.ofField "note") ∈ spec.headerEntries "orders" := by decide
  have hdeclared : ∀ field, spec.IsDeclared "orders" field ↔ field = "id" := by
    intro field
    have hnames : payload.properties.names = ["id"] := by rfl
    rw [IsDeclared, hschema]
    simp [hnames]
  obtain ⟨hlists, -, hresolve, hdeclare⟩ := undeclaredFields_predict spec "orders"
  obtain ⟨-, hlacks, -, -⟩ := undeclaredFields_predict spec "notes"
  obtain ⟨-, -, hresolve', -⟩ := undeclaredFields_predict spec' "orders"
  have hcompletes : spec.Completes "orders" ps spec' := by
    refine hdeclare ⟨some payload⟩ payload ps hschema rfl ?_
    intro field
    rw [hlisted]
    simp [ps, Pairs.names]
  refine ⟨(hlists _).mp hlisted, hlacks hnotes, ?_, ?_⟩
  · rw [hcompletes.shared "bills" (Or.inr ⟨_, rfl, rfl⟩), hbills, hlisted]
    rfl
  · intro s p
    refine ⟨?_, ?_, hcompletes.headers s "bills" fields p⟩
    · refine (hresolve s fields p).1 ?_ "x-copy" "note" hcopy ?_
      · have hnames : fields.names = ["id"] := by rfl
        simp [hnames, hdeclared]
      · simp [hlisted]
    · have hdeclared' : ∀ field, spec'.IsDeclared "orders" field → field ∈ fields'.names := by
        have hnames : fields'.names = ["note", "id"] := by rfl
        intro field hfield
        rw [hcompletes.declared "orders" (Or.inl rfl), hdeclared, hlisted] at hfield
        simpa [hnames, or_comm] using hfield
      have hcopy' : ("x-copy", Template.ofField "note") ∈ spec'.headerEntries "orders" := by
        rw [headerEntries_declare]
        exact hcopy
      obtain ⟨value, hvalue, hget⟩ :=
        (hresolve' s fields' p).2 hcompletes.complete hdeclared' "x-copy" "note" hcopy'
      obtain rfl : Value.bool true = value := Option.some.inj hvalue
      exact hget

end Specification

end ChannelHeaders
