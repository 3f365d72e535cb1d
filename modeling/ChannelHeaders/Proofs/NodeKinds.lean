import Mathlib.Data.List.Forall2
import ChannelHeaders.Proofs.ReadingSteps

/-!
# The kinds of nodes of a specification document

Where a node stands in a document decides what is read of it.  This module names the
possibilities as the kinds of a node.  A mapping of some kinds has known fields, a mapping
of some others is keyed by free names, and the kind of a mapping and the key of an entry
give the kind of the entry's value.

What is read of a node is the answer of its kind.  An absent field is read like null at
all kinds, so answers are given to nodes only.  A mapping is read through the answers to
its known fields or to its values, and through nothing else, which is all that a change to
a document has to respect.

**Results.**
* `answer_tagged`: tags are looked through at every kind.
* `answer_congr_fields`, `answer_congr_named`: what decides the answer to a mapping.
-/

namespace ChannelHeaders
namespace Specification

open Document

section Kinds

/-- The kinds of nodes of a document, by what is read of them. -/
inductive Kind where
  | document
  | info
  | channels
  | channel
  | publication
  | publishedMessage
  | headers
  | template
  | components
  | messages
  | message
  | payload
  | properties
  | property
  /-- A text for information, or the pointer of a published message. -/
  | text
  /-- A node that is not looked at. -/
  | unread
deriving DecidableEq

namespace Kind

/-- The known fields of a mapping of this kind, with the kinds of their values. -/
def fields : Kind → List (String × Kind)
  | document =>
      [("asyncapi", text), ("info", info), ("channels", channels), ("components", components)]
  | info => [("title", text), ("version", text), ("description", text)]
  | channel => [("publish", publication), ("x-headers", headers)]
  | publication => [("message", publishedMessage)]
  | publishedMessage => [("$ref", text), ("payload", payload)]
  | components => [("messages", messages)]
  | message => [("payload", payload)]
  | payload => [("type", text), ("properties", properties)]
  | property => [("type", text)]
  | _ => []

/-- The kind of the values of a mapping that is keyed by free names. -/
def element? : Kind → Option Kind
  | channels => some channel
  | headers => some template
  | messages => some message
  | properties => some property
  | _ => none

/-- The kind of a known field; other fields are not looked at. -/
def fieldKind
    (k : Kind)
    (name : String) :
    Kind :=
  (Pairs.lookup name k.fields).getD unread

/-- The kind of the value under a key in a mapping of this kind. -/
def under
    (k : Kind)
    (key : Tree) :
    Kind :=
  match k.element?, key with
  | some e, _ => e
  | none, .text name => k.fieldKind name
  | none, _ => unread

/-- A mapping has known fields or is keyed by free names, never both. -/
theorem element?_of_field
    {k f : Kind}
    {name : String}
    (h : Pairs.lookup name k.fields = some f) :
    k.element? = none := by
  cases k with
  | channels => simp [fields, Pairs.lookup] at h
  | headers => simp [fields, Pairs.lookup] at h
  | messages => simp [fields, Pairs.lookup] at h
  | properties => simp [fields, Pairs.lookup] at h
  | _ => rfl

theorem under_of_element
    {k e : Kind}
    (h : k.element? = some e)
    (key : Tree) :
    k.under key = e := by
  simp [under, h]

theorem under_text
    {k : Kind}
    (h : k.element? = none)
    (name : String) :
    k.under (.text name) = k.fieldKind name := by
  simp [under, h]

end Kind

end Kinds

section Answers

/-- What reading a node of this kind gives. -/
def Kind.Answer : Kind → Type
  | document => Shaped Specification
  | info => Place → Shaped (Option Info)
  | channels => Shaped (SortedMap Channel)
  | channel => Place → Shaped Channel
  | publication => Place → Shaped (Option Publication)
  | publishedMessage => Place → Shaped (Option PublishedMessage)
  | headers => Place → Shaped (Option HeaderTemplates)
  | template => Place → Shaped String
  | components => Shaped (SortedMap MessageSchema)
  | messages => Place → Shaped (List (String × MessageSchema))
  | message => Place → Shaped MessageSchema
  | payload => Place → Shaped (Option PayloadSchema)
  | properties => Place → Shaped (List (String × Property))
  | property => Place → Shaped Property
  | text => Option String
  | unread => Unit

/-- The entries of a section under free names. -/
def readNamed
    {α : Type}
    (read : Place → String → Tree → Shaped α)
    (t : Tree)
    (place : Place) :
    Shaped (List (String × α)) := do
  let es ← readSection place (some t)
  readEntries place (read place) (es.getD [])

/-- Reads a node as a node of this kind. -/
def Kind.answer : (k : Kind) → Tree → k.Answer
  | document => ofTree
  | info => fun t place => do
      let es ← readSection place (some t)
      return es.map readInfo
  | channels => fun t => readChannels (some t)
  | channel => fun t place => readChannel place t
  | publication => fun t place => readPublication place (some t)
  | publishedMessage => fun t place => readPublishedMessage place (some t)
  | headers => fun t place => readHeaders place (some t)
  | template => fun t place => readTemplate place t
  | components => fun t => readComponents (some t)
  | messages => readNamed fun here name => readComponent (.entry name :: here)
  | message => fun t place => readComponent place t
  | payload => fun t place => do
      match ← readSection place (some t) with
      | none => return none
      | some es => return some (← readPayload place es)
  | properties => readNamed fun here name => readProperty (.field name :: here)
  | property => fun t place => readProperty place t
  | text => fun t => readText (some t)
  | unread => fun _ => ()

/-- The value of a field, or null in its place. -/
def fieldOrNull
    (name : String)
    (es : Entries) :
    Tree :=
  (Tree.field? name es).getD .null

/-- An absent field reads like null. -/
theorem readSection_field
    (place : Place)
    (name : String)
    (es : Entries) :
    readSection place (Tree.field? name es) = readSection place (some (fieldOrNull name es)) := by
  rw [fieldOrNull]
  cases Tree.field? name es <;> rfl

theorem readText_field
    (name : String)
    (es : Entries) :
    readText (Tree.field? name es) = Kind.text.answer (fieldOrNull name es) := by
  rw [fieldOrNull]
  cases Tree.field? name es <;> rfl

end Answers

section Mappings

theorem readProperty_mapping
    (place : Place)
    (es : Entries) :
    readProperty place (.mapping es) = .ok ⟨Kind.text.answer (fieldOrNull "type" es)⟩ := by
  rw [readProperty, readSection_mapping rfl, ok_bind, Option.bind_some, readText_field]
  rfl

/-- A payload is read through its type and its properties only. -/
theorem readPayload_eq
    (place : Place)
    (es : Entries) :
    readPayload place es = (do
      let properties ← Kind.properties.answer (fieldOrNull "properties" es)
        (.field "properties" :: place)
      return ⟨Kind.text.answer (fieldOrNull "type" es), .ofList properties⟩) := by
  simp only [readPayload, readSection_field, readText_field, Kind.answer, readNamed, bind_assoc]

theorem readMessage_eq
    (place : Place)
    (es : Entries) :
    readMessage place es = (do
      let payload ← Kind.payload.answer (fieldOrNull "payload" es) (.field "payload" :: place)
      return ⟨payload⟩) := by
  rw [readMessage, readSection_field, Kind.answer, bind_assoc]
  refine congrArg _ (funext fun payload => ?_)
  cases payload with
  | none => rfl
  | some es => simp only [bind_assoc, pure_bind]

theorem readPublishedMessage_mapping
    (place : Place)
    (es : Entries) :
    readPublishedMessage place (some (.mapping es)) = (do
      match Kind.text.answer (fieldOrNull "$ref" es) with
      | some pointer => return some (.reference pointer)
      | none => return some (.inline (← readMessage place es))) := by
  rw [readPublishedMessage, readSection_mapping rfl, ok_bind]
  simp only [readText_field]
  rfl

theorem readPublication_mapping
    (place : Place)
    (es : Entries) :
    readPublication place (some (.mapping es)) = (do
      let message ← Kind.publishedMessage.answer (fieldOrNull "message" es)
        (.field "message" :: place)
      return some ⟨message⟩) := by
  have hmessage :
      readPublishedMessage (.field "message" :: place) (Tree.field? "message" es) =
        Kind.publishedMessage.answer (fieldOrNull "message" es) (.field "message" :: place) := by
    rw [readPublishedMessage, readSection_field]
    rfl
  rw [readPublication, readSection_mapping rfl, ok_bind]
  simp only [hmessage]

/-- A channel is read through its publication and its headers only. -/
theorem readChannel_mapping
    (place : Place)
    (es : Entries) :
    readChannel place (.mapping es) = (do
      let publication ← Kind.publication.answer (fieldOrNull "publish" es)
        (.field "publish" :: place)
      let headers ← Kind.headers.answer (fieldOrNull "x-headers" es)
        (.field "x-headers" :: place)
      return ⟨publication, headers⟩) := by
  have hpublication :
      readPublication (.field "publish" :: place) (Tree.field? "publish" es) =
        Kind.publication.answer (fieldOrNull "publish" es) (.field "publish" :: place) := by
    rw [readPublication, readSection_field]
    rfl
  have hheaders :
      readHeaders (.field "x-headers" :: place) (Tree.field? "x-headers" es) =
        Kind.headers.answer (fieldOrNull "x-headers" es) (.field "x-headers" :: place) := by
    rw [readHeaders, readSection_field]
    rfl
  rw [readChannel, readSection_mapping rfl, ok_bind]
  simp only [hpublication, hheaders]

theorem readHeaders_mapping
    (place : Place)
    (es : Entries) :
    readHeaders place (some (.mapping es)) = (do
      let templates ← readEntries place (fun name => readTemplate (.field name :: place)) es
      return some (.ofList templates)) := by
  rw [readHeaders, readSection_mapping rfl, ok_bind]

theorem readChannels_mapping (es : Entries) :
    readChannels (some (.mapping es)) = (do
      let channels ← readEntries [.field "channels"]
        (fun topic => readChannel [.entry topic, .field "channels"]) es
      return .ofList channels) := by
  rw [readChannels, readSection_mapping rfl, ok_bind, Option.getD_some]

theorem readComponents_mapping (es : Entries) :
    readComponents (some (.mapping es)) = (do
      let messages ← Kind.messages.answer (fieldOrNull "messages" es)
        [.field "messages", .field "components"]
      return .ofList messages) := by
  rw [readComponents, readSection_mapping rfl, ok_bind, Option.getD_some]
  simp only [readSection_field, Kind.answer, readNamed, bind_assoc]

theorem readInfo_eq (es : Entries) :
    readInfo es =
      ⟨Kind.text.answer (fieldOrNull "title" es), Kind.text.answer (fieldOrNull "version" es),
        Kind.text.answer (fieldOrNull "description" es)⟩ := by
  simp only [readInfo, readText_field]

/-- A document is read through four fields only. -/
theorem ofEntries_eq (es : Entries) :
    ofEntries es = (do
      let info ← Kind.info.answer (fieldOrNull "info" es) [.field "info"]
      let channels ← Kind.channels.answer (fieldOrNull "channels" es)
      let messages ← Kind.components.answer (fieldOrNull "components" es)
      return ⟨Kind.text.answer (fieldOrNull "asyncapi" es), info, channels, messages⟩) := by
  have hchannels :
      readChannels (Tree.field? "channels" es) =
        Kind.channels.answer (fieldOrNull "channels" es) := by
    rw [readChannels, readSection_field]
    rfl
  have hcomponents :
      readComponents (Tree.field? "components" es) =
        Kind.components.answer (fieldOrNull "components" es) := by
    rw [readComponents, readSection_field]
    rfl
  simp only [ofEntries, readSection_field, readText_field, hchannels, hcomponents]
  rw [Kind.answer, bind_assoc]
  rfl

/-- A mapping is read through its known fields. -/
theorem answer_congr_fields
    {k : Kind}
    (hk : k.element? = none)
    {es es' : Entries}
    (h : ∀ name f, Pairs.lookup name k.fields = some f →
      f.answer (fieldOrNull name es) = f.answer (fieldOrNull name es')) :
    k.answer (.mapping es) = k.answer (.mapping es') := by
  cases k with
  | document =>
      have hread : ofEntries es = ofEntries es' := by
        rw [ofEntries_eq, ofEntries_eq, h "asyncapi" .text rfl, h "info" .info rfl,
          h "channels" .channels rfl, h "components" .components rfl]
      exact hread
  | info =>
      have hread : readInfo es = readInfo es' := by
        rw [readInfo_eq, readInfo_eq, h "title" .text rfl, h "version" .text rfl,
          h "description" .text rfl]
      exact funext fun place => congrArg (fun i => Except.ok (some i)) hread
  | channel =>
      have hread : ∀ place,
          readChannel place (.mapping es) = readChannel place (.mapping es') := by
        intro place
        rw [readChannel_mapping, readChannel_mapping, h "publish" .publication rfl,
          h "x-headers" .headers rfl]
      exact funext hread
  | publication =>
      have hread : ∀ place,
          readPublication place (some (.mapping es)) =
            readPublication place (some (.mapping es')) := by
        intro place
        rw [readPublication_mapping, readPublication_mapping,
          h "message" .publishedMessage rfl]
      exact funext hread
  | publishedMessage =>
      have hread : ∀ place,
          readPublishedMessage place (some (.mapping es)) =
            readPublishedMessage place (some (.mapping es')) := by
        intro place
        rw [readPublishedMessage_mapping, readPublishedMessage_mapping, readMessage_eq,
          readMessage_eq, h "$ref" .text rfl, h "payload" .payload rfl]
      exact funext hread
  | components =>
      have hread : readComponents (some (.mapping es)) = readComponents (some (.mapping es')) := by
        rw [readComponents_mapping, readComponents_mapping, h "messages" .messages rfl]
      exact hread
  | message =>
      have hread : ∀ place, readMessage place es = readMessage place es' := by
        intro place
        rw [readMessage_eq, readMessage_eq, h "payload" .payload rfl]
      exact funext hread
  | payload =>
      have hread : ∀ place, readPayload place es = readPayload place es' := by
        intro place
        rw [readPayload_eq, readPayload_eq, h "type" .text rfl, h "properties" .properties rfl]
      exact funext fun place => congrArg (fun r => r >>= fun p => pure (some p)) (hread place)
  | property =>
      have hread : ∀ place,
          readProperty place (.mapping es) = readProperty place (.mapping es') := by
        intro place
        rw [readProperty_mapping, readProperty_mapping, h "type" .text rfl]
      exact funext hread
  | channels => cases hk
  | headers => cases hk
  | messages => cases hk
  | properties => cases hk
  | template => rfl
  | text => rfl
  | unread => rfl

/-- Two mappings whose entries have the same key texts, and values with the same answers. -/
def SameNamed
    (f : Kind)
    (es es' : Entries) :
    Prop :=
  List.Forall₂ (fun e e' => e.1.scalar? = e'.1.scalar? ∧ f.answer e.2 = f.answer e'.2) es es'

/-- Entries with the same names and the same readings are read alike. -/
theorem readEntries_congr
    {α : Type}
    {f : Kind}
    {es es' : Entries}
    (h : SameNamed f es es')
    (place : Place)
    (read : String → Tree → Shaped α)
    (hread : ∀ name t t', f.answer t = f.answer t' → read name t = read name t') :
    readEntries place read es = readEntries place read es' := by
  induction h with
  | nil => rfl
  | @cons e e' es es' he hes ih =>
      have hname : readName place e.1 = readName place e'.1 := by
        rw [readName, readName, he.1]
      have hvalue : ∀ name, read name e.2 = read name e'.2 := by
        intro name
        exact hread name e.2 e'.2 he.2
      simp only [readEntries, hname, hvalue, ih]

/-- A mapping that is keyed by free names is read through the texts of its keys and its values. -/
theorem answer_congr_named
    {k f : Kind}
    (hk : k.element? = some f)
    {es es' : Entries}
    (h : SameNamed f es es') :
    k.answer (.mapping es) = k.answer (.mapping es') := by
  cases k with
  | channels =>
      obtain rfl := Option.some.inj hk
      have hentries := readEntries_congr h [.field "channels"]
        (fun topic => readChannel [.entry topic, .field "channels"])
        fun topic t t' ht => congrFun ht _
      have hread : readChannels (some (.mapping es)) = readChannels (some (.mapping es')) := by
        rw [readChannels_mapping, readChannels_mapping, hentries]
      exact hread
  | headers =>
      obtain rfl := Option.some.inj hk
      have hread : ∀ place,
          readHeaders place (some (.mapping es)) = readHeaders place (some (.mapping es')) := by
        intro place
        have hentries := readEntries_congr h place
          (fun name => readTemplate (.field name :: place))
          fun name t t' ht => congrFun ht _
        rw [readHeaders_mapping, readHeaders_mapping, hentries]
      exact funext hread
  | messages =>
      obtain rfl := Option.some.inj hk
      refine funext fun place => ?_
      exact readEntries_congr h place (fun name => readComponent (.entry name :: place))
        fun name t t' ht => congrFun ht _
  | properties =>
      obtain rfl := Option.some.inj hk
      refine funext fun place => ?_
      exact readEntries_congr h place (fun name => readProperty (.field name :: place))
        fun name t t' ht => congrFun ht _
  | _ => cases hk

end Mappings

section Nodes

/-- Tags are looked through. -/
theorem answer_tagged
    (k : Kind)
    (tag : String)
    (t : Tree) :
    k.answer (.tagged tag t) = k.answer t := by
  cases k <;> rfl

/-- A sequence is never what is expected. -/
theorem answer_sequence
    (k : Kind)
    (xs ys : List Tree) :
    k.answer (.sequence xs) = k.answer (.sequence ys) := by
  cases k <;> rfl

end Nodes

end Specification
end ChannelHeaders
