import Mathlib
import ChannelHeaders.Proofs.DocumentShape
import ChannelHeaders.Proofs.ReadingSteps

/-!
# Fields that are not known

A mapping with known fields may hold any other entries; they are passed over.  An entry is
unknown when its key is not the untagged text of a known field, whatever its value is, so
a known name behind a tag is unknown, and so is a key of another kind.  In a published
message with a pointer, every key but the pointer's is unknown.

One relation for each kind of node says that the second node is the first one with one
unknown entry more, at any depth.  The relations follow the shape of the document: a change
is made to the entries of a mapping, behind its tags, either by an entry that is put in
anywhere or by a change inside a known field or under a free name.  Insertions and removals
in any number, at any depths, are the equivalence that the relation for documents
generates.

Nothing is assumed of the shape of the document, so a report of a violation is kept as
well.

**Results.**
* `Adds.read_field`: a known field reads the same after one change.
* `readChannel_adds`, `readMessage_adds`: one channel and one message.
* `ofTree_adds`: one change anywhere in a document.
* `load_unknown_fields`: any number of changes.
-/

namespace ChannelHeaders
namespace Specification

open Document

section Changes

/-- A mapping with the given known fields, and with the changes that each of them allows, gets one
unknown entry, or changes inside one known field. -/
inductive Adds (fields : List (String × (Tree → Tree → Prop))) : Entries → Entries → Prop
  | entry
      (before after : Entries)
      {key : Tree}
      (value : Tree)
      (h : ∀ name ∈ Pairs.names fields, key ≠ .text name) :
      Adds fields (before ++ after) (before ++ (key, value) :: after)
  | field
      (before after : Entries)
      {name : String}
      {change : Tree → Tree → Prop}
      {t t' : Tree}
      (hname : Pairs.lookup name fields = some change)
      (h : change t t') :
      Adds fields (before ++ (.text name, t) :: after) (before ++ (.text name, t') :: after)

/-- A mapping that is keyed by free names changes under one of them. -/
inductive AddsUnder (change : Tree → Tree → Prop) : Entries → Entries → Prop
  | value
      (before after : Entries)
      (key : Tree)
      {t t' : Tree}
      (h : change t t') :
      AddsUnder change (before ++ (key, t) :: after) (before ++ (key, t') :: after)

/-- A mapping changes behind its tags. -/
inductive InMapping (change : Entries → Entries → Prop) : Tree → Tree → Prop
  | mapping
      {es es' : Entries}
      (h : change es es') :
      InMapping change (.mapping es) (.mapping es')
  | tagged
      (tag : String)
      {t t' : Tree}
      (h : InMapping change t t') :
      InMapping change (.tagged tag t) (.tagged tag t')

/-- A node that is no mapping with known fields. -/
def Fixed (_ _ : Tree) : Prop :=
  False

def AddsToProperty : Tree → Tree → Prop :=
  InMapping (Adds [("type", Fixed)])

def AddsToPayload : Tree → Tree → Prop :=
  InMapping (Adds [("type", Fixed), ("properties", InMapping (AddsUnder AddsToProperty))])

def AddsToMessage : Tree → Tree → Prop :=
  InMapping (Adds [("payload", AddsToPayload)])

/-- A published message with a pointer. -/
def HasPointer (es : Entries) : Prop :=
  ∃ t, Tree.field? "$ref" es = some t ∧ IsScalar t

/-- With a pointer, only the pointer is known. -/
def AddsToPublishedMessage : Tree → Tree → Prop :=
  InMapping fun es es' =>
    Adds [("$ref", Fixed), ("payload", AddsToPayload)] es es' ∨
      (HasPointer es ∧ Adds [("$ref", Fixed)] es es')

def AddsToPublication : Tree → Tree → Prop :=
  InMapping (Adds [("message", AddsToPublishedMessage)])

def AddsToChannel : Tree → Tree → Prop :=
  InMapping (Adds [("publish", AddsToPublication), ("x-headers", Fixed)])

def AddsToComponents : Tree → Tree → Prop :=
  InMapping (Adds [("messages", InMapping (AddsUnder AddsToMessage))])

def AddsToInfo : Tree → Tree → Prop :=
  InMapping (Adds [("title", Fixed), ("version", Fixed), ("description", Fixed)])

/-- The second document is the first one with one unknown entry more. -/
def AddsToDocument : Tree → Tree → Prop :=
  InMapping (Adds [("asyncapi", Fixed), ("info", AddsToInfo),
    ("channels", InMapping (AddsUnder AddsToChannel)), ("components", AddsToComponents)])

end Changes

section Steps

variable {α : Type}

/-- What is read of a known field is the same after a change, when a change inside the field does
not alter it. -/
theorem Adds.read_field
    {fields : List (String × (Tree → Tree → Prop))}
    {es es' : Entries}
    (h : Adds fields es es')
    {name : String}
    {change : Tree → Tree → Prop}
    (hname : Pairs.lookup name fields = some change)
    (read : Option Tree → α)
    (hread : ∀ t t', change t t' → read (some t) = read (some t')) :
    read (Tree.field? name es) = read (Tree.field? name es') := by
  cases h with
  | entry before after value hkey =>
      have hmem : name ∈ Pairs.names fields :=
        List.mem_map_of_mem (Pairs.mem_of_lookup hname)
      rw [field?_append, field?_append, field?_cons_of_ne (hkey name hmem)]
  | @field before after j change' t t' hj hchange =>
      rw [field?_append, field?_append]
      cases hbefore : Tree.field? name before with
      | some u => rfl
      | none =>
          rw [Option.none_or, Option.none_or]
          by_cases he : j = name
          · subst he
            rw [hj] at hname
            obtain rfl := Option.some.inj hname
            rw [field?_cons_self, field?_cons_self]
            exact hread t t' hchange
          · have hne : Tree.text j ≠ .text name := by
              intro heq
              exact he (Tree.text.inj heq)
            rw [field?_cons_of_ne hne, field?_cons_of_ne hne]

/-- A field in which nothing can change. -/
theorem Adds.read_fixed
    {fields : List (String × (Tree → Tree → Prop))}
    {es es' : Entries}
    (h : Adds fields es es')
    {name : String}
    (hname : Pairs.lookup name fields = some Fixed)
    (read : Option Tree → α) :
    read (Tree.field? name es) = read (Tree.field? name es') :=
  h.read_field hname read fun _ _ hchange => hchange.elim

theorem InMapping.exists_peel
    {change : Entries → Entries → Prop}
    {t t' : Tree}
    (h : InMapping change t t') :
    ∃ es es', t.peel = .mapping es ∧ t'.peel = .mapping es' ∧ change es es' := by
  induction h with
  | mapping h => exact ⟨_, _, rfl, rfl, h⟩
  | tagged tag h ih => exact ih

/-- A section reads the same when its entries do. -/
theorem InMapping.read_section
    {change : Entries → Entries → Prop}
    {t t' : Tree}
    (h : InMapping change t t')
    (place : Place)
    (read : Option Entries → Shaped α)
    (hread : ∀ es es', change es es' → read (some es) = read (some es')) :
    (readSection place (some t) >>= read) = (readSection place (some t') >>= read) := by
  obtain ⟨es, es', ht, ht', hchange⟩ := h.exists_peel
  rw [readSection_mapping ht, readSection_mapping ht', ok_bind, ok_bind]
  exact hread es es' hchange

/-- Entries under free names read the same when the changed value does. -/
theorem AddsUnder.readEntries_eq
    {change : Tree → Tree → Prop}
    {es es' : Entries}
    (h : AddsUnder change es es')
    (place : Place)
    (read : String → Tree → Shaped α)
    (hread : ∀ name t t', change t t' → read name t = read name t') :
    readEntries place read es = readEntries place read es' := by
  rcases h with ⟨before, after, key, hchange⟩
  induction before with
  | nil =>
      rw [List.nil_append, List.nil_append, readEntries, readEntries]
      refine congrArg _ (funext fun name => ?_)
      rw [hread name _ _ hchange]
  | cons e before ih =>
      rcases e with ⟨j, value⟩
      rw [List.cons_append, List.cons_append, readEntries, readEntries, ih]

/-- A section that is keyed by free names reads the same when its values do. -/
theorem InMapping.read_named
    {β : Type}
    {change : Tree → Tree → Prop}
    {t t' : Tree}
    (h : InMapping (AddsUnder change) t t')
    (place : Place)
    (read : String → Tree → Shaped α)
    (hread : ∀ name t t', change t t' → read name t = read name t')
    (rest : List (String × α) → Shaped β) :
    (readSection place (some t) >>= fun es => readEntries place read (es.getD []) >>= rest) =
      readSection place (some t') >>= fun es => readEntries place read (es.getD []) >>= rest := by
  refine h.read_section place _ ?_
  intro es es' hes
  rw [Option.getD_some, Option.getD_some, hes.readEntries_eq place read hread]

end Steps

section Readings

theorem readProperty_adds
    {t t' : Tree}
    (h : AddsToProperty t t')
    (place : Place) :
    readProperty place t = readProperty place t' := by
  refine h.read_section place _ ?_
  intro es es' hes
  rw [Option.bind_some, Option.bind_some, hes.read_fixed rfl readText]

theorem readPayload_adds
    {es es' : Entries}
    (h : Adds [("type", Fixed), ("properties", InMapping (AddsUnder AddsToProperty))] es es')
    (place : Place) :
    readPayload place es = readPayload place es' := by
  rw [readPayload, readPayload, h.read_fixed rfl readText]
  refine h.read_field rfl (fun t => readSection _ t >>= _) ?_
  intro t t' ht
  refine ht.read_named _ _ ?_ _
  intro name property property' hchange
  exact readProperty_adds hchange _

theorem readMessage_adds
    {fields : List (String × (Tree → Tree → Prop))}
    {es es' : Entries}
    (h : Adds fields es es')
    (hpayload : Pairs.lookup "payload" fields = some AddsToPayload)
    (place : Place) :
    readMessage place es = readMessage place es' := by
  rw [readMessage, readMessage]
  refine h.read_field hpayload (fun t => readSection _ t >>= _) ?_
  intro t t' ht
  refine ht.read_section _ _ ?_
  intro payload payload' hes
  simp only [readPayload_adds hes]

theorem readComponent_adds
    {t t' : Tree}
    (h : AddsToMessage t t')
    (place : Place) :
    readComponent place t = readComponent place t' := by
  refine h.read_section place _ ?_
  intro es es' hes
  exact readMessage_adds hes rfl place

theorem readPublishedMessage_adds
    {t t' : Tree}
    (h : AddsToPublishedMessage t t')
    (place : Place) :
    readPublishedMessage place (some t) = readPublishedMessage place (some t') := by
  refine h.read_section place _ ?_
  intro es es' hes
  rcases hes with hes | ⟨⟨pointer, hpointer, hscalar⟩, hes⟩
  · have hmessage := readMessage_adds hes rfl place
    have hreference : readText (Tree.field? "$ref" es) = readText (Tree.field? "$ref" es') :=
      hes.read_fixed rfl readText
    simp only [hreference, hmessage]
  · -- The other fields may differ in every way, so the message must not be read at all.
    have hreference : Tree.field? "$ref" es' = some pointer := by
      rw [← hpointer]
      exact (hes.read_fixed rfl id).symm
    obtain ⟨s, hs⟩ := Option.isSome_iff_exists.mp (isScalar_iff.mp hscalar)
    simp only [hpointer, hreference, readText, Option.bind_some, hs]

theorem readPublication_adds
    {t t' : Tree}
    (h : AddsToPublication t t')
    (place : Place) :
    readPublication place (some t) = readPublication place (some t') := by
  refine h.read_section place _ ?_
  intro es es' hes
  have hmessage :
      readPublishedMessage (.field "message" :: place) (Tree.field? "message" es) =
        readPublishedMessage (.field "message" :: place) (Tree.field? "message" es') :=
    hes.read_field rfl _ fun _ _ hchange => readPublishedMessage_adds hchange _
  simp only [hmessage]

theorem readChannel_adds
    {t t' : Tree}
    (h : AddsToChannel t t')
    (place : Place) :
    readChannel place t = readChannel place t' := by
  refine h.read_section place _ ?_
  intro es es' hes
  have hpublication :
      readPublication (.field "publish" :: place) (Tree.field? "publish" es) =
        readPublication (.field "publish" :: place) (Tree.field? "publish" es') :=
    hes.read_field rfl _ fun _ _ hchange => readPublication_adds hchange _
  have hheaders :
      readHeaders (.field "x-headers" :: place) (Tree.field? "x-headers" es) =
        readHeaders (.field "x-headers" :: place) (Tree.field? "x-headers" es') :=
    hes.read_fixed rfl _
  simp only [hpublication, hheaders]

theorem readChannels_adds
    {t t' : Tree}
    (h : InMapping (AddsUnder AddsToChannel) t t') :
    readChannels (some t) = readChannels (some t') := by
  refine h.read_named _ _ ?_ _
  intro topic channel channel' hchange
  exact readChannel_adds hchange _

theorem readComponents_adds
    {t t' : Tree}
    (h : AddsToComponents t t') :
    readComponents (some t) = readComponents (some t') := by
  refine h.read_section _ _ ?_
  intro es es' hes
  refine hes.read_field rfl (fun t => readSection _ t >>= _) ?_
  intro messages messages' hmessages
  refine hmessages.read_named _ _ ?_ _
  intro name message message' hchange
  exact readComponent_adds hchange _

theorem readInfo_adds
    {es es' : Entries}
    (h : Adds [("title", Fixed), ("version", Fixed), ("description", Fixed)] es es') :
    readInfo es = readInfo es' := by
  have htitle : readText (Tree.field? "title" es) = readText (Tree.field? "title" es') :=
    h.read_fixed rfl readText
  have hversion : readText (Tree.field? "version" es) = readText (Tree.field? "version" es') :=
    h.read_fixed rfl readText
  have hdescription :
      readText (Tree.field? "description" es) = readText (Tree.field? "description" es') :=
    h.read_fixed rfl readText
  rw [readInfo, readInfo, htitle, hversion, hdescription]

/-- One unknown entry anywhere in a document changes nothing that is read. -/
theorem ofTree_adds
    {t t' : Tree}
    (h : AddsToDocument t t') :
    ofTree t = ofTree t' := by
  obtain ⟨es, es', ht, ht', hes⟩ := h.exists_peel
  have hasyncapi :
      readText (Tree.field? "asyncapi" es) = readText (Tree.field? "asyncapi" es') :=
    hes.read_fixed rfl readText
  have hchannels :
      readChannels (Tree.field? "channels" es) = readChannels (Tree.field? "channels" es') :=
    hes.read_field rfl readChannels fun _ _ hchange => readChannels_adds hchange
  have hcomponents :
      readComponents (Tree.field? "components" es) =
        readComponents (Tree.field? "components" es') :=
    hes.read_field rfl readComponents fun _ _ hchange => readComponents_adds hchange
  simp only [ofTree, ht, ht', ofEntries, hasyncapi, hchannels, hcomponents]
  refine hes.read_field rfl (fun t => readSection _ t >>= _) ?_
  intro info info' hinfo
  refine hinfo.read_section _ _ ?_
  intro es es' hes
  rw [Option.map_some, Option.map_some, readInfo_adds hes]

end Readings

/-- Unknown entries that are put in or taken out, in any number and at any depths, leave the answer
to a document as it is. -/
theorem load_unknown_fields
    {t t' : Tree}
    (h : Relation.EqvGen AddsToDocument t t') :
    ofTree t = ofTree t' ∧
    (∀ document document',
      Document.read document = .ok t →
      Document.read document' = .ok t' →
      load document = load document') := by
  have hread : ofTree t = ofTree t' := by
    induction h with
    | rel t t' hadds => exact ofTree_adds hadds
    | refl t => rfl
    | symm t t' _ ih => exact ih.symm
    | trans t u v _ _ ih₁ ih₂ => exact ih₁.trans ih₂
  refine ⟨hread, ?_⟩
  intro document document' hdocument hdocument'
  rw [load, load, hdocument, hdocument']
  simp only [hread]

set_option maxRecDepth 3000 in
/-- A list as payload beside a pointer, and a tagged `channels` in front of the known one. -/
theorem load_unknown_fields_orders :
    let document : Entries → Entries → Tree := fun first message =>
      .mapping (first ++ [(.text "channels", .mapping [(.text "orders", .mapping
        [(.text "publish", .mapping [(.text "message", .mapping message)])])])])
    let t := document [] [(.text "$ref", .text "p")]
    let t₁ := document [] [(.text "$ref", .text "p"), (.text "payload", .sequence [])]
    let t₂ := document [(.tagged "!x" (.text "channels"), .bool true)]
      [(.text "$ref", .text "p"), (.text "payload", .sequence [])]
    let spec : Specification :=
      ⟨none, none, .ofList [("orders", ⟨some ⟨some (.reference "p")⟩, none⟩)], .empty⟩
    let bytes := ("\x7b\"channels\":\x7b\"orders\":\x7b\"publish\":" ++
      "\x7b\"message\":\x7b\"$ref\":\"p\"\x7d\x7d\x7d\x7d\x7d").toUTF8
    let bytes₁ := ("\x7b\"channels\":\x7b\"orders\":\x7b\"publish\":" ++
      "\x7b\"message\":\x7b\"$ref\":\"p\",\"payload\":[]\x7d\x7d\x7d\x7d\x7d").toUTF8
    Relation.EqvGen AddsToDocument t t₁ ∧
      Relation.EqvGen AddsToDocument t₂ t ∧
      ofTree t₂ = .ok spec ∧
      load bytes₁ = .ok spec ∧
      load bytes = load bytes₁ := by
  intro document t t₁ t₂ spec bytes bytes₁
  have hpointer : AddsToDocument t t₁ :=
    .mapping (.field [] [] rfl (.mapping (.value [] [] _ (.mapping (.field [] [] rfl
      (.mapping (.field [] [] rfl (.mapping (Or.inr ⟨⟨_, rfl, .text rfl⟩,
        .entry [_] [] _ (by simp [Pairs.names])⟩)))))))))
  have htagged : AddsToDocument t₁ t₂ :=
    .mapping (.entry [] _ _ (by simp [Pairs.names]))
  have h₁ : Relation.EqvGen AddsToDocument t t₁ := .rel t t₁ hpointer
  have h₂ : Relation.EqvGen AddsToDocument t₂ t :=
    .symm t t₂ (.trans t t₁ t₂ h₁ (.rel t₁ t₂ htagged))
  have hread : Document.read bytes = .ok t := by
    simp only [bytes, t, document]
    cbv
  have hread₁ : Document.read bytes₁ = .ok t₁ := by
    simp only [bytes₁, t₁, document]
    cbv
  have hspec : ofTree t = .ok spec := by rfl
  have hbytes := (load_unknown_fields h₁).2 bytes bytes₁ hread hread₁
  refine ⟨h₁, h₂, (load_unknown_fields h₂).1.trans hspec, ?_, hbytes⟩
  rw [← hbytes, load, hread]
  simp only [hspec]

end Specification
end ChannelHeaders
