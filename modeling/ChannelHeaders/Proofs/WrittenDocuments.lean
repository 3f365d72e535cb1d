import Mathlib
import ChannelHeaders.Proofs.Collections
import ChannelHeaders.Proofs.ReadingSteps
import ChannelHeaders.Specification.Loading
import ChannelHeaders.Specification.Writing

/-!
# Reading what was written

A specification that is written as a document tree is read back unchanged, whatever names
and texts it holds.  The proof goes up from a declared property to the whole document.
Two facts carry it: a field that was written is found under its name, and a map is made of
its own pairs, so neither the byte order of topics nor the order of headers is lost.

Since nothing is lost, an absent part and an empty one are told apart at every level.

**Results.**
* `readEntries_writeNamed`: a mapping that is keyed by free names comes back in order.
* `readMessage_write`, `readChannel_write`: one message and one channel.
* `ofTree_toTree`: the whole document.
* `load_written`: loading it, and the parts that are told apart.
-/

namespace ChannelHeaders
namespace Specification

open Document

section Fields

/-- A field that was written hides later ones of its name, and no others. -/
@[simp] theorem field?_writeField
    (name field : String)
    (value : Option Tree)
    (es : Entries) :
    Tree.field? name (writeField field value ++ es) =
      if field = name then value.or (Tree.field? name es) else Tree.field? name es := by
  cases value with
  | none =>
      simp [writeField]
  | some t =>
      by_cases h : field = name
      · simp [writeField, Tree.field?, h]
      · simp [writeField, Tree.field?, h]

/-- Only the field that was written is found. -/
@[simp] theorem field?_writeField_last
    (name field : String)
    (value : Option Tree) :
    Tree.field? name (writeField field value) = if field = name then value else none := by
  have h := field?_writeField name field value []
  rwa [List.append_nil, Tree.field?, Option.or_none] at h

@[simp] theorem readText_text (value : Option String) :
    readText (value.map .text) = value := by
  cases value with
  | none => rfl
  | some s => rfl

@[simp] theorem inside_mapping (es : Entries) :
    inside (some (.mapping es)) = es := by
  rfl

/-- A mapping is read as its entries. -/
theorem readSection_inside
    (t : Tree)
    (h : t.peel = .mapping (inside (some t)))
    (place : Place) :
    readSection place (some t) = .ok (some (inside (some t))) :=
  readSection_mapping h place

/-- Entries under free names come back in their order. -/
theorem readEntries_writeNamed
    {α : Type}
    {place : Place}
    {read : String → Tree → Shaped α}
    {write : α → Tree}
    (h : ∀ name x, read name (write x) = .ok x)
    (entries : List (String × α)) :
    readEntries place read (inside (some (writeNamed write entries))) = .ok entries := by
  rw [writeNamed, inside_mapping]
  induction entries with
  | nil => rfl
  | cons e entries ih =>
      have hname : readName place (.text e.1) = .ok e.1 := readName_of_scalar rfl place
      rw [List.map_cons, readEntries, hname, ok_bind, h, ok_bind, ih]
      rfl

end Fields

section Parts

theorem readProperty_write
    (place : Place)
    (p : Property) :
    readProperty place (writeProperty p) = .ok p := by
  have htype :
      readText (Tree.field? "type" (inside (some (writeProperty p)))) = p.declaredType := by
    simp [writeProperty, writeText]
  rw [readProperty, readSection_inside (writeProperty p) rfl, ok_bind, Option.bind_some, htype]
  rfl

theorem readPayload_write
    (place : Place)
    (p : PayloadSchema) :
    readPayload place (inside (some (writePayload p))) = .ok p := by
  have htype :
      readText (Tree.field? "type" (inside (some (writePayload p)))) = p.declaredType := by
    simp [writePayload, writeText]
  have hproperties :
      Tree.field? "properties" (inside (some (writePayload p))) =
        some (writeNamed writeProperty p.properties.entries) := by
    simp [writePayload, writeText]
  rw [readPayload, htype, hproperties, readSection_inside (writeNamed _ _) rfl, ok_bind,
    Option.getD_some, readEntries_writeNamed (fun name => readProperty_write _), ok_bind,
    SortedMap.ofList_entries]
  rfl

theorem readMessage_write
    (place : Place)
    (m : MessageSchema) :
    readMessage place (inside (some (writeMessage m))) = .ok m := by
  have hpayload :
      Tree.field? "payload" (inside (some (writeMessage m))) = m.payload.map writePayload := by
    simp [writeMessage]
  rw [readMessage, hpayload]
  rcases m with ⟨_ | p⟩
  · rfl
  · rw [Option.map_some, readSection_inside (writePayload p) rfl, ok_bind]
    simp only [readPayload_write, ok_bind]
    rfl

/-- A pointer and a message that is written in place are told apart by the field `$ref`. -/
theorem readPublishedMessage_write
    (place : Place)
    (m : Option PublishedMessage) :
    readPublishedMessage place (m.map writePublishedMessage) = .ok m := by
  rcases m with _ | pointer | schema
  · rfl
  · rfl
  · have hpointer :
        readText (Tree.field? "$ref" (inside (some (writeMessage schema)))) = none := by
      simp [writeMessage, readText]
    rw [Option.map_some, writePublishedMessage, readPublishedMessage,
      readSection_inside (writeMessage schema) rfl, ok_bind]
    simp only [hpointer, readMessage_write, ok_bind]
    rfl

theorem readPublication_write
    (place : Place)
    (p : Option Publication) :
    readPublication place (p.map writePublication) = .ok p := by
  rcases p with _ | p
  · rfl
  · have hmessage :
        Tree.field? "message" (inside (some (writePublication p))) =
          p.message.map writePublishedMessage := by
      simp [writePublication]
    rw [Option.map_some, readPublication, readSection_inside (writePublication p) rfl, ok_bind]
    simp only [hmessage, readPublishedMessage_write, ok_bind]
    rfl

/-- Headers keep their order on the way. -/
theorem readHeaders_write
    (place : Place)
    (h : Option HeaderTemplates) :
    readHeaders place (h.map fun h => writeNamed .text h.entries) = .ok h := by
  rcases h with _ | h
  · rfl
  · have htext : ∀ name s, readTemplate (.field name :: place) (.text s) = .ok s := by
      intro name s
      rfl
    rw [Option.map_some, readHeaders, readSection_inside (writeNamed _ _) rfl, ok_bind]
    simp only [readEntries_writeNamed htext, ok_bind, OrderedMap.ofList_entries]
    rfl

theorem readChannel_write
    (place : Place)
    (c : Channel) :
    readChannel place (writeChannel c) = .ok c := by
  have hpublication :
      Tree.field? "publish" (inside (some (writeChannel c))) =
        c.publication.map writePublication := by
    simp [writeChannel]
  have hheaders :
      Tree.field? "x-headers" (inside (some (writeChannel c))) =
        c.headers.map fun h => writeNamed .text h.entries := by
    simp [writeChannel]
  rw [readChannel, readSection_inside (writeChannel c) rfl, ok_bind]
  simp only [hpublication, hheaders, readPublication_write, readHeaders_write, ok_bind]
  rfl

theorem readComponent_write
    (place : Place)
    (m : MessageSchema) :
    readComponent place (writeMessage m) = .ok m := by
  rw [readComponent, readSection_inside (writeMessage m) rfl, ok_bind]
  exact readMessage_write place m

theorem readInfo_write (i : Info) :
    readInfo (inside (some (writeInfo i))) = i := by
  simp [readInfo, writeInfo, writeText]

theorem exists_readSection_writeInfo
    (place : Place)
    (i : Option Info) :
    ∃ es, readSection place (i.map writeInfo) = .ok es ∧ es.map readInfo = i := by
  rcases i with _ | i
  · exact ⟨none, rfl, rfl⟩
  · exact ⟨_, readSection_inside (writeInfo i) rfl place, congrArg some (readInfo_write i)⟩

end Parts

section Documents

/-- Channels are read back under their topics. -/
theorem readChannels_write (channels : SortedMap Channel) :
    readChannels (some (writeNamed writeChannel channels.entries)) = .ok channels := by
  rw [readChannels, readSection_inside (writeNamed _ _) rfl, ok_bind, Option.getD_some,
    readEntries_writeNamed (fun topic => readChannel_write _), ok_bind,
    SortedMap.ofList_entries]
  rfl

theorem readComponents_write (messages : SortedMap MessageSchema) :
    readComponents (some (.mapping
      (writeField "messages" (some (writeNamed writeMessage messages.entries))))) =
      .ok messages := by
  rw [readComponents, readSection_mapping rfl, ok_bind, Option.getD_some,
    field?_writeField_last, if_pos rfl]
  dsimp only
  rw [readSection_inside (writeNamed _ _) rfl, ok_bind, Option.getD_some,
    readEntries_writeNamed (fun name => readComponent_write _), ok_bind,
    SortedMap.ofList_entries]
  rfl

/-- A specification comes back from its document tree. -/
theorem ofTree_toTree (spec : Specification) : ofTree (toTree spec) = .ok spec := by
  have hasyncapi :
      readText (Tree.field? "asyncapi" (inside (some (toTree spec)))) = spec.asyncapi := by
    simp [toTree, writeText]
  have hinfo :
      Tree.field? "info" (inside (some (toTree spec))) = spec.info.map writeInfo := by
    simp [toTree, writeText]
  have hchannels :
      Tree.field? "channels" (inside (some (toTree spec))) =
        some (writeNamed writeChannel spec.channels.entries) := by
    simp [toTree, writeText]
  have hcomponents :
      Tree.field? "components" (inside (some (toTree spec))) =
        some (.mapping
          (writeField "messages" (some (writeNamed writeMessage spec.messages.entries)))) := by
    simp [toTree, writeText]
  have hread : ofTree (toTree spec) = ofEntries (inside (some (toTree spec))) := by
    rfl
  obtain ⟨info, hsection, hi⟩ := exists_readSection_writeInfo [.field "info"] spec.info
  rw [hread, ofEntries, hasyncapi, hinfo, hchannels, hcomponents, hsection, ok_bind,
    readChannels_write, ok_bind, readComponents_write, ok_bind, hi]
  rfl

/-- The specification with this channel under a topic. -/
def withChannel
    (spec : Specification)
    (topic : String)
    (c : Channel) :
    Specification :=
  { spec with channels := spec.channels.insert topic c }

/-- Documents that differ in one channel are told apart. -/
theorem ofTree_withChannel_ne
    (spec : Specification)
    (topic : String)
    {c d : Channel}
    (h : c ≠ d) :
    ofTree (toTree (spec.withChannel topic c)) ≠ ofTree (toTree (spec.withChannel topic d)) := by
  rw [ofTree_toTree, ofTree_toTree]
  intro he
  have hchannel := congrArg (fun s => s.channel? topic) (Except.ok.inj he)
  simp only [withChannel, channel?, SortedMap.get?_insert, if_true] at hchannel
  exact h (Option.some.inj hchannel)

/-- Every specification can be written down and is loaded unchanged, and no absent part is
confused with an empty one. -/
theorem load_written (spec : Specification) :
    ofTree (toTree spec) = .ok spec ∧
    (∀ document, Document.read document = .ok (toTree spec) → load document = .ok spec) ∧
    (∀ topic publication headers,
      let read := fun c => ofTree (toTree (spec.withChannel topic c))
      read ⟨none, headers⟩ ≠ read ⟨some ⟨none⟩, headers⟩ ∧
      read ⟨publication, none⟩ ≠ read ⟨publication, some .empty⟩ ∧
      read ⟨some ⟨none⟩, headers⟩ ≠ read ⟨some ⟨some (.inline ⟨none⟩)⟩, headers⟩ ∧
      read ⟨some ⟨some (.inline ⟨none⟩)⟩, headers⟩ ≠
        read ⟨some ⟨some (.inline ⟨some ⟨none, .empty⟩⟩)⟩, headers⟩) := by
  refine ⟨ofTree_toTree spec, ?_, ?_⟩
  · intro document hdocument
    rw [load, hdocument]
    simp only [ofTree_toTree]
  · intro topic publication headers read
    refine ⟨?_, ?_, ?_, ?_⟩
    · exact ofTree_withChannel_ne spec topic (by simp)
    · exact ofTree_withChannel_ne spec topic (by simp)
    · exact ofTree_withChannel_ne spec topic (by simp)
    · exact ofTree_withChannel_ne spec topic (by simp)

set_option maxRecDepth 3000 in
/-- A topic without a name, a payload field called `$ref`, and headers that are not in byte
order. -/
theorem load_written_names :
    let schema : MessageSchema := ⟨some ⟨none, .ofList [("$ref", ⟨none⟩)]⟩⟩
    let headers : HeaderTemplates := .ofList [("b.c", "1"), ("a", "")]
    let spec : Specification :=
      ⟨none, none, .ofList [("", ⟨some ⟨some (.inline schema)⟩, some headers⟩)], .empty⟩
    let document := ("\x7b\"channels\":\x7b\"\":\x7b\"publish\":\x7b\"message\":\x7b\"payload\":" ++
      "\x7b\"properties\":\x7b\"$ref\":\x7b\x7d\x7d\x7d\x7d\x7d,\"x-headers\":" ++
      "\x7b\"b.c\":\"1\",\"a\":\"\"\x7d\x7d\x7d," ++
      "\"components\":\x7b\"messages\":\x7b\x7d\x7d\x7d").toUTF8
    Document.read document = .ok (toTree spec) ∧
      load document = .ok spec ∧
      ofTree (toTree (spec.withChannel "" ⟨none, headers⟩)) ≠
        ofTree (toTree (spec.withChannel "" ⟨some ⟨none⟩, headers⟩)) := by
  intro schema headers spec document
  have hread : Document.read document = .ok (toTree spec) := by
    simp only [document, spec, headers, schema]
    cbv
  obtain ⟨-, hload, hapart⟩ := load_written spec
  exact ⟨hread, hload document hread, (hapart "" none headers).1⟩

end Documents

end Specification
end ChannelHeaders
