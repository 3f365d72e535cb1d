import ChannelHeaders.Proofs.SpelledValues
import ChannelHeaders.Proofs.WrittenDocuments

/-!
# Templates in JSON documents

A JSON document with one topic and its header templates is loaded with the templates as
they are, whatever characters the strings are made of and however they are spelled.  No
string is read as anything else, and the templates keep their order.

**Results.**
* `startsWithBrace_spelled`: the text of an object is taken for JSON.
* `read_spelled`: the document tree of a spelled object.
* `load_verbatim`: the specification of a document with templates.
-/

namespace ChannelHeaders
namespace Specification

open Document

section Bytes

theorem utf8EncodeChar_ascii
    {c : Char}
    (h : c.toNat < 0x80) :
    String.utf8EncodeChar c = [UInt8.ofNat c.toNat] := by
  rw [String.utf8EncodeChar]
  exact if_pos (Nat.le_of_lt_succ h)

/-- The first visible byte of an object is its brace, whatever white space stands in front. -/
theorem startsWithBrace_spelled
    {ts : List Json.Token}
    {text : String}
    (h : Json.SpellsTokens (.beginObject :: ts) text.toList) :
    startsWithBrace text.toUTF8 = true := by
  have hbytes : text.toUTF8.data.toList = text.toList.flatMap String.utf8EncodeChar := by
    rw [String.toUTF8_eq_toByteArray, ← String.utf8Encode_toList, List.utf8Encode,
      List.toList_data_toByteArray]
  -- By induction on the spelling: white space in front is skipped, then the brace is found.
  have hfind : ∀ us cs, Json.SpellsTokens us cs → us = .beginObject :: ts →
      (cs.flatMap String.utf8EncodeChar).find? (!isBlankByte ·) = some 0x7b := by
    intro us cs hus
    induction hus with
    | nil => exact nofun
    | @blank us c cs hc h ih =>
        intro hus
        have hascii : ∀ c ∈ [' ', '\t', '\n', '\r'], c.toNat < 0x80 := by
          simp
        have hblank : ∀ c ∈ [' ', '\t', '\n', '\r'],
            isBlankByte (UInt8.ofNat c.toNat) = true := by
          simp [isBlankByte]
        rw [List.flatMap_cons, utf8EncodeChar_ascii (hascii c hc), List.singleton_append,
          List.find?_cons_of_neg]
        · exact ih hus
        · rw [hblank c hc]
          exact Bool.false_ne_true
    | @token t us w cs ht hend h ih =>
        intro hus
        obtain ⟨rfl, -⟩ := List.cons.inj hus
        cases ht with
        | beginObject => rfl
  rw [startsWithBrace, hbytes, hfind _ _ h rfl]
  rfl

/-- A spelled object without repeated names is read as its tree. -/
theorem read_spelled
    {members : List (String × Json)}
    {text : String}
    (h : Json.SpellsTokens (Json.object members).tokens text.toList)
    (hsettled : (Json.object members).Settled)
    (hnesting : (Json.object members).nesting ≤ Json.maxOpen) :
    Document.read text.toUTF8 = .ok (Tree.ofJson (.object members)) := by
  have hbrace : startsWithBrace text.toUTF8 = true := by
    cases members with
    | nil => exact startsWithBrace_spelled h
    | cons m ms => exact startsWithBrace_spelled h
  refine read_of_json hbrace ?_
  rw [fromJson?, Json.decode?_spelled h, if_pos hnesting, Option.filter_some,
    if_pos (decide_eq_true hsettled), Option.map_some]

end Bytes

section Documents

/-- The document that gives a topic its header templates. -/
def templatesDocument
    (topic : String)
    (headers : List (String × String)) :
    Json :=
  .object [("channels", .object [(topic, .object [("x-headers",
    .object (headers.map fun p => (p.1, .text p.2)))])])]

theorem settledMembers_texts (headers : List (String × String)) :
    Json.SettledMembers (headers.map fun p => (p.1, .text p.2)) := by
  induction headers with
  | nil => trivial
  | cons p ps ih => exact ⟨trivial, ih⟩

theorem nestingMembers_texts (headers : List (String × String)) :
    Json.nestingMembers (headers.map fun p => (p.1, .text p.2)) = 0 := by
  induction headers with
  | nil => rfl
  | cons p ps ih =>
      rw [List.map_cons, Json.nestingMembers, ih]
      rfl

theorem ofJsonMembers_texts (headers : List (String × String)) :
    Tree.ofJsonMembers (headers.map fun p => (p.1, .text p.2)) =
      headers.map fun p => (.text p.1, .text p.2) := by
  induction headers with
  | nil => rfl
  | cons p ps ih =>
      rw [List.map_cons, Tree.ofJsonMembers, ih]
      rfl

/-- The document repeats no name when the headers do not. -/
theorem settled_templatesDocument
    (topic : String)
    {headers : List (String × String)}
    (h : (Pairs.names headers).Nodup) :
    (templatesDocument topic headers).Settled := by
  have hnames : (Pairs.names (headers.map fun p => (p.1, Json.text p.2))).Nodup := by
    rwa [Pairs.names_map]
  have hone : ∀ name : String, [name].Nodup := List.nodup_singleton
  exact ⟨hone _, ⟨hone _, ⟨hone _, ⟨hnames, settledMembers_texts headers⟩, trivial⟩, trivial⟩,
    trivial⟩

/-- The document nests four deep, whatever the texts. -/
theorem nesting_templatesDocument
    (topic : String)
    (headers : List (String × String)) :
    (templatesDocument topic headers).nesting = 4 := by
  simp [templatesDocument, Json.nesting, Json.nestingMembers, nestingMembers_texts]

/-- The specification of a topic and its header templates. -/
def templatesSpecification
    (topic : String)
    (templates : HeaderTemplates) :
    Specification :=
  ⟨none, none, .ofList [(topic, ⟨none, some templates⟩)], .empty⟩

/-- The tree of the document is read as the one topic with its headers. -/
theorem ofTree_templatesDocument
    (topic : String)
    (templates : HeaderTemplates) :
    ofTree (Tree.ofJson (templatesDocument topic templates.entries)) =
      .ok (templatesSpecification topic templates) := by
  have htree :
      Tree.ofJson (templatesDocument topic templates.entries) =
        .mapping [(.text "channels", writeNamed writeChannel
          (templatesSpecification topic templates).channels.entries)] := by
    have hheaders :
        Tree.ofJson (.object (templates.entries.map fun p => (p.1, .text p.2))) =
          writeNamed .text templates.entries := by
      rw [Tree.ofJson, ofJsonMembers_texts]
      rfl
    simp only [templatesDocument, Tree.ofJson, Tree.ofJsonMembers] at hheaders ⊢
    rw [hheaders]
    rfl
  have hfields : ∀ t,
      ofTree (.mapping [(.text "channels", t)]) =
        readChannels (some t) >>= fun channels => .ok ⟨none, none, channels, .empty⟩ := by
    intro t
    rfl
  rw [htree, hfields, readChannels_write, ok_bind]
  rfl

/-- Templates are loaded as they are, however the strings of the document are spelled. -/
theorem load_verbatim
    {topic : String}
    {headers : List (String × String)}
    (hnames : (Pairs.names headers).Nodup)
    {document : String}
    (hdocument :
      Json.SpellsTokens (templatesDocument topic headers).tokens document.toList) :
    ∃ spec templates,
      load document.toUTF8 = .ok spec ∧
      spec.topics = [topic] ∧
      spec.asyncapi = none ∧
      spec.info = none ∧
      spec.messages = .empty ∧
      spec.channel? topic = some ⟨none, some templates⟩ ∧
      templates.entries = headers := by
  have hread :
      Document.read document.toUTF8 = .ok (Tree.ofJson (templatesDocument topic headers)) :=
    read_spelled hdocument (settled_templatesDocument topic hnames)
      ((nesting_templatesDocument topic headers).trans_le (by decide))
  have htree := ofTree_templatesDocument topic ⟨headers, hnames⟩
  refine ⟨templatesSpecification topic ⟨headers, hnames⟩, ⟨headers, hnames⟩, ?_, rfl, rfl, rfl, rfl,
    ?_, rfl⟩
  · rw [load, hread]
    simp only [htree]
  · rw [channel?, templatesSpecification, SortedMap.get?_ofList, Pairs.last?_cons, if_pos rfl]
    rfl

set_option maxRecDepth 3000 in
/-- A topic by its hexadecimal digits, and a template with a pair of surrogates and a line feed. -/
theorem load_verbatim_escapes :
    let headers := [("1", "😀\n")]
    let document := "\x7b\"channels\":\x7b\"\\u0074\":\x7b\"x-headers\":" ++
      "\x7b\"1\":\"\\uD83d\\ude00\\n\"\x7d\x7d\x7d\x7d"
    (Pairs.names headers).Nodup ∧
      Json.SpellsTokens (templatesDocument "t" headers).tokens document.toList ∧
      ∃ spec templates,
        load document.toUTF8 = .ok spec ∧
        spec.topics = ["t"] ∧
        spec.channel? "t" = some ⟨none, some templates⟩ ∧
        templates.entries = headers := by
  intro headers document
  have hnames : (Pairs.names headers).Nodup := List.nodup_singleton _
  have hzero : Json.HexDigit '0' 0 := Or.inl rfl
  have hthree : Json.HexDigit '3' 3 := Or.inl rfl
  have hfour : Json.HexDigit '4' 4 := Or.inl rfl
  have hseven : Json.HexDigit '7' 7 := Or.inl rfl
  have height : Json.HexDigit '8' 8 := Or.inl rfl
  have hd : Json.HexDigit 'd' 13 := Or.inl rfl
  have hD : Json.HexDigit 'D' 13 := Or.inr rfl
  have he : Json.HexDigit 'e' 14 := Or.inl rfl
  have hunit : Json.SpellsUnit 0x74 ['\\', 'u', '0', '0', '7', '4'] :=
    .digits hzero hzero hseven hfour
  have hleading : Json.SpellsUnit 0xd83d ['\\', 'u', 'D', '8', '3', 'd'] :=
    .digits hD height hthree hd
  have htrailing : Json.SpellsUnit 0xde00 ['\\', 'u', 'd', 'e', '0', '0'] :=
    .digits hd he hzero hzero
  have htopic : Json.SpellsChar 't' ['\\', 'u', '0', '0', '7', '4'] := .unit hunit
  have hemoji := Json.SpellsChar.pair (c := '😀') (by decide) hleading htrailing
  have hbreak : Json.SpellsChar '\n' ['\\', 'n'] := .short (by simp [Json.shortEscapes])
  have hclose := Json.SpellsTokens.nil.prepend
    [.endObject, .endObject, .endObject, .endObject] (by simp)
  have hvalue : Json.SpellsTokens (.text "😀\n" :: _) _ :=
    .token (.text (.cons hemoji (.cons hbreak .nil))) (by simp) hclose
  have hheaders := hvalue.prepend
    [.colon, .beginObject, .text "x-headers", .colon, .beginObject, .text "1", .colon] (by simp)
  have hchannel : Json.SpellsTokens (.text "t" :: _) _ :=
    .token (.text (.cons htopic .nil)) (by simp) hheaders
  have hchannels := hchannel.prepend
    [.beginObject, .text "channels", .colon, .beginObject] (by simp)
  have hdocument : Json.SpellsTokens (templatesDocument "t" headers).tokens document.toList := by
    rw [String.toList_append]
    exact hchannels
  obtain ⟨spec, templates, hload, htopics, -, -, -, hspec, hentries⟩ :=
    load_verbatim hnames hdocument
  exact ⟨hnames, hdocument, spec, templates, hload, htopics, hspec, hentries⟩

end Documents

end Specification
end ChannelHeaders
