import Mathlib
import ChannelHeaders.Specification.Loading

/-!
# Where documents come from

A document may be given as bytes or as a text, may stand in a file, or may be handed out by
a reader; and it may be loaded by itself or for an injector.  A reader hands it out in
pieces of any size, which may be cut anywhere, also inside a character, and it may be
hindered any number of times before, between and behind them.

Whatever the source, only the bytes count: every source that gives all bytes of a document
loads what the bytes load.  A source that fails loads nothing, even when the pieces that it
handed out before are a whole document.

The bytes are tried as JSON when their first visible byte is an opening brace.  A tree that
JSON gives is final, also when it is not shaped like a specification.  In all other cases
the tree is that of YAML, and without one the document is in error: as JSON when it starts
like JSON, and as YAML otherwise.

**Results.**
* `Reads.read_eq`: what a document is read as, by the formats that accept it.
* `readToEnd_append`: pieces that are handed out stand in front of what follows.
* `readToEnd_eq_none_iff`: the readers that fail are those without a document.
* `load_eq_iff`: every answer of a load, by what justifies it.
* `load_from_every_source`: all of it, for every document and every source.
-/

namespace ChannelHeaders
namespace Document

section Formats

/-- The first byte that is not white space is an opening brace. -/
def OpensWithBrace (document : ByteArray) : Prop :=
  ∃ blanks rest,
    document.data.toList = blanks ++ 0x7b :: rest ∧
    ∀ b ∈ blanks, b ∈ [0x20, 0x09, 0x0a, 0x0c, 0x0d]

/-- What a document is read as, by the formats that accept it. -/
inductive Reads (document : ByteArray) : Except Malformed Tree → Prop
  | json
      {t : Tree}
      (hbrace : OpensWithBrace document)
      (hjson : fromJson? document = some t) :
      Reads document (.ok t)
  | fallback
      {t : Tree}
      (hbrace : OpensWithBrace document)
      (hjson : fromJson? document = none)
      (hyaml : fromYaml? document = some t) :
      Reads document (.ok t)
  | neither
      (hbrace : OpensWithBrace document)
      (hjson : fromJson? document = none)
      (hyaml : fromYaml? document = none) :
      Reads document (.error .json)
  | yaml
      {t : Tree}
      (hbrace : ¬ OpensWithBrace document)
      (hyaml : fromYaml? document = some t) :
      Reads document (.ok t)
  | notYaml
      (hbrace : ¬ OpensWithBrace document)
      (hyaml : fromYaml? document = none) :
      Reads document (.error .yaml)

theorem isBlankByte_iff
    (b : UInt8) :
    isBlankByte b = true ↔ b ∈ [0x20, 0x09, 0x0a, 0x0c, 0x0d] := by
  simp [isBlankByte, or_assoc]

/-- The bytes in front of the first visible one do not count. -/
theorem startsWithBrace_iff
    (document : ByteArray) :
    startsWithBrace document = true ↔ OpensWithBrace document := by
  rw [startsWithBrace, beq_iff_eq, List.find?_eq_some_iff_append]
  constructor
  · rintro ⟨-, blanks, rest, hbytes, hblanks⟩
    refine ⟨blanks, rest, hbytes, ?_⟩
    intro b hb
    rw [← isBlankByte_iff]
    simpa using hblanks b hb
  · rintro ⟨blanks, rest, hbytes, hblanks⟩
    refine ⟨rfl, blanks, rest, hbytes, ?_⟩
    intro b hb
    simpa using (isBlankByte_iff b).mpr (hblanks b hb)

/-- Every document is read as something. -/
theorem exists_reads
    (document : ByteArray) :
    ∃ answer, Reads document answer := by
  by_cases hbrace : OpensWithBrace document
  · cases hjson : fromJson? document with
    | some t => exact ⟨.ok t, .json hbrace hjson⟩
    | none =>
        cases hyaml : fromYaml? document with
        | some t => exact ⟨.ok t, .fallback hbrace hjson hyaml⟩
        | none => exact ⟨.error .json, .neither hbrace hjson hyaml⟩
  · cases hyaml : fromYaml? document with
    | some t => exact ⟨.ok t, .yaml hbrace hyaml⟩
    | none => exact ⟨.error .yaml, .notYaml hbrace hyaml⟩

/-- What justifies a reading is what the reading does. -/
theorem Reads.read_eq
    {document : ByteArray}
    {answer : Except Malformed Tree}
    (h : Reads document answer) :
    read document = answer := by
  have hstart : ¬ OpensWithBrace document → startsWithBrace document = false := by
    intro hbrace
    rwa [← startsWithBrace_iff, Bool.not_eq_true] at hbrace
  cases h with
  | json hbrace hjson => exact read_of_json ((startsWithBrace_iff _).mpr hbrace) hjson
  | fallback hbrace hjson hyaml =>
      rw [read_of_not_json ((startsWithBrace_iff _).mpr hbrace) hjson, hyaml]
      rfl
  | neither hbrace hjson hyaml =>
      rw [read_of_not_json ((startsWithBrace_iff _).mpr hbrace) hjson, hyaml]
      rfl
  | yaml hbrace hyaml =>
      rw [read_of_not_brace (hstart hbrace), hyaml]
      rfl
  | notYaml hbrace hyaml =>
      rw [read_of_not_brace (hstart hbrace), hyaml]
      rfl

theorem reads_error_yaml_iff
    (document : ByteArray) :
    Reads document (.error .yaml) ↔
      ¬ OpensWithBrace document ∧ fromYaml? document = none := by
  constructor
  · intro h
    cases h with
    | notYaml hbrace hyaml => exact ⟨hbrace, hyaml⟩
  · rintro ⟨hbrace, hyaml⟩
    exact .notYaml hbrace hyaml

theorem reads_error_json_iff
    (document : ByteArray) :
    Reads document (.error .json) ↔
      OpensWithBrace document ∧ fromJson? document = none ∧ fromYaml? document = none := by
  constructor
  · intro h
    cases h with
    | neither hbrace hjson hyaml => exact ⟨hbrace, hjson, hyaml⟩
  · rintro ⟨hbrace, hjson, hyaml⟩
    exact .neither hbrace hjson hyaml

end Formats

end Document

namespace Specification

open Document

section Readers

/-- The answers of a reader that hands out the pieces one after another and is hindered any number
of times. -/
inductive HandsOut : List (List UInt8) → List Signal → Prop
  | nothing :
      HandsOut [] []
  | interrupted
      {pieces : List (List UInt8)}
      {signals : List Signal}
      (h : HandsOut pieces signals) :
      HandsOut pieces (.interrupted :: signals)
  | piece
      {bytes : List UInt8}
      {pieces : List (List UInt8)}
      {signals : List Signal}
      (hbytes : bytes ≠ [])
      (h : HandsOut pieces signals) :
      HandsOut (bytes :: pieces) (.piece bytes :: signals)

/-- The answers of a reader at its end; what follows an empty piece is not asked for. -/
inductive AtEnd : List Signal → Prop
  | silent : AtEnd []
  | empty (signals : List Signal) : AtEnd (.piece [] :: signals)

/-- The answers of a reader that fails; what follows is not asked for. -/
inductive Fails : List Signal → Prop
  | failure (signals : List Signal) : Fails (.failure :: signals)

/-- The answers of a reader that hands out a document, cut into pieces anywhere, up to its end. -/
def Delivers
    (document : ByteArray)
    (signals : List Signal) :
    Prop :=
  ∃ pieces handed rest,
    HandsOut pieces handed ∧ AtEnd rest ∧
    pieces.flatten = document.data.toList ∧ signals = handed ++ rest

/-- The answers of a reader that fails before its end, whatever it has handed out. -/
def FailsBeforeEnd (signals : List Signal) : Prop :=
  ∃ pieces handed rest,
    HandsOut pieces handed ∧ Fails rest ∧ signals = handed ++ rest

/-- What is handed out stands in front of what the rest of the answers gives. -/
theorem readToEnd_append
    {pieces : List (List UInt8)}
    {handed : List Signal}
    (h : HandsOut pieces handed)
    (rest : List Signal) :
    readToEnd (handed ++ rest) = (readToEnd rest).map (pieces.flatten ++ ·) := by
  induction h with
  | nothing => simp
  | interrupted h ih => exact ih
  | @piece bytes pieces signals hbytes h ih =>
      cases bytes with
      | nil => exact absurd rfl hbytes
      | cons b bs =>
          rw [List.cons_append, readToEnd, ih, Option.map_map]
          simp [Function.comp_def]

theorem readToEnd_of_atEnd
    {rest : List Signal}
    (h : AtEnd rest) :
    readToEnd rest = some [] := by
  cases h with
  | silent => rfl
  | empty signals => rfl

theorem readToEnd_of_fails
    {rest : List Signal}
    (h : Fails rest) :
    readToEnd rest = none := by
  cases h with
  | failure signals => rfl

/-- Every reader hands out pieces up to its end, or fails before. -/
theorem exists_handsOut
    (signals : List Signal) :
    ∃ pieces handed rest,
      HandsOut pieces handed ∧ (AtEnd rest ∨ Fails rest) ∧ signals = handed ++ rest := by
  induction signals with
  | nil => exact ⟨[], [], [], .nothing, Or.inl .silent, rfl⟩
  | cons signal signals ih =>
      obtain ⟨pieces, handed, rest, hhanded, hrest, rfl⟩ := ih
      cases signal with
      | interrupted =>
          exact ⟨pieces, .interrupted :: handed, rest, hhanded.interrupted, hrest, rfl⟩
      | failure => exact ⟨[], [], _, .nothing, Or.inr (.failure _), rfl⟩
      | piece bytes =>
          -- An empty piece is the end already, whatever the answers behind it would be.
          by_cases hbytes : bytes = []
          · subst hbytes
            exact ⟨[], [], _, .nothing, Or.inl (.empty _), rfl⟩
          · exact ⟨bytes :: pieces, .piece bytes :: handed, rest, hhanded.piece hbytes, hrest, rfl⟩

/-- Reading fails for exactly the readers that fail before their end. -/
theorem readToEnd_eq_none_iff
    (signals : List Signal) :
    readToEnd signals = none ↔ FailsBeforeEnd signals := by
  constructor
  · intro h
    obtain ⟨pieces, handed, rest, hhanded, hrest | hrest, rfl⟩ := exists_handsOut signals
    · rw [readToEnd_append hhanded, readToEnd_of_atEnd hrest] at h
      cases h
    · exact ⟨pieces, handed, rest, hhanded, hrest, rfl⟩
  · rintro ⟨pieces, handed, rest, hhanded, hrest, rfl⟩
    rw [readToEnd_append hhanded, readToEnd_of_fails hrest]
    rfl

end Readers

section Answers

/-- What justifies an answer to a load: the formats that accept the document, and the shape of its
tree. -/
def Justifies (document : ByteArray) : Except LoadError Specification → Prop
  | .ok spec => ∃ t, Reads document (.ok t) ∧ ofTree t = .ok spec
  | .error (.shape e) => ∃ t, Reads document (.ok t) ∧ ofTree t = .error e
  | .error (.malformed cause) => Reads document (.error cause)
  | .error .unreadable => False

/-- A tree is final: what its shape gives is the answer, and no other format is tried. -/
theorem load_of_reads
    {document : ByteArray}
    {t : Tree}
    (h : Reads document (.ok t)) :
    load document = (ofTree t).mapError LoadError.shape := by
  rw [load_eq, h.read_eq]
  rfl

theorem load_of_reads_error
    {document : ByteArray}
    {cause : Malformed}
    (h : Reads document (.error cause)) :
    load document = .error (.malformed cause) := by
  rw [load_eq, h.read_eq]
  rfl

theorem justifies_load (document : ByteArray) : Justifies document (load document) := by
  obtain ⟨answer, h⟩ := exists_reads document
  cases answer with
  | error cause =>
      rw [load_of_reads_error h]
      exact h
  | ok t =>
      rw [load_of_reads h]
      cases hspec : ofTree t with
      | error e => exact ⟨t, h, hspec⟩
      | ok spec => exact ⟨t, h, hspec⟩

/-- A load gives the one answer that the document justifies. -/
theorem load_eq_iff
    (document : ByteArray)
    (answer : Except LoadError Specification) :
    load document = answer ↔ Justifies document answer := by
  constructor
  · rintro rfl
    exact justifies_load document
  · intro h
    match answer, h with
    | .ok spec, ⟨t, htree, hspec⟩ =>
        rw [load_of_reads htree, hspec]
        rfl
    | .error (.shape e), ⟨t, htree, hspec⟩ =>
        rw [load_of_reads htree, hspec]
        rfl
    | .error (.malformed cause), hcause => exact load_of_reads_error hcause

/-- Bytes that are at hand are never unreadable. -/
theorem load_ne_unreadable (document : ByteArray) : load document ≠ .error .unreadable := by
  intro h
  exact (load_eq_iff document _).mp h

/-- Whatever is wrong with bytes, they are malformed. -/
theorem kind_of_load
    {document : ByteArray}
    {e : LoadError}
    (h : load document = .error e) :
    e.kind = .malformed := by
  cases e with
  | malformed cause => rfl
  | shape cause => rfl
  | unreadable => exact absurd h (load_ne_unreadable document)

end Answers

section Sources

theorem loadReader_of_delivers
    {document : ByteArray}
    {signals : List Signal}
    (h : Delivers document signals) :
    loadReader signals = load document := by
  obtain ⟨pieces, handed, rest, hhanded, hrest, hpieces, rfl⟩ := h
  have hread : readToEnd (handed ++ rest) = some document.data.toList := by
    rw [readToEnd_append hhanded, readToEnd_of_atEnd hrest, Option.map_some, List.append_nil,
      hpieces]
  rw [loadReader, hread]

theorem loadReader_eq_unreadable_iff
    (signals : List Signal) :
    loadReader signals = .error .unreadable ↔ FailsBeforeEnd signals := by
  rw [← readToEnd_eq_none_iff, loadReader]
  cases readToEnd signals with
  | none => simp
  | some bytes => simp [load_ne_unreadable]

theorem loadFile_eq_unreadable_iff
    (content : Option ByteArray) :
    loadFile content = .error .unreadable ↔ content = none := by
  cases content with
  | none => simp [loadFile]
  | some document => simp [loadFile, load_ne_unreadable]

/-- A text is loaded as its bytes. -/
theorem loadText_of_fromUTF8?
    {document : ByteArray}
    {text : String}
    (h : String.fromUTF8? document = some text) :
    loadText text = load document := by
  rw [String.fromUTF8?] at h
  split at h
  · cases h
    rfl
  · cases h

/-- The specification of an injector is what was loaded for it. -/
theorem map_specification
    (answer : Except LoadError Specification) :
    (answer.map Injector.mk).map Injector.specification = answer := by
  cases answer with
  | error e => rfl
  | ok spec => rfl

theorem map_mk_eq_error_iff
    {answer : Except LoadError Specification}
    {e : LoadError} :
    answer.map Injector.mk = .error e ↔ answer = .error e := by
  constructor
  · intro h
    cases answer with
    | error e' => exact congrArg Except.error (Except.error.inj h)
    | ok spec => cases h
  · rintro rfl
    rfl

/-- Every source that gives all bytes of a document loads what the bytes load, and an error says
that the document is malformed. -/
structure SameFromSources (document : ByteArray) : Prop where
  reader : ∀ signals, Delivers document signals →
    loadReader signals = load document ∧
    (Injector.ofReader signals).map Injector.specification = load document
  file :
    loadFile (some document) = load document ∧
    (Injector.ofFile (some document)).map Injector.specification = load document
  bytes : (Injector.ofDocument document).map Injector.specification = load document
  text : ∀ text, String.fromUTF8? document = some text → loadText text = load document
  kind : ∀ e, load document = .error e → e.kind = .malformed

theorem sameFromSources (document : ByteArray) : SameFromSources document where
  reader := by
    intro signals h
    rw [← loadReader_of_delivers h]
    exact ⟨rfl, map_specification _⟩
  file := ⟨rfl, map_specification _⟩
  bytes := map_specification _
  text := fun _ => loadText_of_fromUTF8?
  kind := fun _ => kind_of_load

/-- The sources that are unreadable are those that fail. -/
structure UnreadableByFailure : Prop where
  reader : ∀ signals,
    (loadReader signals = .error .unreadable ↔ FailsBeforeEnd signals) ∧
    (Injector.ofReader signals = .error .unreadable ↔ FailsBeforeEnd signals)
  file : ∀ content,
    (loadFile content = .error .unreadable ↔ content = none) ∧
    (Injector.ofFile content = .error .unreadable ↔ content = none)

theorem unreadableByFailure : UnreadableByFailure where
  reader := by
    intro signals
    rw [Injector.ofReader, map_mk_eq_error_iff]
    exact ⟨loadReader_eq_unreadable_iff signals, loadReader_eq_unreadable_iff signals⟩
  file := by
    intro content
    rw [Injector.ofFile, map_mk_eq_error_iff]
    exact ⟨loadFile_eq_unreadable_iff content, loadFile_eq_unreadable_iff content⟩

end Sources

/-- A document loads alike from every source, a source is unreadable when it fails and only then,
and what is loaded is settled by the formats that accept the bytes. -/
theorem load_from_every_source (document : ByteArray) :
    SameFromSources document ∧
    UnreadableByFailure ∧
    (∀ answer, load document = answer ↔ Justifies document answer) ∧
    (load document = .error (.malformed .yaml) ↔
      ¬ OpensWithBrace document ∧ fromYaml? document = none) ∧
    (load document = .error (.malformed .json) ↔
      OpensWithBrace document ∧ fromJson? document = none ∧ fromYaml? document = none) := by
  refine ⟨sameFromSources document, unreadableByFailure, load_eq_iff document, ?_, ?_⟩
  · exact (load_eq_iff document _).trans (reads_error_yaml_iff document)
  · exact (load_eq_iff document _).trans (reads_error_json_iff document)

/-- A tree that JSON gives, with a text where a mapping is expected: from a reader that cuts the
text inside a character, and from the same reader when it fails behind the whole document.  Two
documents that only YAML accepts, one of them with an opening brace, and two that no format
accepts. -/
theorem load_from_every_source_cut :
    let text := "\x7b\"channels\":\"é\"\x7d"
    let document := text.toUTF8
    let bytes := document.data.toList
    let handed : List Signal :=
      [.interrupted, .piece (bytes.take 14), .interrupted, .interrupted, .piece (bytes.drop 14)]
    let answer : Except LoadError Specification :=
      .error (.shape ⟨[.field "channels"], .mapping⟩)
    let flow := "{asyncapi: v2}".toUTF8
    let block := "# v1\nasyncapi: 'v2'\n".toUTF8
    let spec : Specification := ⟨some "v2", none, .empty, .empty⟩
    load document = answer ∧
      loadReader handed = answer ∧
      loadReader (handed ++ [.piece [], .failure]) = answer ∧
      loadReader (handed ++ [.failure]) = .error .unreadable ∧
      loadText text = answer ∧
      (Injector.ofFile (some document)).map Injector.specification = answer ∧
      load flow = .ok spec ∧
      load block = .ok spec ∧
      loadReader [.piece block.data.toList, .interrupted] = .ok spec ∧
      (Injector.ofFile (some block)).map Injector.specification = .ok spec ∧
      load "[".toUTF8 = .error (.malformed .yaml) ∧
      load "\x7b".toUTF8 = .error (.malformed .json) := by
  intro text document bytes handed answer flow block spec
  obtain ⟨hsame, hunreadable, hanswer, -, -⟩ := load_from_every_source document
  have hjson : fromJson? document = some (.mapping [(.text "channels", .text "é")]) := by
    simp only [document, text]
    cbv
  have hbytes : bytes = 0x7b :: bytes.tail := rfl
  have hhanded : HandsOut [bytes.take 14, bytes.drop 14] handed :=
    ((HandsOut.nothing.piece (by decide)).interrupted.interrupted.piece (by decide)).interrupted
  have hpieces : [bytes.take 14, bytes.drop 14].flatten = bytes := by
    simp
  have hload : load document = answer :=
    (hanswer answer).mpr ⟨_, .json ⟨[], bytes.tail, hbytes, by simp⟩ hjson, rfl⟩
  have hsilent : Delivers document handed :=
    ⟨_, handed, [], hhanded, .silent, hpieces, (List.append_nil handed).symm⟩
  have hempty : Delivers document (handed ++ [.piece [], .failure]) :=
    ⟨_, handed, _, hhanded, .empty _, hpieces, rfl⟩
  have hfails : FailsBeforeEnd (handed ++ [.failure]) :=
    ⟨_, handed, _, hhanded, .failure _, rfl⟩
  -- the documents for YAML
  let tree : Tree := .mapping [(.text "asyncapi", .text "v2")]
  have hflow : Reads flow (.ok tree) := by
    refine .fallback ⟨[], flow.data.toList.tail, rfl, by simp⟩ ?_ ?_
    · simp only [flow]
      cbv
    · simp only [flow, tree]
      cbv
  have hblock : Reads block (.ok tree) := by
    refine .yaml ?_ ?_
    · rw [← startsWithBrace_iff]
      decide
    · simp only [block, tree]
      cbv
  have hloadBlock : load block = .ok spec :=
    ((load_from_every_source block).2.2.1 _).mpr ⟨tree, hblock, rfl⟩
  have hdelivers : Delivers block [.piece block.data.toList, .interrupted] :=
    ⟨[block.data.toList], [.piece block.data.toList, .interrupted], [],
      HandsOut.nothing.interrupted.piece (by decide), .silent, List.append_nil _, rfl⟩
  have hsameBlock := (load_from_every_source block).1
  refine ⟨hload, (hsame.reader handed hsilent).1.trans hload,
    (hsame.reader _ hempty).1.trans hload, (hunreadable.reader _).1.mpr hfails,
    (hsame.text text (dif_pos text.isValidUTF8)).trans hload, hsame.file.2.trans hload,
    ((load_from_every_source flow).2.2.1 _).mpr ⟨tree, hflow, rfl⟩, hloadBlock,
    (hsameBlock.reader _ hdelivers).1.trans hloadBlock, hsameBlock.file.2.trans hloadBlock,
    (load_from_every_source _).2.2.2.1.mpr ⟨?_, ?_⟩,
    (load_from_every_source _).2.2.2.2.mpr ⟨⟨[], [], rfl, by simp⟩, ?_, ?_⟩⟩
  · rw [← startsWithBrace_iff]
    decide
  · cbv
  · cbv
  · cbv

end Specification
end ChannelHeaders
