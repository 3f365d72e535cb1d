import ChannelHeaders.Proofs.Collections
import ChannelHeaders.Proofs.NumberTexts
import ChannelHeaders.Proofs.ReadingSteps

/-!
# The contents of specification documents

What a specification holds that was read from a document tree, in terms of the entries of
the tree.  Keys are compared by their text only here, so that keys which differ as nodes
may meet.  Two policies apply.  Under a topic, a component name or a property name, the
last entry replaces all earlier ones as a whole.  Among the headers of a channel, a name
stands where its first entry stands and has the template of its last entry.

The contents are stated by one relation for each kind of node, from a property up to the
whole document.  Each relation leaves room for one value only, so what is read under a
topic depends on nothing but the last entry with that topic.

**Texts.**  A string is its own text, a boolean is `true` or `false`, and a number is written
from its value: the key `1` meets the key `'1'`, and the spelling `0x1F` is gone.  A null node
is the empty template and no key.

**Results.**
* `readEntries_last?`: reading entries keeps the order of names and the last values.
* `spells_of_ofTree`: a specification that was read is spelled by its document.
* `spellsChannel_unique`, `spellsMessage_unique`: a node spells one channel or message only.
* `scalar?_eq_some_iff`, `ScalarText.templateText`: the texts of keys and templates.
* `ofTree_last_entry`: the topics of a document, what is under them, and what decides it.
-/

namespace ChannelHeaders
namespace Specification

open Document

section Contents

/-- The entries of a mapping by the texts of their keys, in order. -/
def named (es : Entries) : List (String × Tree) :=
  es.filterMap fun e => e.1.scalar?.map fun name => (name, e.2)

/-- Under each name, `get?` finds what the last entry with that name spells. -/
def LastSpells
    {α : Type}
    (spells : Tree → α → Prop)
    (es : Entries)
    (get? : String → Option α) :
    Prop :=
  ∀ name, Option.Rel spells (Pairs.last? name (named es)) (get? name)

def SpellsProperty
    (t : Tree)
    (p : Property) :
    Prop :=
  p.declaredType = readText (Tree.field? "type" (inside (some t)))

structure SpellsPayload
    (es : Entries)
    (p : PayloadSchema) :
    Prop where
  declaredType : p.declaredType = readText (Tree.field? "type" es)
  properties : LastSpells SpellsProperty (inside (Tree.field? "properties" es)) p.properties.get?

structure SpellsMessage
    (es : Entries)
    (m : MessageSchema) :
    Prop where
  payload : Option.Rel SpellsPayload (section? (Tree.field? "payload" es)) m.payload

/-- A pointer hides the rest of the message. -/
inductive SpellsPublishedMessage (es : Entries) : PublishedMessage → Prop
  | reference
      {pointer : String}
      (h : readText (Tree.field? "$ref" es) = some pointer) :
      SpellsPublishedMessage es (.reference pointer)
  | inline
      {m : MessageSchema}
      (h : readText (Tree.field? "$ref" es) = none)
      (hm : SpellsMessage es m) :
      SpellsPublishedMessage es (.inline m)

structure SpellsPublication
    (es : Entries)
    (p : Publication) :
    Prop where
  message : Option.Rel SpellsPublishedMessage (section? (Tree.field? "message" es)) p.message

/-- The text of a header template: a string as it is, a number or a boolean as text, and nothing
for null. -/
def templateText (t : Tree) : String :=
  match t.peel with
  | .text s => s
  | .number n => n.text
  | .bool b => if b then "true" else "false"
  | _ => ""

/-- Names stand at their first places, with the templates of their last ones. -/
structure SpellsHeaders
    (es : Entries)
    (h : HeaderTemplates) :
    Prop where
  names : h.names = (Pairs.names (named es)).eraseDups
  templates : ∀ name, h.get? name = (Pairs.last? name (named es)).map templateText

structure SpellsChannel
    (t : Tree)
    (c : Channel) :
    Prop where
  publication :
    Option.Rel SpellsPublication (section? (Tree.field? "publish" (inside (some t))))
      c.publication
  headers :
    Option.Rel SpellsHeaders (section? (Tree.field? "x-headers" (inside (some t)))) c.headers

def SpellsComponent
    (t : Tree)
    (m : MessageSchema) :
    Prop :=
  SpellsMessage (inside (some t)) m

/-- The entries of the channels of a document. -/
def channelEntries (t : Tree) : Entries :=
  inside (Tree.field? "channels" (inside (some t)))

/-- The entries of the component messages of a document. -/
def componentEntries (t : Tree) : Entries :=
  inside (Tree.field? "messages" (inside (Tree.field? "components" (inside (some t)))))

structure Spells
    (t : Tree)
    (spec : Specification) :
    Prop where
  asyncapi : spec.asyncapi = readText (Tree.field? "asyncapi" (inside (some t)))
  info : spec.info = (section? (Tree.field? "info" (inside (some t)))).map readInfo
  channels : LastSpells SpellsChannel (channelEntries t) spec.channel?
  components : LastSpells SpellsComponent (componentEntries t) spec.messages.get?

end Contents

section Reading

variable {α β : Type}

theorem rel_or
    {r : α → β → Prop}
    {a a' : Option α}
    {b b' : Option β}
    (h : Option.Rel r a b)
    (h' : Option.Rel r a' b') :
    Option.Rel r (a.or a') (b.or b') := by
  cases h with
  | some hab => exact .some hab
  | none => exact h'

theorem rel_imp
    {r q : α → β → Prop}
    (h : ∀ x y, r x y → q x y)
    {a : Option α}
    {b : Option β}
    (hab : Option.Rel r a b) :
    Option.Rel q a b := by
  cases hab with
  | some hxy => exact .some (h _ _ hxy)
  | none => exact .none

theorem eq_map_of_rel
    {r : α → β → Prop}
    {f : α → β}
    (h : ∀ x y, r x y → y = f x)
    {a : Option α}
    {b : Option β}
    (hab : Option.Rel r a b) :
    b = a.map f := by
  cases hab with
  | some hxy => exact congrArg some (h _ _ hxy)
  | none => rfl

theorem eq_of_rel
    {r : α → α → Prop}
    (h : ∀ x y, r x y → x = y)
    {a b : Option α}
    (hab : Option.Rel r a b) :
    a = b := by
  cases hab with
  | some hxy => exact congrArg some (h _ _ hxy)
  | none => rfl

theorem rel_isSome
    {r : α → β → Prop}
    {a : Option α}
    {b : Option β}
    (h : Option.Rel r a b) :
    a.isSome = b.isSome := by
  cases h with
  | some _ => rfl
  | none => rfl

/-- Names are the texts of keys. -/
theorem scalar?_of_readName
    {place : Place}
    {key : Tree}
    {name : String}
    (h : readName place key = .ok name) :
    key.scalar? = some name := by
  cases hkey : key.scalar? with
  | none => simp [readName_of_not_scalar hkey] at h
  | some s =>
      rw [readName_of_scalar hkey] at h
      rw [Except.ok.inj h]

/-- Reading entries keeps the order of the names, and the last value under each of them. -/
theorem readEntries_last?
    {place : Place}
    {read : String → Tree → Shaped α}
    {es : Entries} :
    ∀ {xs : List (String × α)},
      readEntries place read es = .ok xs →
      Pairs.names xs = Pairs.names (named es) ∧
      ∀ name,
        Option.Rel (fun t x => read name t = .ok x)
          (Pairs.last? name (named es)) (Pairs.last? name xs) := by
  induction es with
  | nil =>
      intro xs h
      have hxs : [] = xs := Except.ok.inj h
      subst hxs
      exact ⟨rfl, fun name => .none⟩
  | cons e es ih =>
      intro xs h
      rcases e with ⟨key, t⟩
      rw [readEntries, bind_eq_ok_iff] at h
      rcases h with ⟨j, hj, h⟩
      rw [bind_eq_ok_iff] at h
      rcases h with ⟨x, hx, h⟩
      rw [bind_eq_ok_iff] at h
      rcases h with ⟨ys, hys, h⟩
      have hxs : (j, x) :: ys = xs := Except.ok.inj h
      subst hxs
      obtain ⟨hnames, hlast⟩ := ih hys
      have hnamed : named ((key, t) :: es) = (j, t) :: named es := by
        simp [named, scalar?_of_readName hj]
      rw [hnamed]
      constructor
      · simp only [Pairs.names, List.map_cons, List.cons.injEq, true_and] at hnames ⊢
        exact hnames
      · intro name
        rw [Pairs.last?_cons, Pairs.last?_cons]
        refine rel_or (hlast name) ?_
        by_cases hname : j = name
        · subst hname
          simpa using hx
        · simp [hname]

/-- What a map made of the entries holds under each name. -/
theorem lastSpells_of_readEntries
    {place : Place}
    {read : String → Tree → Shaped α}
    {spells : Tree → α → Prop}
    {es : Entries}
    {xs : List (String × α)}
    (h : readEntries place read es = .ok xs)
    (hread : ∀ name t x, read name t = .ok x → spells t x) :
    LastSpells spells es (SortedMap.ofList xs).get? := by
  intro name
  rw [SortedMap.get?_ofList]
  exact rel_imp (hread name) ((readEntries_last? h).2 name)

/-- A section that may be missing gives a part that may be missing. -/
theorem rel_of_section
    {place : Place}
    {t : Option Tree}
    {f : Option Entries → Shaped (Option α)}
    {spells : Entries → α → Prop}
    {x : Option α}
    (h : (readSection place t >>= f) = .ok x)
    (hnone : ∀ y, f none = .ok y → y = none)
    (hsome : ∀ es y, f (some es) = .ok y → ∃ z, y = some z ∧ spells es z) :
    Option.Rel spells (section? t) x := by
  rw [bind_eq_ok_iff] at h
  rcases h with ⟨es, hes, h⟩
  rw [← section?_of_readSection hes]
  cases es with
  | none =>
      rw [hnone x h]
      exact .none
  | some es =>
      obtain ⟨z, rfl, hz⟩ := hsome es x h
      exact .some hz

theorem spells_of_readProperty
    {place : Place}
    {t : Tree}
    {p : Property}
    (h : readProperty place t = .ok p) :
    SpellsProperty t p := by
  rw [readProperty, bind_eq_ok_iff] at h
  rcases h with ⟨es, hes, h⟩
  rw [SpellsProperty, inside_of_readSection hes, ← Except.ok.inj h]
  cases es with
  | none => rfl
  | some es => rfl

theorem spells_of_readPayload
    {place : Place}
    {es : Entries}
    {p : PayloadSchema}
    (h : readPayload place es = .ok p) :
    SpellsPayload es p := by
  rw [readPayload, bind_eq_ok_iff] at h
  rcases h with ⟨properties, hproperties, h⟩
  rw [bind_eq_ok_iff] at h
  rcases h with ⟨xs, hxs, h⟩
  rw [← inside_of_readSection hproperties] at hxs
  rw [← Except.ok.inj h]
  refine ⟨rfl, ?_⟩
  exact lastSpells_of_readEntries hxs fun name t x hx => spells_of_readProperty hx

theorem spells_of_readMessage
    {place : Place}
    {es : Entries}
    {m : MessageSchema}
    (h : readMessage place es = .ok m) :
    SpellsMessage es m := by
  rw [readMessage, bind_eq_ok_iff] at h
  rcases h with ⟨payload, hpayload, h⟩
  refine ⟨?_⟩
  rw [← section?_of_readSection hpayload]
  cases payload with
  | none =>
      rw [← Except.ok.inj h]
      exact .none
  | some payload =>
      obtain ⟨p, hp, h⟩ := bind_eq_ok_iff.mp h
      rw [← Except.ok.inj h]
      exact .some (spells_of_readPayload hp)

/-- A message with a pointer is spelled by the pointer alone. -/
theorem spells_of_readPublishedMessage
    {place : Place}
    {t : Option Tree}
    {m : Option PublishedMessage}
    (h : readPublishedMessage place t = .ok m) :
    Option.Rel SpellsPublishedMessage (section? t) m := by
  refine rel_of_section h (fun y hy => (Except.ok.inj hy).symm) ?_
  intro es y hy
  cases hr : readText (Tree.field? "$ref" es) with
  | some pointer =>
      simp only [hr] at hy
      exact ⟨_, (Except.ok.inj hy).symm, .reference hr⟩
  | none =>
      simp only [hr] at hy
      obtain ⟨m, hm, hy⟩ := bind_eq_ok_iff.mp hy
      exact ⟨_, (Except.ok.inj hy).symm, .inline hr (spells_of_readMessage hm)⟩

theorem spells_of_readPublication
    {place : Place}
    {t : Option Tree}
    {p : Option Publication}
    (h : readPublication place t = .ok p) :
    Option.Rel SpellsPublication (section? t) p := by
  refine rel_of_section h (fun y hy => (Except.ok.inj hy).symm) ?_
  intro es y hy
  obtain ⟨m, hm, hy⟩ := bind_eq_ok_iff.mp hy
  exact ⟨_, (Except.ok.inj hy).symm, ⟨spells_of_readPublishedMessage hm⟩⟩

/-- A template that is read is the text of its node. -/
theorem readTemplate_eq
    {place : Place}
    {t : Tree}
    {text : String}
    (h : readTemplate place t = .ok text) :
    text = templateText t := by
  cases ht : t.peel with
  | null => simpa [readTemplate, templateText, ht] using h.symm
  | text s => simpa [readTemplate, templateText, Tree.scalar?, ht] using h.symm
  | number n => simpa [readTemplate, templateText, Tree.scalar?, ht] using h.symm
  | bool b => simpa [readTemplate, templateText, Tree.scalar?, ht] using h.symm
  | sequence items => simp [readTemplate, Tree.scalar?, ht] at h
  | mapping es => simp [readTemplate, Tree.scalar?, ht] at h
  | tagged tag u => exact absurd ht (t.peel_not_tagged tag u)

/-- Names in the order of their first entries, with the templates of their last ones. -/
theorem spells_of_readHeaders
    {place : Place}
    {t : Option Tree}
    {headers : Option HeaderTemplates}
    (h : readHeaders place t = .ok headers) :
    Option.Rel SpellsHeaders (section? t) headers := by
  refine rel_of_section h (fun y hy => (Except.ok.inj hy).symm) ?_
  intro es y hy
  obtain ⟨xs, hxs, hy⟩ := bind_eq_ok_iff.mp hy
  refine ⟨_, (Except.ok.inj hy).symm, ?_⟩
  obtain ⟨hnames, hlast⟩ := readEntries_last? hxs
  constructor
  · rw [OrderedMap.names_ofList, hnames]
  · intro name
    rw [OrderedMap.get?_ofList]
    exact eq_map_of_rel (fun t text htext => readTemplate_eq htext) (hlast name)

/-- A null channel publishes nothing and has no headers. -/
theorem spells_of_readChannel
    {place : Place}
    {t : Tree}
    {c : Channel}
    (h : readChannel place t = .ok c) :
    SpellsChannel t c := by
  rw [readChannel, bind_eq_ok_iff] at h
  rcases h with ⟨es, hes, h⟩
  have hinside := inside_of_readSection hes
  cases es with
  | none =>
      rw [← Except.ok.inj h]
      constructor
      · rw [hinside]
        exact .none
      · rw [hinside]
        exact .none
  | some es =>
      obtain ⟨publication, hpublication, h⟩ := bind_eq_ok_iff.mp h
      obtain ⟨headers, hheaders, h⟩ := bind_eq_ok_iff.mp h
      rw [← Except.ok.inj h]
      constructor
      · rw [hinside]
        exact spells_of_readPublication hpublication
      · rw [hinside]
        exact spells_of_readHeaders hheaders

theorem spells_of_readComponent
    {place : Place}
    {t : Tree}
    {m : MessageSchema}
    (h : readComponent place t = .ok m) :
    SpellsComponent t m := by
  rw [readComponent, bind_eq_ok_iff] at h
  rcases h with ⟨es, hes, h⟩
  have hinside := inside_of_readSection hes
  rw [SpellsComponent, hinside]
  cases es with
  | none =>
      rw [← Except.ok.inj h]
      exact ⟨.none⟩
  | some es => exact spells_of_readMessage h

theorem spells_of_readChannels
    {t : Option Tree}
    {channels : SortedMap Channel}
    (h : readChannels t = .ok channels) :
    LastSpells SpellsChannel (inside t) channels.get? := by
  rw [readChannels, bind_eq_ok_iff] at h
  rcases h with ⟨es, hes, h⟩
  obtain ⟨xs, hxs, h⟩ := bind_eq_ok_iff.mp h
  rw [← inside_of_readSection hes] at hxs
  rw [← Except.ok.inj h]
  exact lastSpells_of_readEntries hxs fun topic t c hc => spells_of_readChannel hc

theorem spells_of_readComponents
    {t : Option Tree}
    {messages : SortedMap MessageSchema}
    (h : readComponents t = .ok messages) :
    LastSpells SpellsComponent (inside (Tree.field? "messages" (inside t))) messages.get? := by
  rw [readComponents, bind_eq_ok_iff] at h
  rcases h with ⟨components, hcomponents, h⟩
  obtain ⟨es, hes, h⟩ := bind_eq_ok_iff.mp h
  obtain ⟨xs, hxs, h⟩ := bind_eq_ok_iff.mp h
  rw [← inside_of_readSection hes, ← inside_of_readSection hcomponents] at hxs
  rw [← Except.ok.inj h]
  exact lastSpells_of_readEntries hxs fun name t m hm => spells_of_readComponent hm

/-- A specification that was read is spelled by its document. -/
theorem spells_of_ofTree
    {t : Tree}
    {spec : Specification}
    (h : ofTree t = .ok spec) :
    Spells t spec := by
  cases ht : t.peel with
  | mapping es =>
      have hinside : inside (some t) = es := by
        simp [inside, section?, ht]
      simp only [ofTree, ht] at h
      rw [ofEntries, bind_eq_ok_iff] at h
      rcases h with ⟨info, hinfo, h⟩
      obtain ⟨channels, hchannels, h⟩ := bind_eq_ok_iff.mp h
      obtain ⟨messages, hmessages, h⟩ := bind_eq_ok_iff.mp h
      rw [← Except.ok.inj h]
      constructor
      · rw [hinside]
      · rw [hinside, section?_of_readSection hinfo]
      · rw [channelEntries, hinside]
        exact spells_of_readChannels hchannels
      · rw [componentEntries, hinside]
        exact spells_of_readComponents hmessages
  | _ => simp [ofTree, ht] at h

end Reading

section Uniqueness

variable {α β : Type}

theorem rel_unique
    {r : α → β → Prop}
    (h : ∀ x y z, r x y → r x z → y = z)
    {a : Option α}
    {b c : Option β}
    (hb : Option.Rel r a b)
    (hc : Option.Rel r a c) :
    b = c := by
  cases hb with
  | some hxy =>
      cases hc with
      | some hxz => rw [h _ _ _ hxy hxz]
  | none =>
      cases hc with
      | none => rfl

/-- Maps are equal when the same entries spell them. -/
theorem lastSpells_unique
    {spells : Tree → α → Prop}
    (h : ∀ t x y, spells t x → spells t y → x = y)
    {es : Entries}
    {m n : SortedMap α}
    (hm : LastSpells spells es m.get?)
    (hn : LastSpells spells es n.get?) :
    m = n := by
  apply SortedMap.eq_of_get?
  intro name
  exact rel_unique h (hm name) (hn name)

theorem spellsProperty_unique
    (t : Tree)
    (p q : Property)
    (hp : SpellsProperty t p)
    (hq : SpellsProperty t q) :
    p = q := by
  cases p
  cases q
  exact congrArg Property.mk (hp.trans hq.symm)

theorem spellsPayload_unique
    (es : Entries)
    (p q : PayloadSchema)
    (hp : SpellsPayload es p)
    (hq : SpellsPayload es q) :
    p = q := by
  have htype : p.declaredType = q.declaredType :=
    hp.declaredType.trans hq.declaredType.symm
  have hproperties : p.properties = q.properties :=
    lastSpells_unique spellsProperty_unique hp.properties hq.properties
  cases p
  cases q
  exact congr (congrArg PayloadSchema.mk htype) hproperties

theorem spellsMessage_unique
    (es : Entries)
    (m n : MessageSchema)
    (hm : SpellsMessage es m)
    (hn : SpellsMessage es n) :
    m = n := by
  cases m
  cases n
  exact congrArg MessageSchema.mk (rel_unique spellsPayload_unique hm.payload hn.payload)

/-- No message is both a pointer and written in place. -/
theorem spellsPublishedMessage_unique
    (es : Entries)
    (m n : PublishedMessage)
    (hm : SpellsPublishedMessage es m)
    (hn : SpellsPublishedMessage es n) :
    m = n := by
  cases hm with
  | reference h =>
      cases hn with
      | reference h' =>
          rw [h] at h'
          rw [Option.some.inj h']
      | inline h' _ =>
          rw [h] at h'
          exact absurd h' (Option.some_ne_none _)
  | inline h hm =>
      cases hn with
      | reference h' =>
          rw [h] at h'
          exact absurd h'.symm (Option.some_ne_none _)
      | inline _ hn => rw [spellsMessage_unique es _ _ hm hn]

theorem spellsPublication_unique
    (es : Entries)
    (p q : Publication)
    (hp : SpellsPublication es p)
    (hq : SpellsPublication es q) :
    p = q := by
  cases p
  cases q
  exact congrArg Publication.mk (rel_unique spellsPublishedMessage_unique hp.message hq.message)

/-- Header templates are determined by the order of the names and the templates. -/
theorem spellsHeaders_unique
    (es : Entries)
    (h k : HeaderTemplates)
    (hh : SpellsHeaders es h)
    (hk : SpellsHeaders es k) :
    h = k := by
  apply OrderedMap.eq_of_get?
  · rw [hh.names, hk.names]
  · intro name
    rw [hh.templates, hk.templates]

theorem spellsChannel_unique
    (t : Tree)
    (c d : Channel)
    (hc : SpellsChannel t c)
    (hd : SpellsChannel t d) :
    c = d := by
  have hpublication : c.publication = d.publication :=
    rel_unique spellsPublication_unique hc.publication hd.publication
  have hheaders : c.headers = d.headers :=
    rel_unique spellsHeaders_unique hc.headers hd.headers
  cases c
  cases d
  exact congr (congrArg Channel.mk hpublication) hheaders

/-- What is found under a name depends on the last entry with that name alone. -/
theorem eq_of_last?
    {spells : Tree → α → Prop}
    (h : ∀ t x y, spells t x → spells t y → x = y)
    {es es' : Entries}
    {get? get?' : String → Option α}
    (hes : LastSpells spells es get?)
    (hes' : LastSpells spells es' get?')
    {name : String}
    (hlast : Pairs.last? name (named es) = Pairs.last? name (named es')) :
    get? name = get?' name := by
  have h₁ := hes name
  have h₂ := hes' name
  rw [hlast] at h₁
  exact rel_unique h h₁ h₂

end Uniqueness

section Texts

/-- The text of a scalar, behind all tags: a string is its own text. -/
inductive ScalarText : Tree → String → Prop
  | text (s : String) : ScalarText (.text s) s
  | yes : ScalarText (.bool true) "true"
  | no : ScalarText (.bool false) "false"
  | number
      {n : ExtendedNumber}
      {text : String}
      (h : n.IsText text) :
      ScalarText (.number n) text
  | tagged
      {tag text : String}
      {t : Tree}
      (h : ScalarText t text) :
      ScalarText (.tagged tag t) text

/-- The text of a node is the one that its kind and its value give. -/
theorem scalar?_eq_some_iff
    {t : Tree}
    {text : String} :
    t.scalar? = some text ↔ ScalarText t text := by
  constructor
  · induction t using Tree.peel.induct with
    | case1 tag t ih => exact fun h => .tagged (ih h)
    | case2 t htag =>
        intro h
        cases t with
        | text s =>
            cases h
            exact .text _
        | number n => exact .number (ExtendedNumber.text_eq_iff.mp (Option.some.inj h))
        | bool b =>
            cases h
            cases b with
            | true => exact .yes
            | false => exact .no
        | null => cases h
        | sequence items => cases h
        | mapping es => cases h
        | tagged tag u => exact absurd rfl (htag tag u)
  · intro h
    induction h with
    | text s => rfl
    | yes => rfl
    | no => rfl
    | number h => exact congrArg some (ExtendedNumber.text_eq_iff.mpr h)
    | tagged h ih => exact ih

/-- The template of a scalar is its text. -/
theorem ScalarText.templateText
    {t : Tree}
    {text : String}
    (h : ScalarText t text) :
    Specification.templateText t = text := by
  induction h with
  | text s => rfl
  | yes => rfl
  | no => rfl
  | number h => exact ExtendedNumber.text_eq_iff.mpr h
  | tagged h ih => exact ih

end Texts

section Topics

/-- Entries are named by those of their keys that are scalars. -/
theorem mem_names_named_iff
    {name : String}
    {es : Entries} :
    name ∈ Pairs.names (named es) ↔ ∃ e ∈ es, e.1.scalar? = some name := by
  rw [Pairs.names, named, List.mem_map]
  constructor
  · rintro ⟨p, hp, rfl⟩
    obtain ⟨e, he, hscalar⟩ := List.mem_filterMap.mp hp
    obtain ⟨j, hj, rfl⟩ := Option.map_eq_some_iff.mp hscalar
    exact ⟨e, he, hj⟩
  · rintro ⟨e, he, hscalar⟩
    refine ⟨(name, e.2), List.mem_filterMap.mpr ⟨e, he, ?_⟩, rfl⟩
    rw [hscalar, Option.map_some]

/-- Something is found under a name when an entry has it. -/
theorem LastSpells.isSome_iff
    {α : Type}
    {spells : Tree → α → Prop}
    {es : Entries}
    {get? : String → Option α}
    (h : LastSpells spells es get?)
    (name : String) :
    (get? name).isSome = true ↔ ∃ e ∈ es, e.1.scalar? = some name := by
  rw [← mem_names_named_iff, ← Pairs.last?_isSome_iff, rel_isSome (h name)]

/-- The texts of keys and templates are those of scalars, and a null template is empty.  The topics
of a document are the texts of the keys of its channels, and what is under each of them is spelled
by the last entry with that key. -/
theorem ofTree_last_entry
    {t : Tree}
    {spec : Specification}
    (h : ofTree t = .ok spec) :
    (∀ u text, u.scalar? = some text ↔ ScalarText u text) ∧
    (∀ u text, ScalarText u text → templateText u = text) ∧
    (∀ u, u.peel = .null → templateText u = "") ∧
    spec.topics.Pairwise Text.Precedes ∧
    (∀ topic, topic ∈ spec.topics ↔ ∃ e ∈ channelEntries t, e.1.scalar? = some topic) ∧
    (∀ topic, (spec.channel? topic).isSome = true ↔ topic ∈ spec.topics) ∧
    Spells t spec ∧
    (∀ t' spec', ofTree t' = .ok spec' →
      (∀ topic,
        Pairs.last? topic (named (channelEntries t)) =
            Pairs.last? topic (named (channelEntries t')) →
          spec.channel? topic = spec'.channel? topic) ∧
      (∀ name,
        Pairs.last? name (named (componentEntries t)) =
            Pairs.last? name (named (componentEntries t')) →
          spec.messages.get? name = spec'.messages.get? name)) := by
  have hspells := spells_of_ofTree h
  refine ⟨fun u text => scalar?_eq_some_iff, fun u text => ScalarText.templateText, ?_,
    spec.channels.names_ascending, ?_, ?_, hspells, ?_⟩
  · intro u hu
    rw [templateText, hu]
  · intro topic
    rw [← hspells.channels.isSome_iff topic]
    exact SortedMap.mem_names_iff
  · intro topic
    exact SortedMap.mem_names_iff.symm
  · intro t' spec' h'
    have hspells' := spells_of_ofTree h'
    constructor
    · intro topic hlast
      exact eq_of_last? spellsChannel_unique hspells.channels hspells'.channels hlast
    · intro name hlast
      exact eq_of_last? (fun t => spellsMessage_unique (inside (some t)))
        hspells.components hspells'.components hlast

/-- The keys `1` and `'1'` meet, and so do `true` and `'true'`, and among the headers `h` and
`!t h`.  Templates are numbers too. -/
theorem ofTree_last_entry_colliding :
    let one : Tree := .number (.finite (.integer ⟨1, by decide, by decide⟩))
    let half : Tree :=
      .number (.finite (.float ⟨true, Nat.pow 2 1073, by decide +kernel, by decide +kernel⟩))
    let channel : Tree := .mapping [(.text "x-headers", .mapping
      [(.text "h", .text "x"), (.text "g", .null), (one, .text "0x1F"),
        (.tagged "!t" (.text "h"), .bool true), (.text "1", .tagged "!t" one), (.text "n", half)])]
    let earlier : Tree := .mapping [(.text "publish", .mapping []),
      (.text "x-headers", .mapping [(.text "a", .text "1")])]
    let t : Tree := .mapping [(.text "channels", .mapping
      [(.bool true, earlier), (one, earlier), (.text "true", channel), (.text "1", .null)])]
    let t' : Tree := .mapping [(.text "channels", .mapping
      [(.text "other", .null), (.text "true", channel)])]
    let headers : HeaderTemplates := .ofList [("h", "true"), ("g", ""), ("1", "1"), ("n", "-0.5")]
    let spec : Specification :=
      ⟨none, none, .ofList [("1", ⟨none, none⟩), ("true", ⟨none, some headers⟩)], .empty⟩
    let spec' : Specification :=
      ⟨none, none, .ofList [("other", ⟨none, none⟩), ("true", ⟨none, some headers⟩)], .empty⟩
    ofTree t = .ok spec ∧
      ofTree t' = .ok spec' ∧
      ScalarText one "1" ∧
      ScalarText (.text "1") "1" ∧
      ScalarText half "-0.5" ∧
      spec.topics = ["1", "true"] ∧
      (∀ topic, topic ∈ spec.topics ↔ ∃ e ∈ channelEntries t, e.1.scalar? = some topic) ∧
      Spells t spec ∧
      spec.channel? "true" = spec'.channel? "true" := by
  intro one half channel earlier t t' headers spec spec'
  have h : ofTree t = .ok spec := by decide +kernel
  have h' : ofTree t' = .ok spec' := by decide +kernel
  obtain ⟨htexts, _, _, _, htopics, _, hspells, hdepends⟩ := ofTree_last_entry h
  exact ⟨h, h', (htexts one "1").mp rfl, (htexts (.text "1") "1").mp rfl,
    (htexts half "-0.5").mp (by decide +kernel), rfl, htopics, hspells,
    (hdepends t' spec' h').1 "true" rfl⟩

end Topics

end Specification
end ChannelHeaders
