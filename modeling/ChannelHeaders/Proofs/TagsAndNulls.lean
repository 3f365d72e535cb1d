import Mathlib
import ChannelHeaders.Proofs.NodeKinds
import ChannelHeaders.Specification.Loading

/-!
# Tags and nulls

Some ways of writing a document differ without meaning.  A value may stand behind tags,
and so may a key that counts by its text.  A known field may be null where it may as well
be left out.  A channel, a component message or a property may be null or an empty
mapping, a template may be null or the empty text, and a text for information or a pointer
that is no scalar is as good as none.

One relation says that the second node is the first one after one such rewriting, at any
depth.  It is indexed by the kind of the node, since a rewriting may be harmless at one
kind only.  Rewritings in any number, in both directions, are the equivalence that the
relation for documents generates.

**Results.**
* `Rewrites.scalar?_eq`: a rewriting keeps the text of a node, unless the node is a template.
* `Rewrites.answer_eq`: a rewriting keeps what is read of a node.
* `load_rewritten`: any number of rewritings of a document.
-/

namespace ChannelHeaders
namespace Specification

open Document

section Rewritings

/-- The second node is the first one after one rewriting. -/
inductive Rewrites : Kind → Tree → Tree → Prop
  | tag
      (k : Kind)
      (tag : String)
      (t : Tree) :
      Rewrites k t (.tagged tag t)
  | behindTag
      {k : Kind}
      (tag : String)
      {t u : Tree}
      (h : Rewrites k t u) :
      Rewrites k (.tagged tag t) (.tagged tag u)
  | item
      {k : Kind}
      (before after : List Tree)
      {t u : Tree}
      (h : Rewrites .unread t u) :
      Rewrites k (.sequence (before ++ t :: after)) (.sequence (before ++ u :: after))
  | value
      {k : Kind}
      (before after : Entries)
      (key : Tree)
      {t u : Tree}
      (h : Rewrites (k.under key) t u) :
      Rewrites k (.mapping (before ++ (key, t) :: after)) (.mapping (before ++ (key, u) :: after))
  /-- Where names are free, a key counts by its text; elsewhere it may be the name of a field. -/
  | key
      {k : Kind}
      (before after : Entries)
      {key key' : Tree}
      (value : Tree)
      (hk : k.element?.isSome = true ∨ ∀ name, key ≠ .text name)
      (h : Rewrites .unread key key') :
      Rewrites k (.mapping (before ++ (key, value) :: after))
        (.mapping (before ++ (key', value) :: after))
  | nullField
      {k f : Kind}
      (before after : Entries)
      {name : String}
      (hname : Pairs.lookup name k.fields = some f)
      (habsent : Tree.field? name (before ++ after) = none) :
      Rewrites k (.mapping (before ++ after)) (.mapping (before ++ (.text name, .null) :: after))
  /-- A text for information, or a pointer, that is no scalar. -/
  | ignoredText
      {k : Kind}
      (before after : Entries)
      {name : String}
      {value : Tree}
      (hname : Pairs.lookup name k.fields = some .text)
      (habsent : Tree.field? name (before ++ after) = none)
      (hvalue : value.scalar? = none) :
      Rewrites k (.mapping (before ++ after)) (.mapping (before ++ (.text name, value) :: after))
  | emptyMapping
      {k : Kind}
      (hk : k = .channel ∨ k = .message ∨ k = .property) :
      Rewrites k .null (.mapping [])
  | emptyTemplate :
      Rewrites .template .null (.text "")

end Rewritings

section Keys

/-- Only a template changes its text, from null to the empty one. -/
theorem Rewrites.scalar?_eq
    {k : Kind}
    {t u : Tree}
    (h : Rewrites k t u)
    (hk : k ≠ .template) :
    t.scalar? = u.scalar? := by
  induction h with
  | tag k tag t => rfl
  | behindTag tag h ih => exact ih hk
  | emptyTemplate => exact absurd rfl hk
  | _ => rfl

/-- A key that is no name of a field does not become one. -/
theorem Rewrites.ne_text
    {key key' : Tree}
    (h : Rewrites .unread key key')
    (name : String) :
    key' ≠ .text name := by
  cases h <;> simp

end Keys

section Entries

variable {f : Kind}

theorem SameNamed.replace
    (before after : Entries)
    {e e' : Tree × Tree}
    (hkey : e.1.scalar? = e'.1.scalar?)
    (hvalue : f.answer e.2 = f.answer e'.2) :
    SameNamed f (before ++ e :: after) (before ++ e' :: after) := by
  have hsame : ∀ es : Entries, SameNamed f es es := by
    intro es
    exact List.forall₂_same.mpr fun _ _ => ⟨rfl, rfl⟩
  exact List.rel_append (hsame before) (.cons ⟨hkey, hvalue⟩ (hsame after))

/-- A field after a change of one value. -/
theorem answer_field_replace
    (name : String)
    (before after : Entries)
    {key t u : Tree}
    (h : key = .text name → f.answer t = f.answer u) :
    f.answer (fieldOrNull name (before ++ (key, t) :: after)) =
      f.answer (fieldOrNull name (before ++ (key, u) :: after)) := by
  by_cases hkey : key = .text name
  · subst hkey
    cases hbefore : Tree.field? name before with
    | none => simpa [fieldOrNull, field?_append, hbefore, field?_cons_self] using h rfl
    | some v => simp [fieldOrNull, field?_append, hbefore]
  · simp [fieldOrNull, field?_append, field?_cons_of_ne hkey]

/-- A field after one entry more, which is read like null. -/
theorem answer_field_insert
    (name : String)
    (before after : Entries)
    {j : String}
    {value : Tree}
    (habsent : Tree.field? j (before ++ after) = none)
    (h : j = name → f.answer .null = f.answer value) :
    f.answer (fieldOrNull name (before ++ after)) =
      f.answer (fieldOrNull name (before ++ (.text j, value) :: after)) := by
  rw [field?_append, Option.or_eq_none_iff] at habsent
  by_cases hj : j = name
  · subst hj
    simpa [fieldOrNull, field?_append, habsent, field?_cons_self] using h rfl
  · have hkey : Tree.text j ≠ .text name := by
      intro heq
      exact hj (Tree.text.inj heq)
    simp [fieldOrNull, field?_append, field?_cons_of_ne hkey]

end Entries

section Answers

theorem answer_text_of_scalar
    {t u : Tree}
    (h : t.scalar? = u.scalar?) :
    Kind.text.answer t = Kind.text.answer u :=
  h

/-- A rewriting keeps what is read of a node. -/
theorem Rewrites.answer_eq
    {k : Kind}
    {t u : Tree}
    (h : Rewrites k t u) :
    k.answer t = k.answer u := by
  induction h with
  | tag k tag t => exact (answer_tagged k tag t).symm
  | behindTag tag h ih => rw [answer_tagged, answer_tagged, ih]
  | item before after h ih => exact answer_sequence _ _ _
  | @value k before after key t u h ih =>
      -- A value is read by the text of its key where names are free, and as a field elsewhere.
      cases hk : k.element? with
      | some f =>
          rw [Kind.under_of_element hk] at ih
          exact answer_congr_named hk (.replace before after rfl ih)
      | none =>
          refine answer_congr_fields hk ?_
          intro name f hname
          refine answer_field_replace name before after ?_
          rintro rfl
          rwa [Kind.under_text hk, Kind.fieldKind, hname] at ih
  | @key k before after key key' value hfree h ih =>
      cases hk : k.element? with
      | some f =>
          exact answer_congr_named hk (.replace before after (h.scalar?_eq (by decide)) rfl)
      | none =>
          have hkey : ∀ name, key ≠ .text name := by
            simpa [hk] using hfree
          refine answer_congr_fields hk ?_
          intro name f hname
          simp [fieldOrNull, field?_append, field?_cons_of_ne (hkey name),
            field?_cons_of_ne (h.ne_text name)]
  | @nullField k f before after name hname habsent =>
      refine answer_congr_fields (Kind.element?_of_field hname) ?_
      intro name' f' _
      exact answer_field_insert name' before after habsent fun _ => rfl
  | @ignoredText k before after name value hname habsent hvalue =>
      refine answer_congr_fields (Kind.element?_of_field hname) ?_
      intro name' f' hname'
      refine answer_field_insert name' before after habsent ?_
      rintro rfl
      obtain rfl := Option.some.inj (hname.symm.trans hname')
      exact answer_text_of_scalar hvalue.symm
  | emptyMapping hk => rcases hk with rfl | rfl | rfl <;> rfl
  | emptyTemplate => rfl

end Answers

section Documents

/-- Rewritings in any number and at any places leave the answer to a document as it is. -/
theorem load_rewritten
    {t u : Tree}
    (h : Relation.EqvGen (Rewrites .document) t u) :
    ofTree t = ofTree u ∧
    (∀ document document',
      Document.read document = .ok t →
      Document.read document' = .ok u →
      load document = load document') := by
  have hread : ofTree t = ofTree u := by
    induction h with
    | rel t u hrewrites => exact hrewrites.answer_eq
    | refl t => rfl
    | symm t u _ ih => exact ih.symm
    | trans t u v _ _ ih₁ ih₂ => exact ih₁.trans ih₂
  refine ⟨hread, ?_⟩
  intro document document' hdocument hdocument'
  rw [load, load, hdocument, hdocument']
  simp only [hread]

set_option maxRecDepth 3000 in
/-- A null channel becomes an empty mapping, the document gets a version that is a list, and then
the topic gets a tag. -/
theorem load_rewritten_orders :
    let document : Entries → Tree → Tree → Tree := fun first topic channel =>
      .mapping (first ++ [(.text "channels", .mapping [(topic, channel)])])
    let version : Entries := [(.text "asyncapi", .sequence [])]
    let t := document [] (.text "orders") .null
    let t₁ := document version (.text "orders") (.mapping [])
    let t₂ := document version (.tagged "!x" (.text "orders")) (.mapping [])
    let spec : Specification := ⟨none, none, .ofList [("orders", ⟨none, none⟩)], .empty⟩
    let bytes := "\x7b\"channels\":\x7b\"orders\":null\x7d\x7d".toUTF8
    let bytes₁ := "\x7b\"asyncapi\":[],\"channels\":\x7b\"orders\":\x7b\x7d\x7d\x7d".toUTF8
    Relation.EqvGen (Rewrites .document) t t₁ ∧
      Relation.EqvGen (Rewrites .document) t₂ t ∧
      ofTree t₂ = .ok spec ∧
      load bytes = .ok spec ∧
      load bytes = load bytes₁ := by
  intro document version t t₁ t₂ spec bytes bytes₁
  have hchannel : Rewrites .document t (document [] (.text "orders") (.mapping [])) :=
    .value [] [] _ (.value [] [] _ (.emptyMapping (Or.inl rfl)))
  have hversion : Rewrites .document (document [] (.text "orders") (.mapping [])) t₁ :=
    .ignoredText [] _ rfl rfl rfl
  have htopic : Rewrites .document t₁ t₂ :=
    .value version [] _ (.key [] [] _ (Or.inl rfl) (.tag _ _ _))
  have h₁ : Relation.EqvGen (Rewrites .document) t t₁ :=
    .trans _ _ _ (.rel _ _ hchannel) (.rel _ _ hversion)
  have h₂ : Relation.EqvGen (Rewrites .document) t₂ t :=
    .symm _ _ (.trans _ _ _ h₁ (.rel _ _ htopic))
  have hread : Document.read bytes = .ok t := by
    simp only [bytes, t, document]
    cbv
  have hread₁ : Document.read bytes₁ = .ok t₁ := by
    simp only [bytes₁, t₁, document, version]
    cbv
  have hspec : ofTree t = .ok spec := by rfl
  refine ⟨h₁, h₂, (load_rewritten h₂).1.trans hspec, ?_,
    (load_rewritten h₁).2 bytes bytes₁ hread hread₁⟩
  rw [load, hread]
  simp only [hspec]

end Documents

end Specification
end ChannelHeaders
