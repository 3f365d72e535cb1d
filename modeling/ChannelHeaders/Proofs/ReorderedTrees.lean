import Mathlib.Data.List.Forall2
import Mathlib.Data.List.Perm.Basic
import ChannelHeaders.Proofs.DocumentContents
import ChannelHeaders.Proofs.NodeKinds

/-!
# Reordered document trees

A mapping lists its entries in an order, and another order gives another tree.  This
module relates a tree to the trees in which mappings at any depth list their entries in
another order, and says what survives.  The relation takes the kinds of mappings that may
be reordered, so that the mappings of some kind can be left in their order.

Two conditions keep entries apart.  No mapping repeats a key, which the readers of
documents ensure.  No two entries of a mapping that is keyed by free names have the same
text as their key, which they do not ensure; only mappings that are looked at count.

**Results.**
* `Matches.field`: a known field has a matching value after a reordering.
* `Matches.named`: entries under free names are a permutation of matching entries.
* `Reorders.scalar?_eq`: a reordering keeps the text of a node.
-/

namespace ChannelHeaders
namespace Specification

open Document

section Relations

mutual

/-- The second tree is the first one with mappings of the given kinds in another order. -/
inductive Reorders (may : Kind → Prop) : Kind → Tree → Tree → Prop
  | same
      (k : Kind)
      (t : Tree) :
      Reorders may k t t
  | tagged
      {k : Kind}
      (tag : String)
      {t u : Tree}
      (h : Reorders may k t u) :
      Reorders may k (.tagged tag t) (.tagged tag u)
  | sequence
      {k : Kind}
      {xs ys : List Tree}
      (h : ReordersItems may xs ys) :
      Reorders may k (.sequence xs) (.sequence ys)
  | mapping
      {k : Kind}
      {es mid es' : Entries}
      (horder : es.Perm mid)
      (hmay : may k ∨ es = mid)
      (h : ReordersEntries may k mid es') :
      Reorders may k (.mapping es) (.mapping es')

/-- The items of a sequence, one by one. -/
inductive ReordersItems (may : Kind → Prop) : List Tree → List Tree → Prop
  | nil : ReordersItems may [] []
  | cons
      {t u : Tree}
      {ts us : List Tree}
      (h : Reorders may .unread t u)
      (hs : ReordersItems may ts us) :
      ReordersItems may (t :: ts) (u :: us)

/-- The keys and values of a mapping, one by one. -/
inductive ReordersEntries (may : Kind → Prop) : Kind → Entries → Entries → Prop
  | nil (k : Kind) : ReordersEntries may k [] []
  | cons
      {k : Kind}
      {key key' t u : Tree}
      {es es' : Entries}
      (hkey : Reorders may .unread key key')
      (hvalue : Reorders may (k.under key) t u)
      (hs : ReordersEntries may k es es') :
      ReordersEntries may k ((key, t) :: es) ((key', u) :: es')

end

mutual

/-- No mapping repeats a key, at any depth. -/
def DistinctKeys : Tree → Prop
  | .sequence items => DistinctKeysItems items
  | .mapping es => Tree.distinctKeys es = true ∧ DistinctKeysEntries es
  | .tagged _ t => DistinctKeys t
  | _ => True

/-- No item of a sequence repeats a key. -/
def DistinctKeysItems : List Tree → Prop
  | [] => True
  | t :: ts => DistinctKeys t ∧ DistinctKeysItems ts

/-- No key and no value of a mapping repeats a key. -/
def DistinctKeysEntries : Entries → Prop
  | [] => True
  | (key, t) :: es => DistinctKeys key ∧ DistinctKeys t ∧ DistinctKeysEntries es

end

/-- The kind as which the values of a mapping are looked at: a pointer hides the rest of a published
message. -/
def Kind.visible
    (k : Kind)
    (es : Entries) :
    Kind :=
  if k = .publishedMessage ∧ (readText (Tree.field? "$ref" es)).isSome = true then .unread else k

mutual

/-- No two entries under free names have the same name, wherever names are looked at. -/
def NamesApart : Kind → Tree → Prop
  | k, .tagged _ t => NamesApart k t
  | k, .mapping es =>
      (k.element?.isSome = true → (Pairs.names (named es)).Nodup) ∧ NamesApartIn (k.visible es) es
  | _, _ => True

/-- The names inside the values of a mapping are apart. -/
def NamesApartIn : Kind → Entries → Prop
  | _, [] => True
  | k, (key, t) :: es => NamesApart (k.under key) t ∧ NamesApartIn k es

end

/-- A node and a reordered one, without repeated keys and, if that is claimed, with names that are
apart. -/
structure Matches
    (may : Kind → Prop)
    (apart : Prop)
    (k : Kind)
    (t u : Tree) :
    Prop where
  reorders : Reorders may k t u
  distinct : DistinctKeys t
  apart : apart → NamesApart k t

end Relations

section Inside

variable {may : Kind → Prop}
variable {apart : Prop}
variable {k : Kind}

/-- The keys are distinct inside every entry. -/
theorem DistinctKeysEntries.of_mem
    {es : Entries}
    (h : DistinctKeysEntries es) :
    ∀ e ∈ es, DistinctKeys e.2 := by
  induction es with
  | nil =>
      intro e he
      exact absurd he List.not_mem_nil
  | cons e es ih =>
      intro e' he'
      rcases List.mem_cons.mp he' with rfl | he'
      · exact h.2.1
      · exact ih h.2.2 e' he'

theorem NamesApartIn.of_mem
    {es : Entries}
    (h : NamesApartIn k es) :
    ∀ e ∈ es, NamesApart (k.under e.1) e.2 := by
  induction es with
  | nil =>
      intro e he
      exact absurd he List.not_mem_nil
  | cons e es ih =>
      intro e' he'
      rcases List.mem_cons.mp he' with rfl | he'
      · exact h.1
      · exact ih h.2 e' he'

theorem DistinctKeys.peel
    {t : Tree}
    (h : DistinctKeys t) :
    DistinctKeys t.peel := by
  fun_induction Tree.peel t with
  | case1 tag t ih => exact ih h
  | case2 t hnot => exact h

theorem NamesApart.peel
    {t : Tree}
    (h : NamesApart k t) :
    NamesApart k t.peel := by
  fun_induction Tree.peel t with
  | case1 tag t ih => exact ih h
  | case2 t hnot => exact h

theorem Reorders.peel : ∀ {t u : Tree}, Reorders may k t u → Reorders may k t.peel u.peel
  | _, _, .same _ t => .same _ t.peel
  | _, _, .tagged _ h => h.peel
  | _, _, .sequence h => .sequence h
  | _, _, .mapping horder hmay h => .mapping horder hmay h

theorem Matches.peel
    {t u : Tree}
    (h : Matches may apart k t u) :
    Matches may apart k t.peel u.peel :=
  ⟨h.reorders.peel, h.distinct.peel, fun ha => (h.apart ha).peel⟩

/-- The text of a node stays. -/
theorem Reorders.scalar?_eq : ∀ {t u : Tree}, Reorders may k t u → t.scalar? = u.scalar?
  | _, _, .same _ _ => rfl
  | _, _, .tagged _ h => h.scalar?_eq
  | _, _, .sequence _ => rfl
  | _, _, .mapping _ _ _ => rfl

/-- Reordering keeps texts, and makes none. -/
theorem Reorders.eq_text_iff
    {t u : Tree}
    (h : Reorders may k t u)
    (s : String) :
    t = .text s ↔ u = .text s := by
  cases h <;> simp

theorem ReordersEntries.forall₂
    {es es' : Entries}
    (h : ReordersEntries may k es es') :
    List.Forall₂ (fun e e' =>
      Reorders may .unread e.1 e'.1 ∧ Reorders may (k.under e.1) e.2 e'.2) es es' := by
  induction es generalizing es' with
  | nil =>
      cases h
      exact .nil
  | cons e es ih =>
      cases h with
      | cons hkey hvalue hs => exact .cons ⟨hkey, hvalue⟩ (ih hs)

/-- The entries of a reordered mapping are a permutation of entries that match one by one. -/
theorem Matches.entries
    {es es' : Entries}
    (h : Matches may apart k (.mapping es) (.mapping es'))
    (hvisible : apart → k.visible es = k) :
    ∃ mid, es.Perm mid ∧ (may k ∨ es = mid) ∧
      List.Forall₂ (fun e e' =>
        Reorders may .unread e.1 e'.1 ∧ Matches may apart (k.under e.1) e.2 e'.2) mid es' := by
  have hin : ∀ e ∈ es, DistinctKeys e.2 ∧ (apart → NamesApart (k.under e.1) e.2) := by
    intro e he
    refine ⟨h.distinct.2.of_mem e he, fun ha => ?_⟩
    have hnames := (h.apart ha).2
    rw [hvisible ha] at hnames
    exact hnames.of_mem e he
  obtain ⟨mid, horder, hmay, hpairs⟩ : ∃ mid, es.Perm mid ∧ (may k ∨ es = mid) ∧
      List.Forall₂ (fun e e' =>
        Reorders may .unread e.1 e'.1 ∧ Reorders may (k.under e.1) e.2 e'.2) mid es' := by
    cases h.reorders with
    | same =>
        refine ⟨es, .refl es, Or.inr rfl, List.forall₂_same.mpr ?_⟩
        intro e _
        exact ⟨.same _ _, .same _ _⟩
    | mapping horder hmay hs => exact ⟨_, horder, hmay, hs.forall₂⟩
  refine ⟨mid, horder, hmay, ?_⟩
  have hmid : ∀ e ∈ mid, DistinctKeys e.2 ∧ (apart → NamesApart (k.under e.1) e.2) := by
    intro e he
    exact hin e (horder.mem_iff.mpr he)
  refine ((List.forall₂_and_left mid es').mpr ⟨hmid, hpairs⟩).imp ?_
  intro e e' he
  exact ⟨he.2.1, he.2.2, he.1.1, he.1.2⟩

end Inside

section Fields

variable {may : Kind → Prop}
variable {apart : Prop}
variable {k : Kind}

/-- The entries whose keys are untagged texts. -/
def fieldEntries (es : Entries) : List (String × Tree) :=
  es.filterMap fun e =>
    match e.1 with
    | .text name => some (name, e.2)
    | _ => none

/-- Fields are looked up among the entries with text keys. -/
theorem field?_eq_lookup
    (name : String)
    (es : Entries) :
    Tree.field? name es = Pairs.lookup name (fieldEntries es) := by
  induction es with
  | nil => rfl
  | cons e es ih =>
      rcases e with ⟨key, t⟩
      cases key with
      | text s => simp [Tree.field?, fieldEntries, Pairs.lookup, ih]
      | _ => simpa [Tree.field?, fieldEntries] using ih

theorem nodup_names_fieldEntries
    {es : Entries}
    (h : Tree.distinctKeys es = true) :
    (Pairs.names (fieldEntries es)).Nodup := by
  induction es with
  | nil => exact List.nodup_nil
  | cons e es ih =>
      rcases e with ⟨key, t⟩
      rw [Tree.distinctKeys, Bool.and_eq_true, List.all_eq_true] at h
      cases key with
      | text s =>
          refine List.nodup_cons.mpr ⟨?_, ih h.2⟩
          intro hmem
          obtain ⟨p, hp, hs⟩ := List.mem_map.mp hmem
          obtain ⟨⟨key, u⟩, he, hkey⟩ := List.mem_filterMap.mp hp
          cases key with
          | text s' =>
              obtain rfl := Option.some.inj hkey
              subst hs
              simpa [Tree.same] using h.1 _ he
          | _ => cases hkey
      | _ => exact ih h.2

/-- Without repeated keys, the order of entries does not matter for a field. -/
theorem field?_perm
    {es mid : Entries}
    (h : Tree.distinctKeys es = true)
    (horder : es.Perm mid)
    (name : String) :
    Tree.field? name es = Tree.field? name mid := by
  rw [field?_eq_lookup, field?_eq_lookup]
  exact Pairs.lookup_perm (nodup_names_fieldEntries h) (horder.filterMap _) name

/-- A known field has a matching value, or is absent from both mappings. -/
theorem Matches.field
    {es es' : Entries}
    (h : Matches may apart k (.mapping es) (.mapping es'))
    (hvisible : apart → k.visible es = k)
    (name : String)
    (f : Kind)
    (hname : Pairs.lookup name k.fields = some f) :
    Matches may apart f (fieldOrNull name es) (fieldOrNull name es') := by
  obtain ⟨mid, horder, -, hpairs⟩ := h.entries hvisible
  rw [fieldOrNull, field?_perm h.distinct.1 horder, fieldOrNull]
  have hunder : k.under (.text name) = f := by
    rw [Kind.under_text (Kind.element?_of_field hname), Kind.fieldKind, hname, Option.getD_some]
  clear horder h hvisible
  -- Keys that are untagged texts stay, so the field is found at the same place on both sides.
  induction hpairs with
  | nil => exact ⟨.same f .null, trivial, fun _ => trivial⟩
  | @cons e e' mid es' he hes ih =>
      rcases e with ⟨key, t⟩
      rcases e' with ⟨key', u⟩
      by_cases hkey : key = .text name
      · obtain rfl := (he.1.eq_text_iff name).mp hkey
        subst hkey
        rw [field?_cons_self, field?_cons_self]
        exact hunder ▸ he.2
      · have hkey' : key' ≠ .text name := by
          rwa [ne_eq, ← he.1.eq_text_iff name]
        rwa [field?_cons_of_ne hkey, field?_cons_of_ne hkey']

/-- The entries of a reordered mapping under free names: the same texts as keys, and matching
values. -/
theorem Matches.named
    {es es' : Entries}
    (h : Matches may apart k (.mapping es) (.mapping es'))
    {f : Kind}
    (hk : k.element? = some f) :
    ∃ mid, es.Perm mid ∧ (may k ∨ es = mid) ∧
      List.Forall₂ (fun e e' => e.1.scalar? = e'.1.scalar? ∧ Matches may apart f e.2 e'.2) mid es' ∧
      (apart → (Pairs.names (named es)).Nodup) := by
  have hvisible : apart → k.visible es = k := by
    intro _
    refine if_neg ?_
    rintro ⟨rfl, -⟩
    cases hk
  obtain ⟨mid, horder, hmay, hpairs⟩ := h.entries hvisible
  refine ⟨mid, horder, hmay, hpairs.imp ?_, ?_⟩
  · intro e e' he
    rw [Kind.under_of_element hk] at he
    exact ⟨he.1.scalar?_eq, he.2⟩
  · intro ha
    refine (h.apart ha).1 ?_
    rw [hk, Option.isSome_some]

end Fields

end Specification
end ChannelHeaders
