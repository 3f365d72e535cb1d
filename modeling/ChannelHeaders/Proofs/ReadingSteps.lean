import ChannelHeaders.Specification.Reading

/-!
# The steps of reading a document tree

What single steps of reading give: a reading in two steps, the entries of a section, the
name of an entry, and the value of a field.  Everything that is proved of whole documents
is put together from these steps, so that a section is opened in one place only.

**Results.**
* `bind_eq_ok_iff`: when two steps succeed.
* `section?_of_readSection`, `inside_of_readSection`: what a section is when it is read.
* `field?_append`: a field is looked for in the first entries first.
-/

namespace ChannelHeaders
namespace Specification

open Document

section Steps

variable {α β : Type}

@[simp] theorem ok_bind
    (x : α)
    (f : α → Shaped β) :
    (Except.ok x >>= f) = f x := by
  rfl

@[simp] theorem error_bind
    (e : ShapeError)
    (f : α → Shaped β) :
    (Except.error e >>= f) = .error e := by
  rfl

/-- Two steps succeed when the first does, and the second with its answer. -/
theorem bind_eq_ok_iff
    {r : Shaped α}
    {f : α → Shaped β}
    {y : β} :
    (r >>= f) = .ok y ↔ ∃ x, r = .ok x ∧ f x = .ok y := by
  cases r with
  | ok x => simp
  | error e => simp

end Steps

section Nodes

/-- The entries of a node that is a mapping behind its tags. -/
def section? (t : Option Tree) : Option Entries :=
  match t.map Tree.peel with
  | some (.mapping es) => some es
  | _ => none

/-- The entries of a section that may be missing. -/
def inside (t : Option Tree) : Entries :=
  (section? t).getD []

@[simp] theorem readSection_none (place : Place) :
    readSection place none = .ok none := by
  rfl

/-- A null section is read like a missing one. -/
theorem readSection_null
    {t : Tree}
    (h : t.peel = .null)
    (place : Place) :
    readSection place (some t) = .ok none := by
  simp [readSection, h]

theorem readSection_mapping
    {t : Tree}
    {es : Entries}
    (h : t.peel = .mapping es)
    (place : Place) :
    readSection place (some t) = .ok (some es) := by
  simp [readSection, h]

/-- What is read of a section are its entries, behind all tags. -/
theorem section?_of_readSection
    {place : Place}
    {t : Option Tree}
    {es : Option Entries}
    (h : readSection place t = .ok es) :
    es = section? t := by
  cases t with
  | none =>
      rw [readSection_none] at h
      exact (Except.ok.inj h).symm
  | some t =>
      cases ht : t.peel with
      | null =>
          rw [readSection_null ht] at h
          simp [section?, ht, ← Except.ok.inj h]
      | mapping es' =>
          rw [readSection_mapping ht] at h
          simp [section?, ht, ← Except.ok.inj h]
      | tagged tag u => exact absurd ht (t.peel_not_tagged tag u)
      | _ => simp [readSection, ht] at h

/-- A section that is missing or null has no entries. -/
theorem inside_of_readSection
    {place : Place}
    {t : Option Tree}
    {es : Option Entries}
    (h : readSection place t = .ok es) :
    inside t = es.getD [] := by
  rw [inside, ← section?_of_readSection h]

theorem readName_of_scalar
    {key : Tree}
    {name : String}
    (h : key.scalar? = some name)
    (place : Place) :
    readName place key = .ok name := by
  simp [readName, h]

/-- Only scalars can be names. -/
theorem readName_of_not_scalar
    {key : Tree}
    (h : key.scalar? = none)
    (place : Place) :
    readName place key = .error ⟨place, .scalarKeys⟩ := by
  simp [readName, h]

end Nodes

section Fields

/-- A field is looked for in the first entries first. -/
theorem field?_append
    (name : String)
    (es es' : Entries) :
    Tree.field? name (es ++ es') = (Tree.field? name es).or (Tree.field? name es') := by
  induction es with
  | nil => rfl
  | cons e es ih =>
      rcases e with ⟨key, value⟩
      cases key with
      | text s =>
          by_cases h : s = name
          · simp [Tree.field?, h]
          · simp [Tree.field?, h, ih]
      | _ => simp [Tree.field?, ih]

theorem field?_cons_of_ne
    {name : String}
    {key : Tree}
    (h : key ≠ .text name)
    (value : Tree)
    (es : Entries) :
    Tree.field? name ((key, value) :: es) = Tree.field? name es := by
  cases key with
  | text s =>
      have hs : s ≠ name := by
        rintro rfl
        exact h rfl
      simp [Tree.field?, hs]
  | _ => rfl

theorem field?_cons_self
    (name : String)
    (value : Tree)
    (es : Entries) :
    Tree.field? name ((.text name, value) :: es) = some value := by
  simp [Tree.field?]

end Fields

end Specification
end ChannelHeaders
