import Mathlib
import ChannelHeaders.Proofs.ReadingSteps
import ChannelHeaders.Specification.Loading

/-!
# The shape of specification documents

Which document trees spell a specification, and what is reported of the others.

The shape is a grammar of its own: optional sections, mappings keyed by scalars, and
templates, put together as the sections of a document are.  A tree may violate it in many
places.  All violations are listed in the order in which a document is read: first `info`,
then the channels in document order, in each of them the publication before the headers,
then the components.  Nothing is listed inside a node that is itself in violation, because
what is inside it has no place.

**Results.**
* `violations_eq_nil_iff`: a tree has the shape when it has no violation.
* `firstViolation_ofTree`: reading a tree reports its first violation.
* `load_first_violation`: both together, for every tree and every document.
-/

namespace ChannelHeaders
namespace Specification

open Document

section Grammar

/-- A node that is a string, a number or a boolean. -/
inductive IsScalar (t : Tree) : Prop
  | text
      {s : String}
      (h : t.peel = .text s)
  | number
      {n : ExtendedNumber}
      (h : t.peel = .number n)
  | bool
      {b : Bool}
      (h : t.peel = .bool b)

/-- A node that is absent, null, or a mapping with the given inside. -/
inductive OptionalSection (inside : Entries → Prop) : Option Tree → Prop
  | absent : OptionalSection inside none
  | null
      {t : Tree}
      (h : t.peel = .null) :
      OptionalSection inside (some t)
  | mapping
      {t : Tree}
      {es : Entries}
      (h : t.peel = .mapping es)
      (hes : inside es) :
      OptionalSection inside (some t)

/-- The entries of a mapping with scalar keys and the given values. -/
def Keyed
    (value : Tree → Prop)
    (es : Entries) :
    Prop :=
  ∀ e ∈ es, IsScalar e.1 ∧ value e.2

def PropertyShape (t : Tree) : Prop :=
  OptionalSection (fun _ => True) (some t)

def PayloadShape (es : Entries) : Prop :=
  OptionalSection (Keyed PropertyShape) (Tree.field? "properties" es)

def MessageShape (es : Entries) : Prop :=
  OptionalSection PayloadShape (Tree.field? "payload" es)

/-- With a pointer, the other fields of a published message are free. -/
def PublishedMessageShape (es : Entries) : Prop :=
  (∃ t, Tree.field? "$ref" es = some t ∧ IsScalar t) ∨ MessageShape es

def PublicationShape (es : Entries) : Prop :=
  OptionalSection PublishedMessageShape (Tree.field? "message" es)

def TemplateShape (t : Tree) : Prop :=
  t.peel = .null ∨ IsScalar t

def ChannelShape (es : Entries) : Prop :=
  OptionalSection PublicationShape (Tree.field? "publish" es) ∧
  OptionalSection (Keyed TemplateShape) (Tree.field? "x-headers" es)

def ComponentsShape (es : Entries) : Prop :=
  OptionalSection (Keyed fun t => OptionalSection MessageShape (some t))
    (Tree.field? "messages" es)

/-- The shape of a document. -/
def WellShaped (t : Tree) : Prop :=
  ∃ es,
    t.peel = .mapping es ∧
    OptionalSection (fun _ => True) (Tree.field? "info" es) ∧
    OptionalSection (Keyed fun c => OptionalSection ChannelShape (some c))
      (Tree.field? "channels" es) ∧
    OptionalSection ComponentsShape (Tree.field? "components" es)

end Grammar

section Violations

/-- A node that is not as expected: the text of its place and of the expectation. -/
structure Violation where
  path : String
  expected : String
deriving DecidableEq

/-- The path of a field of the node at a path. -/
def fieldPath (path name : String) : String :=
  path ++ "." ++ name

/-- The path of the entry under a free name of the mapping at a path. -/
def entryPath (path name : String) : String :=
  path ++ "[" ++ name ++ "]"

def sectionViolations
    (path : String)
    (inside : Entries → List Violation)
    (t : Option Tree) :
    List Violation :=
  match t.map Tree.peel with
  | none => []
  | some .null => []
  | some (.mapping es) => inside es
  | some _ => [⟨path, "a mapping"⟩]

/-- An entry without a name has no place for its value; only its key is in violation. -/
def entryViolations
    (path : String)
    (value : String → Tree → List Violation)
    (es : Entries) :
    List Violation :=
  es.flatMap fun e =>
    match e.1.scalar? with
    | some name => value name e.2
    | none => [⟨path, "keyed by strings"⟩]

def propertyViolations
    (path : String)
    (t : Tree) :
    List Violation :=
  sectionViolations path (fun _ => []) (some t)

def payloadViolations
    (path : String)
    (es : Entries) :
    List Violation :=
  let here := fieldPath path "properties"
  sectionViolations here
    (entryViolations here fun name => propertyViolations (fieldPath here name))
    (Tree.field? "properties" es)

def messageViolations
    (path : String)
    (es : Entries) :
    List Violation :=
  let here := fieldPath path "payload"
  sectionViolations here (payloadViolations here) (Tree.field? "payload" es)

def publishedMessageViolations
    (path : String)
    (es : Entries) :
    List Violation :=
  if (readText (Tree.field? "$ref" es)).isSome then [] else messageViolations path es

def publicationViolations
    (path : String)
    (es : Entries) :
    List Violation :=
  let here := fieldPath path "message"
  sectionViolations here (publishedMessageViolations here) (Tree.field? "message" es)

def templateViolations
    (path : String)
    (t : Tree) :
    List Violation :=
  match t.peel with
  | .sequence _ => [⟨path, "a string template"⟩]
  | .mapping _ => [⟨path, "a string template"⟩]
  | _ => []

def headersViolations
    (path : String)
    (es : Entries) :
    List Violation :=
  entryViolations path (fun name => templateViolations (fieldPath path name)) es

def channelViolations
    (path : String)
    (es : Entries) :
    List Violation :=
  let publish := fieldPath path "publish"
  let headers := fieldPath path "x-headers"
  sectionViolations publish (publicationViolations publish) (Tree.field? "publish" es) ++
    sectionViolations headers (headersViolations headers) (Tree.field? "x-headers" es)

def channelsViolations
    (path : String)
    (es : Entries) :
    List Violation :=
  entryViolations path
    (fun topic t =>
      sectionViolations (entryPath path topic) (channelViolations (entryPath path topic))
        (some t))
    es

def componentsViolations
    (path : String)
    (es : Entries) :
    List Violation :=
  let here := fieldPath path "messages"
  sectionViolations here
    (entryViolations here fun name t =>
      sectionViolations (entryPath here name) (messageViolations (entryPath here name))
        (some t))
    (Tree.field? "messages" es)

/-- The violations of a document tree, in the order of reading. -/
def violations (t : Tree) : List Violation :=
  match t.peel with
  | .mapping es =>
      sectionViolations "info" (fun _ => []) (Tree.field? "info" es) ++
        (sectionViolations "channels" (channelsViolations "channels")
            (Tree.field? "channels" es) ++
          sectionViolations "components" (componentsViolations "components")
            (Tree.field? "components" es))
  | _ => [⟨"document", "a mapping"⟩]

end Violations

section NoViolation

/-- A node is a scalar when it has a text. -/
theorem isScalar_iff {t : Tree} : IsScalar t ↔ t.scalar?.isSome = true := by
  constructor
  · intro h
    cases h with
    | text h => simp [Tree.scalar?, h]
    | number h => simp [Tree.scalar?, h]
    | bool h => simp [Tree.scalar?, h]
  · intro h
    cases ht : t.peel with
    | text s => exact .text ht
    | number n => exact .number ht
    | bool b => exact .bool ht
    | null => simp [Tree.scalar?, ht] at h
    | sequence items => simp [Tree.scalar?, ht] at h
    | mapping es => simp [Tree.scalar?, ht] at h
    | tagged tag u => exact absurd ht (t.peel_not_tagged tag u)

/-- A section is in order when it is absent, or when what is inside is in order. -/
theorem sectionViolations_eq_nil_iff
    {path : String}
    {inside : Entries → List Violation}
    {shape : Entries → Prop}
    (h : ∀ es, inside es = [] ↔ shape es)
    (t : Option Tree) :
    sectionViolations path inside t = [] ↔ OptionalSection shape t := by
  cases t with
  | none =>
      exact ⟨fun _ => .absent, fun _ => rfl⟩
  | some t =>
      constructor
      · intro hnil
        cases ht : t.peel with
        | null => exact .null ht
        | mapping es =>
            refine .mapping ht ((h es).mp ?_)
            simpa [sectionViolations, ht] using hnil
        | text s => simp [sectionViolations, ht] at hnil
        | number n => simp [sectionViolations, ht] at hnil
        | bool b => simp [sectionViolations, ht] at hnil
        | sequence items => simp [sectionViolations, ht] at hnil
        | tagged tag u => exact absurd ht (t.peel_not_tagged tag u)
      · intro hshape
        cases hshape with
        | null ht => simp [sectionViolations, ht]
        | mapping ht hes => simpa [sectionViolations, ht] using (h _).mpr hes

/-- Entries are in order when every key is a scalar and every value is in order. -/
theorem entryViolations_eq_nil_iff
    {path : String}
    {value : String → Tree → List Violation}
    {shape : Tree → Prop}
    (h : ∀ name t, value name t = [] ↔ shape t)
    (es : Entries) :
    entryViolations path value es = [] ↔ Keyed shape es := by
  rw [entryViolations, List.flatMap_eq_nil_iff]
  refine forall_congr' fun e => forall_congr' fun _ => ?_
  rw [isScalar_iff]
  cases e.1.scalar? with
  | none => simp
  | some name => simp [h]

theorem propertyViolations_eq_nil_iff
    (path : String)
    (t : Tree) :
    propertyViolations path t = [] ↔ PropertyShape t :=
  sectionViolations_eq_nil_iff (fun _ => by simp) _

theorem payloadViolations_eq_nil_iff
    (path : String)
    (es : Entries) :
    payloadViolations path es = [] ↔ PayloadShape es := by
  refine sectionViolations_eq_nil_iff (fun es => ?_) _
  exact entryViolations_eq_nil_iff (fun _ t => propertyViolations_eq_nil_iff _ t) es

theorem messageViolations_eq_nil_iff
    (path : String)
    (es : Entries) :
    messageViolations path es = [] ↔ MessageShape es :=
  sectionViolations_eq_nil_iff (payloadViolations_eq_nil_iff _) _

/-- Behind a pointer a message is not looked at. -/
theorem publishedMessageViolations_eq_nil_iff
    (path : String)
    (es : Entries) :
    publishedMessageViolations path es = [] ↔ PublishedMessageShape es := by
  have hpointer :
      (∃ t, Tree.field? "$ref" es = some t ∧ IsScalar t) ↔
        (readText (Tree.field? "$ref" es)).isSome = true := by
    cases Tree.field? "$ref" es with
    | none => simp [readText]
    | some t => simp [readText, isScalar_iff]
  rw [PublishedMessageShape, hpointer, publishedMessageViolations]
  split
  · rename_i h
    simp [h]
  · rename_i h
    simp [h, messageViolations_eq_nil_iff]

theorem publicationViolations_eq_nil_iff
    (path : String)
    (es : Entries) :
    publicationViolations path es = [] ↔ PublicationShape es :=
  sectionViolations_eq_nil_iff (publishedMessageViolations_eq_nil_iff _) _

theorem templateViolations_eq_nil_iff
    (path : String)
    (t : Tree) :
    templateViolations path t = [] ↔ TemplateShape t := by
  rw [TemplateShape, isScalar_iff]
  cases ht : t.peel with
  | tagged tag u => exact absurd ht (t.peel_not_tagged tag u)
  | _ => simp [templateViolations, Tree.scalar?, ht]

theorem channelViolations_eq_nil_iff
    (path : String)
    (es : Entries) :
    channelViolations path es = [] ↔ ChannelShape es := by
  rw [channelViolations, List.append_eq_nil_iff]
  refine and_congr ?_ ?_
  · exact sectionViolations_eq_nil_iff (publicationViolations_eq_nil_iff _) _
  · refine sectionViolations_eq_nil_iff (fun es => ?_) _
    exact entryViolations_eq_nil_iff (fun _ t => templateViolations_eq_nil_iff _ t) es

theorem componentsViolations_eq_nil_iff
    (path : String)
    (es : Entries) :
    componentsViolations path es = [] ↔ ComponentsShape es := by
  refine sectionViolations_eq_nil_iff (fun es => ?_) _
  refine entryViolations_eq_nil_iff (fun name t => ?_) es
  exact sectionViolations_eq_nil_iff (messageViolations_eq_nil_iff _) _

/-- A tree has the shape of a specification when it has no violation. -/
theorem violations_eq_nil_iff (t : Tree) : violations t = [] ↔ WellShaped t := by
  have hchannels : ∀ es,
      channelsViolations "channels" es = [] ↔
        Keyed (fun c => OptionalSection ChannelShape (some c)) es := by
    intro es
    refine entryViolations_eq_nil_iff (fun name t => ?_) es
    exact sectionViolations_eq_nil_iff (channelViolations_eq_nil_iff _) _
  cases ht : t.peel with
  | mapping es =>
      have hinfo : ∀ es : Entries, ([] : List Violation) = [] ↔ True := by simp
      rw [violations, ht]
      simp only [List.append_eq_nil_iff, sectionViolations_eq_nil_iff hinfo,
        sectionViolations_eq_nil_iff hchannels,
        sectionViolations_eq_nil_iff (componentsViolations_eq_nil_iff _)]
      constructor
      · intro h
        exact ⟨es, ht, h⟩
      · rintro ⟨es', ht', h⟩
        rw [ht] at ht'
        cases ht'
        exact h
  | _ =>
      constructor
      · intro h
        simp [violations, ht] at h
      · rintro ⟨es, hes, _⟩
        rw [ht] at hes
        cases hes

end NoViolation

section FirstViolation

variable {α β : Type}

/-- What a shape error says, as texts. -/
def ShapeError.report (e : ShapeError) : Violation :=
  ⟨e.place.text, e.expected.text⟩

/-- The violation that a reading stops at. -/
def firstViolation : Shaped α → Option Violation
  | .ok _ => none
  | .error e => some e.report

@[simp] theorem firstViolation_pure (x : α) : firstViolation (pure x) = none := by
  rfl

/-- A reading in two steps stops at the first violation of both. -/
theorem firstViolation_bind
    {r : Shaped α}
    {f : α → Shaped β}
    {vs ws : List Violation}
    (hr : firstViolation r = vs.head?)
    (hf : ∀ x, firstViolation (f x) = ws.head?) :
    firstViolation (r >>= f) = (vs ++ ws).head? := by
  rw [List.head?_append, ← hr]
  cases r with
  | ok x => exact hf x
  | error e => rfl

/-- A last step that cannot fail adds no violation. -/
theorem firstViolation_bind_pure
    {r : Shaped α}
    {f : α → β}
    {vs : List Violation}
    (hr : firstViolation r = vs.head?) :
    firstViolation (r >>= fun x => pure (f x)) = vs.head? := by
  have hf : ∀ x, firstViolation (pure (f x) : Shaped β) = ([] : List Violation).head? := by
    intro x
    rfl
  have h := firstViolation_bind hr hf
  rwa [List.append_nil] at h

/-- A section is read before what follows it. -/
theorem firstViolation_section
    {place : Place}
    {path : String}
    {inside : Entries → List Violation}
    {f : Option Entries → Shaped α}
    {ws : List Violation}
    (hpath : place.text = path)
    (hnone : firstViolation (f none) = ws.head?)
    (hsome : ∀ es, firstViolation (f (some es)) = (inside es ++ ws).head?)
    (t : Option Tree) :
    firstViolation (readSection place t >>= f) = (sectionViolations path inside t ++ ws).head? := by
  subst hpath
  cases t with
  | none => exact hnone
  | some t =>
      cases ht : t.peel with
      | null =>
          rw [readSection_null ht]
          simpa [sectionViolations, ht] using hnone
      | mapping es =>
          rw [readSection_mapping ht]
          simpa [sectionViolations, ht] using hsome es
      | tagged tag u => exact absurd ht (t.peel_not_tagged tag u)
      | _ =>
          have hread : readSection place (some t) = .error ⟨place, .mapping⟩ := by
            simp [readSection, ht]
          rw [hread]
          simp [sectionViolations, ht]
          rfl

/-- Below the top, places are written as paths with a point in front of the field. -/
theorem Place.text_field
    {place : Place}
    (h : place ≠ [])
    (name : String) :
    Place.text (.field name :: place) = fieldPath place.text name := by
  cases place with
  | nil => exact absurd rfl h
  | cons step steps => rfl

/-- Entries are read in their order, each one with its key first. -/
theorem firstViolation_readEntries
    {place : Place}
    {path : String}
    {read : String → Tree → Shaped α}
    {value : String → Tree → List Violation}
    (hpath : place.text = path)
    (hread : ∀ name t, firstViolation (read name t) = (value name t).head?)
    (es : Entries) :
    firstViolation (readEntries place read es) = (entryViolations path value es).head? := by
  subst hpath
  induction es with
  | nil => rfl
  | cons e es ih =>
      rcases e with ⟨key, t⟩
      cases hkey : key.scalar? with
      | none =>
          have hvs :
              entryViolations place.text value ((key, t) :: es) =
                ⟨place.text, "keyed by strings"⟩ :: entryViolations place.text value es := by
            simp [entryViolations, hkey]
          rw [hvs, readEntries, readName_of_not_scalar hkey]
          rfl
      | some name =>
          have hvs :
              entryViolations place.text value ((key, t) :: es) =
                value name t ++ entryViolations place.text value es := by
            simp [entryViolations, hkey]
          rw [hvs, readEntries, readName_of_scalar hkey, ok_bind]
          refine firstViolation_bind (hread name t) ?_
          intro x
          exact firstViolation_bind_pure ih

/-- A section that nothing follows. -/
theorem firstViolation_lastSection
    {place : Place}
    {path : String}
    {inside : Entries → List Violation}
    {f : Option Entries → Shaped α}
    (hpath : place.text = path)
    (hnone : firstViolation (f none) = none)
    (hsome : ∀ es, firstViolation (f (some es)) = (inside es).head?)
    (t : Option Tree) :
    firstViolation (readSection place t >>= f) = (sectionViolations path inside t).head? := by
  have hnil : firstViolation (f none) = ([] : List Violation).head? := hnone
  have happ : ∀ es, firstViolation (f (some es)) = (inside es ++ []).head? := by
    intro es
    rw [List.append_nil]
    exact hsome es
  have h := firstViolation_section hpath hnil happ t
  rwa [List.append_nil] at h

theorem firstViolation_readProperty
    (place : Place)
    (t : Tree) :
    firstViolation (readProperty place t) = (propertyViolations place.text t).head? :=
  firstViolation_lastSection rfl rfl (fun _ => rfl) (some t)

theorem firstViolation_readPayload
    {place : Place}
    (h : place ≠ [])
    (es : Entries) :
    firstViolation (readPayload place es) = (payloadViolations place.text es).head? := by
  refine firstViolation_lastSection (Place.text_field h "properties") rfl ?_ _
  intro es
  refine firstViolation_bind_pure ?_
  refine firstViolation_readEntries (Place.text_field h "properties") ?_ es
  intro name t
  rw [firstViolation_readProperty, Place.text_field (List.cons_ne_nil _ _),
    Place.text_field h]

theorem firstViolation_readMessage
    {place : Place}
    (h : place ≠ [])
    (es : Entries) :
    firstViolation (readMessage place es) = (messageViolations place.text es).head? := by
  refine firstViolation_lastSection (Place.text_field h "payload") rfl ?_ _
  intro es
  refine firstViolation_bind_pure ?_
  rw [firstViolation_readPayload (List.cons_ne_nil _ _), Place.text_field h]

theorem firstViolation_readPublishedMessage
    {place : Place}
    (h : place ≠ [])
    (t : Option Tree) :
    firstViolation (readPublishedMessage place t) =
      (sectionViolations place.text (publishedMessageViolations place.text) t).head? := by
  refine firstViolation_lastSection rfl rfl ?_ t
  intro es
  cases hr : readText (Tree.field? "$ref" es) with
  | some pointer =>
      simp [publishedMessageViolations, hr]
  | none =>
      have hvs : publishedMessageViolations place.text es = messageViolations place.text es := by
        simp [publishedMessageViolations, hr]
      simp only [hr, hvs]
      exact firstViolation_bind_pure (firstViolation_readMessage h es)

theorem firstViolation_readPublication
    {place : Place}
    (h : place ≠ [])
    (t : Option Tree) :
    firstViolation (readPublication place t) =
      (sectionViolations place.text (publicationViolations place.text) t).head? := by
  refine firstViolation_lastSection rfl rfl ?_ t
  intro es
  refine firstViolation_bind_pure ?_
  rw [firstViolation_readPublishedMessage (List.cons_ne_nil _ _), Place.text_field h]
  rfl

theorem firstViolation_readTemplate
    (place : Place)
    (t : Tree) :
    firstViolation (readTemplate place t) = (templateViolations place.text t).head? := by
  cases ht : t.peel with
  | sequence items =>
      simp [readTemplate, templateViolations, Tree.scalar?, ht, firstViolation]
      rfl
  | mapping es =>
      simp [readTemplate, templateViolations, Tree.scalar?, ht, firstViolation]
      rfl
  | tagged tag u => exact absurd ht (t.peel_not_tagged tag u)
  | _ => simp [readTemplate, templateViolations, Tree.scalar?, ht, firstViolation]

theorem firstViolation_readHeaders
    {place : Place}
    (h : place ≠ [])
    (t : Option Tree) :
    firstViolation (readHeaders place t) =
      (sectionViolations place.text (headersViolations place.text) t).head? := by
  refine firstViolation_lastSection rfl rfl ?_ t
  intro es
  refine firstViolation_bind_pure ?_
  refine firstViolation_readEntries rfl ?_ es
  intro name t
  rw [firstViolation_readTemplate, Place.text_field h]

theorem firstViolation_readChannel
    {place : Place}
    (h : place ≠ [])
    (t : Tree) :
    firstViolation (readChannel place t) =
      (sectionViolations place.text (channelViolations place.text) (some t)).head? := by
  refine firstViolation_lastSection rfl rfl ?_ (some t)
  intro es
  refine firstViolation_bind ?_ ?_
  · rw [firstViolation_readPublication (List.cons_ne_nil _ _), Place.text_field h]
  · intro publication
    refine firstViolation_bind_pure ?_
    rw [firstViolation_readHeaders (List.cons_ne_nil _ _), Place.text_field h]

theorem firstViolation_readChannels (t : Option Tree) :
    firstViolation (readChannels t) =
      (sectionViolations "channels" (channelsViolations "channels") t).head? := by
  refine firstViolation_lastSection rfl rfl ?_ t
  intro es
  refine firstViolation_bind_pure ?_
  refine firstViolation_readEntries rfl ?_ es
  intro topic t
  rw [firstViolation_readChannel (List.cons_ne_nil _ _)]
  rfl

theorem firstViolation_readComponent
    {place : Place}
    (h : place ≠ [])
    (t : Tree) :
    firstViolation (readComponent place t) =
      (sectionViolations place.text (messageViolations place.text) (some t)).head? :=
  firstViolation_lastSection rfl rfl (firstViolation_readMessage h) (some t)

theorem firstViolation_readComponents (t : Option Tree) :
    firstViolation (readComponents t) =
      (sectionViolations "components" (componentsViolations "components") t).head? := by
  refine firstViolation_lastSection rfl rfl ?_ t
  intro es
  refine firstViolation_lastSection rfl rfl ?_ _
  intro es
  refine firstViolation_bind_pure ?_
  refine firstViolation_readEntries rfl ?_ es
  intro name t
  rw [firstViolation_readComponent (List.cons_ne_nil _ _)]
  rfl

/-- Reading a document tree stops at its first violation. -/
theorem firstViolation_ofTree (t : Tree) :
    firstViolation (ofTree t) = (violations t).head? := by
  cases ht : t.peel with
  | mapping es =>
      rw [ofTree, violations, ht]
      have hrest : ∀ info : Option Entries,
          firstViolation
              (do
                let channels ← readChannels (Tree.field? "channels" es)
                let messages ← readComponents (Tree.field? "components" es)
                return (⟨readText (Tree.field? "asyncapi" es), info.map readInfo, channels,
                  messages⟩ : Specification)) =
            (sectionViolations "channels" (channelsViolations "channels")
                (Tree.field? "channels" es) ++
              sectionViolations "components" (componentsViolations "components")
                (Tree.field? "components" es)).head? := by
        intro info
        refine firstViolation_bind (firstViolation_readChannels _) ?_
        intro channels
        exact firstViolation_bind_pure (firstViolation_readComponents _)
      exact firstViolation_section rfl (hrest none) (fun info => hrest (some info)) _
  | _ =>
      rw [ofTree, violations, ht]
      rfl

end FirstViolation

section Loading

/-- A tree is read as a specification when it is shaped like one. -/
theorem ofTree_ok_iff (t : Tree) : (∃ spec, ofTree t = .ok spec) ↔ WellShaped t := by
  rw [← violations_eq_nil_iff, ← List.head?_eq_none_iff, ← firstViolation_ofTree]
  cases ofTree t with
  | ok spec => exact ⟨fun _ => rfl, fun _ => ⟨spec, rfl⟩⟩
  | error e => simp [firstViolation]

/-- A tree of another shape is refused with its first violation. -/
theorem ofTree_error_of_not_wellShaped
    {t : Tree}
    (h : ¬ WellShaped t) :
    ∃ e, ofTree t = .error e ∧ (violations t).head? = some e.report := by
  have hfirst := firstViolation_ofTree t
  cases hread : ofTree t with
  | ok spec => exact absurd ((ofTree_ok_iff t).mp ⟨spec, hread⟩) h
  | error e =>
      rw [hread] at hfirst
      exact ⟨e, rfl, hfirst.symm⟩

/-- A document whose tree has the shape of a specification is loaded, and of any other tree the
first violation is reported. -/
theorem load_first_violation (t : Tree) :
    ((∃ spec, ofTree t = .ok spec) ↔ WellShaped t) ∧
    (¬ WellShaped t →
      ∃ e, ofTree t = .error e ∧
        (violations t).head? = some ⟨e.place.text, e.expected.text⟩) ∧
    (∀ document, Document.read document = .ok t →
      ((∃ spec, load document = .ok spec) ↔ WellShaped t) ∧
      (¬ WellShaped t →
        ∃ e, load document = .error (.shape e) ∧
          (violations t).head? = some ⟨e.place.text, e.expected.text⟩)) := by
  refine ⟨ofTree_ok_iff t, fun h => ofTree_error_of_not_wellShaped h, ?_⟩
  intro document hdocument
  constructor
  · rw [← ofTree_ok_iff]
    cases hread : ofTree t with
    | ok spec => simp [load, hdocument, hread]
    | error e => simp [load, hdocument, hread]
  · intro h
    obtain ⟨e, hread, hfirst⟩ := ofTree_error_of_not_wellShaped h
    refine ⟨e, ?_, hfirst⟩
    simp [load, hdocument, hread]

set_option maxRecDepth 3000 in
/-- Two channels in violation: the headers of the first one are reported. -/
theorem load_first_violation_two_channels :
    let document := "\x7b\"channels\":\x7b\"a\":\x7b\"x-headers\":[]\x7d,\"b\":[]\x7d\x7d".toUTF8
    let t : Tree := .mapping [(.text "channels", .mapping
      [(.text "a", .mapping [(.text "x-headers", .sequence [])]), (.text "b", .sequence [])])]
    Document.read document = .ok t ∧
      ¬ WellShaped t ∧
      violations t =
        [⟨"channels[a].x-headers", "a mapping"⟩, ⟨"channels[b]", "a mapping"⟩] ∧
      ∃ e, load document = .error (.shape e) ∧
        e.place.text = "channels[a].x-headers" ∧ e.expected.text = "a mapping" := by
  intro document t
  have hread : Document.read document = .ok t := by
    simp only [document, t]
    cbv
  -- From here on the bytes of the document are of no interest, only its tree is.
  clear_value document
  have hviolations :
      violations t =
        [⟨"channels[a].x-headers", "a mapping"⟩, ⟨"channels[b]", "a mapping"⟩] := by
    rfl
  have hshape : ¬ WellShaped t := by
    rw [← violations_eq_nil_iff, hviolations]
    exact List.cons_ne_nil _ _
  obtain ⟨e, hload, hfirst⟩ := ((load_first_violation t).2.2 document hread).2 hshape
  rw [hviolations] at hfirst
  have he := Option.some.inj hfirst
  rw [Violation.mk.injEq] at he
  exact ⟨hread, hshape, hviolations, e, hload, he.1.symm, he.2.symm⟩

end Loading

end Specification
end ChannelHeaders
