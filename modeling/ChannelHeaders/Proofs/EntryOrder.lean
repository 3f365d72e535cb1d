import Mathlib
import ChannelHeaders.Proofs.ReorderedTrees
import ChannelHeaders.Specification.Loading

/-!
# The order of entries in a document

The order in which a mapping lists its entries matters for headers only.  A tree and the
same tree with its mappings reordered are both accepted or both refused, though the walk
stops early and may report another violation.  When both are accepted and names are apart,
the two specifications agree up to the order of headers, and they are equal when no
mapping of headers was reordered.

The proof follows the two readings side by side.  They agree when both fail, or when both
succeed with related results, and each reader is shown to agree on matching nodes from the
agreement of the readers that it calls.

**Results.**
* `Agree.bind`: two steps agree when each of them does.
* `agree_readEntries`: entries under free names are read in any order.
* `agree_readChannel`, `agree_readComponent`: one channel and one message.
* `load_reordered`: whole documents.
-/

namespace ChannelHeaders
namespace Specification

open Document

section Agreement

variable {α β γ δ : Type}

/-- Two readings agree when both fail, or both succeed with related results. -/
inductive Agree (r : α → β → Prop) : Shaped α → Shaped β → Prop
  | error (e e' : ShapeError) : Agree r (.error e) (.error e')
  | ok
      {x : α}
      {y : β}
      (h : r x y) :
      Agree r (.ok x) (.ok y)

/-- Two steps agree when each of them does. -/
theorem Agree.bind
    {r : α → β → Prop}
    {q : γ → δ → Prop}
    {a : Shaped α}
    {b : Shaped β}
    {f : α → Shaped γ}
    {g : β → Shaped δ}
    (h : Agree r a b)
    (hfg : ∀ x y, r x y → Agree q (f x) (g y)) :
    Agree q (a >>= f) (b >>= g) := by
  cases h with
  | error e e' => exact .error e e'
  | ok hxy => exact hfg _ _ hxy

theorem Agree.imp
    {r q : α → β → Prop}
    {a : Shaped α}
    {b : Shaped β}
    (h : Agree r a b)
    (hrq : ∀ x y, a = .ok x → r x y → q x y) :
    Agree q a b := by
  cases h with
  | error e e' => exact .error e e'
  | ok hxy => exact .ok (hrq _ _ rfl hxy)

theorem Agree.refl (a : Shaped α) : Agree Eq a a := by
  cases a with
  | error e => exact .error e e
  | ok x => exact .ok rfl

theorem Agree.trans
    {r : α → β → Prop}
    {q : β → γ → Prop}
    {a : Shaped α}
    {b : Shaped β}
    {c : Shaped γ}
    (h : Agree r a b)
    (h' : Agree q b c) :
    Agree (fun x z => ∃ y, r x y ∧ q y z) a c := by
  cases h with
  | error e e' =>
      cases h' with
      | error _ e'' => exact .error e e''
  | ok hxy =>
      cases h' with
      | ok hyz => exact .ok ⟨_, hxy, hyz⟩

/-- Readings that agree succeed together. -/
theorem Agree.exists_ok_iff
    {r : α → β → Prop}
    {a : Shaped α}
    {b : Shaped β}
    (h : Agree r a b) :
    (∃ x, a = .ok x) ↔ ∃ y, b = .ok y := by
  cases h with
  | error e e' => simp
  | ok hxy => simp

/-- Answers of readings that agree are related. -/
theorem Agree.of_ok
    {r : α → β → Prop}
    {a : Shaped α}
    {b : Shaped β}
    (h : Agree r a b)
    {x : α}
    {y : β}
    (hx : a = .ok x)
    (hy : b = .ok y) :
    r x y := by
  subst hx
  subst hy
  cases h with
  | ok hxy => exact hxy

end Agreement

section Sections

variable {may : Kind → Prop}
variable {apart : Prop}
variable {k : Kind}
variable {α : Type}

/-- A section of a node and of a reordered one. -/
theorem agree_readSection
    {t u : Tree}
    (h : Matches may apart k t u)
    (place : Place) :
    Agree (Option.Rel fun es es' => Matches may apart k (.mapping es) (.mapping es'))
      (readSection place (some t)) (readSection place (some u)) := by
  have hpeel := h.peel
  unfold readSection
  simp only [Option.map_some]
  generalize t.peel = v at hpeel
  generalize u.peel = w at hpeel
  cases hpeel.reorders with
  | same =>
      cases v with
      | null => exact .ok .none
      | mapping es => exact .ok (.some hpeel)
      | _ => exact .error _ _
  | mapping => exact .ok (.some hpeel)
  | tagged => exact .error _ _
  | sequence => exact .error _ _

/-- Readers that open a section first agree on all nodes if they agree on mappings. -/
theorem agree_node
    {r : α → α → Prop}
    {place : Place}
    (read : Tree → Shaped α)
    {f : Option Entries → Shaped α}
    (hread : ∀ t, read t = readSection place (some t) >>= f)
    {t u : Tree}
    (h : Matches may apart k t u)
    (hnone : Agree r (f none) (f none))
    (hmapping : ∀ es es',
      Matches may apart k (.mapping es) (.mapping es') →
      Agree r (read (.mapping es)) (read (.mapping es'))) :
    Agree r (read t) (read u) := by
  rw [hread t, hread u]
  refine (agree_readSection h place).bind ?_
  intro es es' hes
  cases hes with
  | none => exact hnone
  | some hes =>
      have hr := hmapping _ _ hes
      rwa [hread, hread] at hr

end Sections

section Names

variable {α : Type}

/-- Reads one entry under its name. -/
def readEntry
    (place : Place)
    (read : String → Tree → Shaped α)
    (e : Tree × Tree) :
    Shaped (String × α) := do
  let name ← readName place e.1
  let x ← read name e.2
  return (name, x)

theorem readEntries_cons
    (place : Place)
    (read : String → Tree → Shaped α)
    (e : Tree × Tree)
    (es : Entries) :
    readEntries place read (e :: es) = (do
      let p ← readEntry place read e
      let ps ← readEntries place read es
      return p :: ps) := by
  rcases e with ⟨key, t⟩
  simp only [readEntries, readEntry, bind_assoc, pure_bind]

/-- Entries may be read in any order. -/
theorem agree_readEntries_perm
    (place : Place)
    (read : String → Tree → Shaped α)
    {es es' : Entries}
    (h : es.Perm es') :
    Agree List.Perm (readEntries place read es) (readEntries place read es') := by
  induction h with
  | nil => exact .ok .nil
  | @cons e es es' h ih =>
      rw [readEntries_cons, readEntries_cons]
      refine (Agree.refl (readEntry place read e)).bind ?_
      rintro p _ rfl
      refine ih.bind ?_
      intro ps qs hps
      exact .ok (hps.cons p)
  | swap e e' es =>
      -- Whichever of the three readings fails, both orders fail.
      simp only [readEntries_cons]
      cases readEntry place read e' with
      | error err =>
          cases readEntry place read e with
          | error err' => exact .error _ _
          | ok p => exact .error _ _
      | ok p' =>
          cases readEntry place read e with
          | error err => exact .error _ _
          | ok p =>
              cases readEntries place read es with
              | error err => exact .error _ _
              | ok ps => exact .ok (.swap p p' ps)
  | trans h h' ih ih' =>
      refine (ih.trans ih').imp ?_
      rintro xs zs - ⟨ys, hxy, hyz⟩
      exact hxy.trans hyz

/-- Entries that match one by one are read one by one. -/
theorem agree_readEntries_pairs
    (place : Place)
    (read : String → Tree → Shaped α)
    {r : α → α → Prop}
    {es es' : Entries}
    (h : List.Forall₂ (fun e e' =>
      e.1.scalar? = e'.1.scalar? ∧ ∀ name, Agree r (read name e.2) (read name e'.2)) es es') :
    Agree (List.Forall₂ fun p q => p.1 = q.1 ∧ r p.2 q.2)
      (readEntries place read es) (readEntries place read es') := by
  induction h with
  | nil => exact .ok .nil
  | @cons e e' es es' he hes ih =>
      rw [readEntries_cons, readEntries_cons]
      have hentry :
          Agree (fun p q => p.1 = q.1 ∧ r p.2 q.2)
            (readEntry place read e) (readEntry place read e') := by
        have hname : readName place e'.1 = readName place e.1 := by
          rw [readName, readName, he.1]
        rw [readEntry, readEntry, hname]
        refine (Agree.refl (readName place e.1)).bind ?_
        rintro name _ rfl
        refine (he.2 name).bind ?_
        intro x y hxy
        exact .ok ⟨rfl, hxy⟩
      refine hentry.bind ?_
      intro p q hpq
      refine ih.bind ?_
      intro ps qs hps
      exact .ok (.cons hpq hps)

/-- What two orders of a mapping that is keyed by free names give: a permutation of related pairs,
the identity if the mapping may not be reordered. -/
structure SamePairs
    (may : Prop)
    (apart : Prop)
    (r : α → α → Prop)
    (ps qs : List (String × α)) :
    Prop where
  exists_perm : ∃ mid, ps.Perm mid ∧ (may ∨ ps = mid) ∧
    List.Forall₂ (fun p q => p.1 = q.1 ∧ r p.2 q.2) mid qs
  apart : apart → (Pairs.names ps).Nodup

theorem agree_readEntries
    {may : Kind → Prop}
    {apart : Prop}
    {k f : Kind}
    {es es' : Entries}
    (h : Matches may apart k (.mapping es) (.mapping es'))
    (hk : k.element? = some f)
    (place : Place)
    (read : String → Tree → Shaped α)
    {r : α → α → Prop}
    (hread : ∀ name t u, Matches may apart f t u → Agree r (read name t) (read name u)) :
    Agree (SamePairs (may k) apart r)
      (readEntries place read es) (readEntries place read es') := by
  obtain ⟨mid, horder, hmay, hpairs, hnames⟩ := h.named hk
  -- First the entries change places, and then each of them changes inside.
  have hpermuted :
      Agree (fun ps qs => ps.Perm qs ∧ (may k ∨ ps = qs))
        (readEntries place read es) (readEntries place read mid) := by
    rcases hmay with hmay | rfl
    · refine (agree_readEntries_perm place read horder).imp ?_
      intro ps qs _ hps
      exact ⟨hps, Or.inl hmay⟩
    · refine (Agree.refl _).imp ?_
      rintro ps _ - rfl
      exact ⟨.refl ps, Or.inr rfl⟩
  have hmatched := agree_readEntries_pairs place read (hpairs.imp fun e e' he =>
    ⟨he.1, fun name => hread name e.2 e'.2 he.2⟩)
  refine (hpermuted.trans hmatched).imp ?_
  rintro ps qs hps ⟨ms, ⟨hperm, hmay⟩, hms⟩
  refine ⟨⟨ms, hperm, hmay, hms⟩, fun ha => ?_⟩
  rw [(readEntries_last? hps).1]
  exact hnames ha

/-- Related lists of pairs have related last values. -/
theorem rel_last?
    {r : α → α → Prop}
    {ps qs : List (String × α)}
    (h : List.Forall₂ (fun p q => p.1 = q.1 ∧ r p.2 q.2) ps qs)
    (name : String) :
    Option.Rel r (Pairs.last? name ps) (Pairs.last? name qs) := by
  induction h with
  | nil => exact .none
  | @cons p q ps qs hpq hps ih =>
      rw [Pairs.last?_cons, Pairs.last?_cons, hpq.1]
      refine rel_or ih ?_
      split
      · exact .some hpq.2
      · exact .none

/-- Maps of related pairs hold related values under each name. -/
theorem SamePairs.rel_get?
    {may apart : Prop}
    {r : α → α → Prop}
    {ps qs : List (String × α)}
    (h : SamePairs may apart r ps qs)
    (ha : apart)
    (name : String) :
    Option.Rel r ((SortedMap.ofList ps).get? name) ((SortedMap.ofList qs).get? name) := by
  obtain ⟨mid, hperm, -, hmid⟩ := h.exists_perm
  rw [SortedMap.get?_ofList, SortedMap.get?_ofList, Pairs.last?_perm (h.apart ha) hperm]
  exact rel_last? hmid name

/-- The order of pairs with distinct names does not matter to a sorted map. -/
theorem SamePairs.ofList_eq
    {may apart : Prop}
    {r : α → α → Prop}
    {ps qs : List (String × α)}
    (h : SamePairs may apart r ps qs)
    (ha : apart)
    (hr : ∀ x y, r x y → x = y) :
    SortedMap.ofList ps = SortedMap.ofList qs := by
  apply SortedMap.eq_of_get?
  intro name
  exact eq_of_rel hr (h.rel_get? ha name)

end Names

section Parts

variable {may : Kind → Prop}
variable {apart : Prop}
variable {k : Kind}

/-- Named nodes may be read in any order. -/
theorem agree_readNamed
    {α : Type}
    {f : Kind}
    (hk : k.element? = some f)
    {t u : Tree}
    (h : Matches may apart k t u)
    (place : Place)
    (read : Place → String → Tree → Shaped α)
    {r : α → α → Prop}
    (hread : ∀ name t u,
      Matches may apart f t u → Agree r (read place name t) (read place name u)) :
    Agree (SamePairs (may k) apart r) (readNamed read t place) (readNamed read u place) := by
  refine agree_node (fun t => readNamed read t place) (fun _ => rfl) h ?_ ?_
  · exact .ok ⟨⟨[], .nil, Or.inr rfl, .nil⟩, fun _ => List.nodup_nil⟩
  · intro es es' hes
    exact agree_readEntries hes hk place (read place) hread

/-- A text is read alike from a mapping and a reordered one. -/
theorem Matches.answer_text
    {es es' : Entries}
    (h : Matches may apart k (.mapping es) (.mapping es'))
    (name : String)
    (hname : Pairs.lookup name k.fields = some .text) :
    Kind.text.answer (fieldOrNull name es) = Kind.text.answer (fieldOrNull name es') := by
  have hany : Matches may False k (.mapping es) (.mapping es') :=
    ⟨h.reorders, h.distinct, False.elim⟩
  exact (hany.field False.elim name .text hname).reorders.scalar?_eq

theorem agree_readProperty
    {t u : Tree}
    (h : Matches may apart .property t u)
    (place : Place) :
    Agree Eq (readProperty place t) (readProperty place u) := by
  refine agree_node (readProperty place) (fun _ => rfl) h (.ok rfl) ?_
  intro es es' hes
  rw [readProperty_mapping, readProperty_mapping, hes.answer_text "type" rfl]
  exact .ok rfl

theorem agree_readPayload
    {es es' : Entries}
    (h : Matches may apart .payload (.mapping es) (.mapping es'))
    (place : Place) :
    Agree (fun p q => apart → p = q) (readPayload place es) (readPayload place es') := by
  rw [readPayload_eq, readPayload_eq, h.answer_text "type" rfl]
  have hproperties := h.field (fun _ => rfl) "properties" .properties rfl
  have hnamed := agree_readNamed rfl hproperties (.field "properties" :: place)
    (fun here name => readProperty (.field name :: here))
    fun name t u htu => agree_readProperty htu _
  refine hnamed.bind ?_
  intro ps qs hps
  refine .ok fun ha => ?_
  rw [hps.ofList_eq ha fun _ _ => id]

theorem agree_payload
    {t u : Tree}
    (h : Matches may apart .payload t u)
    (place : Place) :
    Agree (fun p q => apart → p = q)
      (Kind.payload.answer t place) (Kind.payload.answer u place) := by
  refine agree_node (fun t => Kind.payload.answer t place) (fun _ => rfl) h
    (.ok fun _ => rfl) ?_
  intro es es' hes
  refine (agree_readPayload hes place).bind ?_
  intro p q hpq
  exact .ok fun ha => congrArg some (hpq ha)

/-- A message whose payload may be looked at. -/
theorem agree_readMessage
    {es es' : Entries}
    (h : Matches may apart .payload (fieldOrNull "payload" es) (fieldOrNull "payload" es'))
    (place : Place) :
    Agree (fun m n => apart → m = n) (readMessage place es) (readMessage place es') := by
  rw [readMessage_eq, readMessage_eq]
  refine (agree_payload h _).bind ?_
  intro p q hpq
  exact .ok fun ha => congrArg MessageSchema.mk (hpq ha)

theorem agree_readComponent
    {t u : Tree}
    (h : Matches may apart .message t u)
    (place : Place) :
    Agree (fun m n => apart → m = n) (readComponent place t) (readComponent place u) := by
  refine agree_node (readComponent place) (fun _ => rfl) h (.ok fun _ => rfl) ?_
  intro es es' hes
  exact agree_readMessage (hes.field (fun _ => rfl) "payload" .payload rfl) place

/-- A pointer is read alike, and hides the payload in both mappings. -/
theorem agree_readPublishedMessage
    {t u : Tree}
    (h : Matches may apart .publishedMessage t u)
    (place : Place) :
    Agree (fun m n => apart → m = n)
      (readPublishedMessage place (some t)) (readPublishedMessage place (some u)) := by
  refine agree_node (fun t => readPublishedMessage place (some t)) (fun _ => rfl) h
    (.ok fun _ => rfl) ?_
  intro es es' hes
  simp only [readPublishedMessage_mapping, ← hes.answer_text "$ref" rfl]
  -- Behind a pointer, nothing is known of the payload, and nothing is read of it.
  cases hpointer : Kind.text.answer (fieldOrNull "$ref" es) with
  | some pointer => exact .ok fun _ => rfl
  | none =>
      have hvisible : Kind.publishedMessage.visible es = .publishedMessage := by
        rw [Kind.visible, readText_field, hpointer]
        rfl
      have hpayload := hes.field (fun _ => hvisible) "payload" .payload rfl
      refine (agree_readMessage hpayload place).bind ?_
      intro m n hmn
      exact .ok fun ha => congrArg (fun m => some (PublishedMessage.inline m)) (hmn ha)

theorem agree_readPublication
    {t u : Tree}
    (h : Matches may apart .publication t u)
    (place : Place) :
    Agree (fun p q => apart → p = q)
      (readPublication place (some t)) (readPublication place (some u)) := by
  refine agree_node (fun t => readPublication place (some t)) (fun _ => rfl) h
    (.ok fun _ => rfl) ?_
  intro es es' hes
  rw [readPublication_mapping, readPublication_mapping]
  have hmessage := hes.field (fun _ => rfl) "message" .publishedMessage rfl
  refine (agree_readPublishedMessage hmessage _).bind ?_
  intro m n hmn
  exact .ok fun ha => congrArg (fun m => some (Publication.mk m)) (hmn ha)

/-- The same header templates, in an order of their own if the mapping may be reordered. -/
def SameHeaders
    (may : Kind → Prop)
    (h h' : HeaderTemplates) :
    Prop :=
  h.entries.Perm h'.entries ∧ (may .headers ∨ h = h')

/-- Channels that differ in the order of headers at most. -/
structure SameChannel
    (may : Kind → Prop)
    (c c' : Channel) :
    Prop where
  publication : c.publication = c'.publication
  headers : Option.Rel (SameHeaders may) c.headers c'.headers

theorem agree_readTemplate
    {t u : Tree}
    (h : Matches may apart .template t u)
    (place : Place) :
    Agree Eq (readTemplate place t) (readTemplate place u) := by
  have hpeel := h.reorders.peel
  unfold readTemplate Tree.scalar?
  generalize t.peel = v at hpeel
  generalize u.peel = w at hpeel
  cases hpeel with
  | same => exact .refl _
  | tagged => exact .error _ _
  | sequence => exact .error _ _
  | mapping => exact .error _ _

/-- Headers with distinct names have the same templates in any order. -/
theorem SamePairs.headers
    {ps qs : List (String × String)}
    (h : SamePairs (may .headers) apart Eq ps qs)
    (ha : apart) :
    SameHeaders may (.ofList ps) (.ofList qs) := by
  obtain ⟨mid, hperm, hmay, hmid⟩ := h.exists_perm
  have heq : mid = qs := by
    refine List.forall₂_eq_eq_eq ▸ hmid.imp ?_
    intro p q hpq
    exact Prod.ext hpq.1 hpq.2
  subst heq
  have hps := Pairs.collect_eq_self (h.apart ha)
  have hqs := Pairs.collect_eq_self ((hperm.map Prod.fst).nodup_iff.mp (h.apart ha))
  refine ⟨?_, hmay.imp_right (congrArg OrderedMap.ofList)⟩
  have hentries : (Pairs.collect ps).Perm (Pairs.collect mid) := by
    rwa [hps, hqs]
  exact hentries

theorem agree_readHeaders
    {t u : Tree}
    (h : Matches may apart .headers t u)
    (place : Place) :
    Agree (fun h h' => apart → Option.Rel (SameHeaders may) h h')
      (readHeaders place (some t)) (readHeaders place (some u)) := by
  refine agree_node (fun t => readHeaders place (some t)) (fun _ => rfl) h
    (.ok fun _ => .none) ?_
  intro es es' hes
  rw [readHeaders_mapping, readHeaders_mapping]
  have hentries := agree_readEntries hes rfl place (fun name => readTemplate (.field name :: place))
    fun name t u htu => agree_readTemplate htu _
  refine hentries.bind ?_
  intro ps qs hps
  exact .ok fun ha => .some (hps.headers ha)

theorem agree_readChannel
    {t u : Tree}
    (h : Matches may apart .channel t u)
    (place : Place) :
    Agree (fun c c' => apart → SameChannel may c c')
      (readChannel place t) (readChannel place u) := by
  refine agree_node (readChannel place) (fun _ => rfl) h (.ok fun _ => ⟨rfl, .none⟩) ?_
  intro es es' hes
  rw [readChannel_mapping, readChannel_mapping]
  have hpublication := hes.field (fun _ => rfl) "publish" .publication rfl
  refine (agree_readPublication hpublication _).bind ?_
  intro p q hpq
  have hheaders := hes.field (fun _ => rfl) "x-headers" .headers rfl
  refine (agree_readHeaders hheaders _).bind ?_
  intro hs hs' hhs
  exact .ok fun ha => ⟨hpq ha, hhs ha⟩

theorem agree_readChannels
    {t u : Tree}
    (h : Matches may apart .channels t u) :
    Agree
      (fun m n => apart → ∀ topic, Option.Rel (SameChannel may) (m.get? topic) (n.get? topic))
      (readChannels (some t)) (readChannels (some u)) := by
  refine agree_node (fun t => readChannels (some t)) (fun _ => rfl) h (.ok fun _ _ => .none) ?_
  intro es es' hes
  rw [readChannels_mapping, readChannels_mapping]
  have hentries := agree_readEntries hes rfl [.field "channels"]
    (fun topic => readChannel [.entry topic, .field "channels"])
    fun topic t u htu => agree_readChannel htu _
  refine hentries.bind ?_
  intro ps qs hps
  refine .ok fun ha topic => ?_
  exact rel_imp (fun c c' hc => hc ha) (hps.rel_get? ha topic)

theorem agree_readComponents
    {t u : Tree}
    (h : Matches may apart .components t u) :
    Agree (fun m n => apart → m = n) (readComponents (some t)) (readComponents (some u)) := by
  refine agree_node (fun t => readComponents (some t)) (fun _ => rfl) h (.ok fun _ => rfl) ?_
  intro es es' hes
  rw [readComponents_mapping, readComponents_mapping]
  have hmessages := hes.field (fun _ => rfl) "messages" .messages rfl
  have hnamed := agree_readNamed rfl hmessages [.field "messages", .field "components"]
    (fun here name => readComponent (.entry name :: here))
    fun name t u htu => agree_readComponent htu _
  refine hnamed.bind ?_
  intro ps qs hps
  exact .ok fun ha => hps.ofList_eq ha fun m n hmn => hmn ha

theorem agree_info
    {t u : Tree}
    (h : Matches may apart .info t u)
    (place : Place) :
    Agree Eq (Kind.info.answer t place) (Kind.info.answer u place) := by
  refine agree_node (fun t => Kind.info.answer t place) (fun _ => rfl) h (.ok rfl) ?_
  intro es es' hes
  have hinfo : readInfo es = readInfo es' := by
    rw [readInfo_eq, readInfo_eq, hes.answer_text "title" rfl, hes.answer_text "version" rfl,
      hes.answer_text "description" rfl]
  exact .ok (congrArg some hinfo)

end Parts

section Documents

variable {may : Kind → Prop}

/-- Specifications that differ in the order of headers at most, and in nothing if headers may not be
reordered. -/
structure SameUpToHeaderOrder
    (may : Kind → Prop)
    (s s' : Specification) :
    Prop where
  asyncapi : s.asyncapi = s'.asyncapi
  info : s.info = s'.info
  channels : ∀ topic, Option.Rel (SameChannel may) (s.channel? topic) (s'.channel? topic)
  messages : s.messages = s'.messages

theorem agree_ofEntries
    {apart : Prop}
    {es es' : Entries}
    (h : Matches may apart .document (.mapping es) (.mapping es')) :
    Agree (fun s s' => apart → SameUpToHeaderOrder may s s') (ofEntries es) (ofEntries es') := by
  have hasyncapi := h.answer_text "asyncapi" rfl
  have hinfo := h.field (fun _ => rfl) "info" .info rfl
  have hchannels := h.field (fun _ => rfl) "channels" .channels rfl
  have hcomponents := h.field (fun _ => rfl) "components" .components rfl
  rw [ofEntries_eq, ofEntries_eq]
  refine (agree_info hinfo _).bind ?_
  intro i i' hi
  refine (agree_readChannels hchannels).bind ?_
  intro m n hmn
  refine (agree_readComponents hcomponents).bind ?_
  intro c c' hc
  exact .ok fun ha => ⟨hasyncapi, hi, hmn ha, hc ha⟩

theorem agree_ofTree
    {apart : Prop}
    {t u : Tree}
    (h : Matches may apart .document t u) :
    Agree (fun s s' => apart → SameUpToHeaderOrder may s s') (ofTree t) (ofTree u) := by
  have hpeel := h.peel
  unfold ofTree
  generalize t.peel = v at hpeel
  generalize u.peel = w at hpeel
  cases hpeel.reorders with
  | same =>
      cases v with
      | mapping es => exact agree_ofEntries hpeel
      | _ => exact .error _ _
  | mapping => exact agree_ofEntries hpeel
  | tagged => exact .error _ _
  | sequence => exact .error _ _

/-- The topics do not depend on the order of the entries. -/
theorem SameUpToHeaderOrder.topics_eq
    {s s' : Specification}
    (h : SameUpToHeaderOrder may s s') :
    s.topics = s'.topics := by
  apply SortedMap.names_eq_of_isSome
  intro topic
  exact rel_isSome (h.channels topic)

/-- Channels are equal if headers may not be reordered. -/
theorem SameChannel.eq
    {c c' : Channel}
    (h : SameChannel may c c')
    (hmay : ¬ may .headers) :
    c = c' := by
  have hheaders : c.headers = c'.headers :=
    eq_of_rel (fun h h' hh => hh.2.resolve_left hmay) h.headers
  rcases c with ⟨publication, headers⟩
  rcases c' with ⟨publication', headers'⟩
  obtain rfl : publication = publication' := h.publication
  obtain rfl : headers = headers' := hheaders
  rfl

/-- Specifications are equal if headers may not be reordered. -/
theorem SameUpToHeaderOrder.eq
    {s s' : Specification}
    (h : SameUpToHeaderOrder may s s')
    (hmay : ¬ may .headers) :
    s = s' := by
  have hchannels : s.channels = s'.channels := by
    apply SortedMap.eq_of_get?
    intro topic
    exact eq_of_rel (fun c c' hc => hc.eq hmay) (h.channels topic)
  rcases s with ⟨asyncapi, info, channels, messages⟩
  rcases s' with ⟨asyncapi', info', channels', messages'⟩
  obtain rfl : asyncapi = asyncapi' := h.asyncapi
  obtain rfl : info = info' := h.info
  obtain rfl : channels = channels' := hchannels
  obtain rfl : messages = messages' := h.messages
  rfl

/-- What the answers to a document and to a reordered one have in common. -/
structure SameAnswer
    {ε : Type}
    (may : Kind → Prop)
    (apart : Prop)
    (a a' : Except ε Specification) :
    Prop where
  accepted : (∃ s, a = .ok s) ↔ ∃ s', a' = .ok s'
  same : ∀ s s', apart → a = .ok s → a' = .ok s' → SameUpToHeaderOrder may s s'
  topics : ∀ s s', apart → a = .ok s → a' = .ok s' → s.topics = s'.topics
  equal : ∀ s s', apart → ¬ may .headers → a = .ok s → a' = .ok s' → s = s'

theorem SameAnswer.of_agree
    {apart : Prop}
    {a a' : Shaped Specification}
    (h : Agree (fun s s' => apart → SameUpToHeaderOrder may s s') a a') :
    SameAnswer may apart a a' where
  accepted := h.exists_ok_iff
  same := by
    intro s s' ha hs hs'
    exact h.of_ok hs hs' ha
  topics := by
    intro s s' ha hs hs'
    exact (h.of_ok hs hs' ha).topics_eq
  equal := by
    intro s s' ha hmay hs hs'
    exact (h.of_ok hs hs' ha).eq hmay

theorem SameAnswer.mapError
    {ε δ : Type}
    {apart : Prop}
    {a a' : Except ε Specification}
    (h : SameAnswer may apart a a')
    (f : ε → δ) :
    SameAnswer may apart (a.mapError f) (a'.mapError f) := by
  have hok : ∀ (b : Except ε Specification) s, b.mapError f = .ok s ↔ b = .ok s := by
    intro b s
    cases b with
    | error e => simp [Except.mapError]
    | ok x => simp [Except.mapError]
  constructor
  · simpa only [hok] using h.accepted
  · simpa only [hok] using h.same
  · simpa only [hok] using h.topics
  · simpa only [hok] using h.equal

/-- The order of entries decides about the order of headers and about nothing else. -/
theorem load_reordered
    {t u : Tree}
    (hdistinct : DistinctKeys t)
    (h : Reorders may .document t u) :
    SameAnswer may (NamesApart .document t) (ofTree t) (ofTree u) ∧
    (∀ document document',
      Document.read document = .ok t →
      Document.read document' = .ok u →
      SameAnswer may (NamesApart .document t) (load document) (load document')) := by
  have hread : SameAnswer may (NamesApart .document t) (ofTree t) (ofTree u) :=
    .of_agree (agree_ofTree ⟨h, hdistinct, id⟩)
  refine ⟨hread, ?_⟩
  intro document document' hdocument hdocument'
  rw [load_eq, load_eq, hdocument, hdocument']
  exact hread.mapError LoadError.shape

set_option maxRecDepth 3000 in
/-- Topics and headers change places. -/
theorem load_reordered_orders :
    let document : Entries → Tree := fun channels =>
      .mapping [(.text "channels", .mapping channels)]
    let headers : Entries → Tree := fun templates =>
      .mapping [(.text "x-headers", .mapping templates)]
    let k : Tree × Tree := (.text "k", .bool true)
    let l : Tree × Tree := (.text "l", .text "m")
    let t := document [(.text "b", headers [k, l]), (.text "a", .null)]
    let u := document [(.text "a", .null), (.text "b", headers [l, k])]
    let spec : Specification :=
      ⟨none, none, .ofList [("a", ⟨none, none⟩),
        ("b", ⟨none, some (.ofList [("k", "true"), ("l", "m")])⟩)], .empty⟩
    let bytes := ("\x7b\"channels\":\x7b\"b\":\x7b\"x-headers\":" ++
      "\x7b\"k\":true,\"l\":\"m\"\x7d\x7d,\"a\":null\x7d\x7d").toUTF8
    let bytes' := ("\x7b\"channels\":\x7b\"a\":null,\"b\":\x7b\"x-headers\":" ++
      "\x7b\"l\":\"m\",\"k\":true\x7d\x7d\x7d\x7d").toUTF8
    DistinctKeys t ∧
      Reorders (fun _ => True) .document t u ∧
      NamesApart .document t ∧
      load bytes = .ok spec ∧
      ∃ spec', load bytes' = .ok spec' ∧ SameUpToHeaderOrder (fun _ => True) spec spec' := by
  intro document headers k l t u spec bytes bytes'
  have hdistinct : DistinctKeys t := by
    simp [t, document, headers, k, l, DistinctKeys, DistinctKeysEntries, Tree.distinctKeys,
      Tree.same]
  have hheaders : Reorders (fun _ => True) .channel (headers [k, l]) (headers [l, k]) :=
    .mapping (.refl _) (Or.inr rfl) (.cons (.same _ _)
      (.mapping (.swap l k []) (Or.inl trivial)
        (.cons (.same _ _) (.same _ _) (.cons (.same _ _) (.same _ _) (.nil _))))
      (.nil _))
  have hreorders : Reorders (fun _ => True) .document t u :=
    .mapping (.refl _) (Or.inr rfl) (.cons (.same _ _)
      (.mapping (.swap (Tree.text "a", Tree.null) (.text "b", headers [k, l]) [])
        (Or.inl trivial)
        (.cons (.same _ _) (.same _ _) (.cons (.same _ _) hheaders (.nil _))))
      (.nil _))
  have hapart : NamesApart .document t := by
    simp [t, document, headers, k, l, NamesApart, NamesApartIn, Kind.visible, Kind.under,
      Kind.element?, Kind.fieldKind, Kind.fields, Pairs.lookup, Pairs.names, named, Tree.scalar?,
      Tree.peel]
  have hread : Document.read bytes = .ok t := by
    simp only [bytes, t, document, headers, k, l]
    cbv
  have hread' : Document.read bytes' = .ok u := by
    simp only [bytes', u, document, headers, k, l]
    cbv
  have hspec : load bytes = .ok spec := by
    rw [load_eq, hread]
    rfl
  have hanswer := (load_reordered hdistinct hreorders).2 bytes bytes' hread hread'
  obtain ⟨spec', hspec'⟩ := hanswer.accepted.mp ⟨spec, hspec⟩
  exact ⟨hdistinct, hreorders, hapart, hspec, spec', hspec',
    hanswer.same spec spec' hapart hspec hspec'⟩

end Documents

end Specification
end ChannelHeaders
