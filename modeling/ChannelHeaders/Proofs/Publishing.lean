import Mathlib
import ChannelHeaders.Proofs.ResolvedHeaders
import ChannelHeaders.Publishing.Basic

/-!
# Publishing a payload

One call of `publish`, from the bytes of the payload to the outcome.  A payload that is no
JSON object stops the call before anything is resolved, drawn, reported or sent.  Any other
payload is sent once, as a batch of one message, and the first result of the publisher
decides the outcome.

The headers of the message and the headers that are returned come from one resolution.
They are a sorted map and a list of the same pairs.  The pointer of the message and the
schema of the topic come from two look-ups of the same published message.

**Results.**
* `publish_of_decode_ok`: the steps of a call, for any publisher.
* `carries_makeMessage`: what the message holds.
* `publish_end_to_end`: a whole call, for a publisher that answers as a function says.
-/

namespace ChannelHeaders

open Payload

section Decoding

/-- Settling keeps the kind of a JSON value. -/
theorem ofJson_settle_ok_iff (j : Json) :
    (∃ fields, Fields.ofJson j.settle = .ok fields) ↔ ∃ members, j = .object members := by
  cases j with
  | object members =>
      exact ⟨fun _ => ⟨members, rfl⟩, fun _ => ⟨_, rfl⟩⟩
  | _ => simp [Json.settle, Fields.ofJson]

/-- A payload has fields when it is the text of a JSON object. -/
theorem decode_ok_iff (payload : ByteArray) :
    (∃ fields, Fields.decode payload = .ok fields) ↔
      ∃ members, Json.decode? payload = some (.object members) := by
  rw [Fields.decode]
  cases Json.decode? payload with
  | none => simp
  | some j => simpa using ofJson_settle_ok_iff j

/-- Only what is no JSON is refused as such. -/
theorem decode_eq_notJson_iff (payload : ByteArray) :
    Fields.decode payload = .error .notJson ↔ Json.decode? payload = none := by
  rw [Fields.decode]
  cases Json.decode? payload with
  | none => simp
  | some j => cases j <;> simp [Json.settle, Fields.ofJson]

-- The payloads of the runs below and in later modules, one for each way to decode.

theorem decode_openBracket : Fields.decode "[".toUTF8 = .error .notJson := by
  cbv

theorem decode_seven : Fields.decode "7".toUTF8 = .error (.notAnObject .number) := by
  cbv

theorem decode_emptyObject : Fields.decode "{}".toUTF8 = .ok .empty := by
  cbv

theorem decode_idSeven :
    Fields.decode "\x7b\"id\": \"7\"\x7d".toUTF8 = .ok (.ofList [("id", .text "7")]) := by
  cbv

end Decoding

section Schema

/-- The pointer of a topic, by the parts of the channel that hold it. -/
theorem messagePointer?_eq_some_iff_exists
    {spec : Specification}
    {topic pointer : String} :
    spec.messagePointer? topic = some pointer ↔
      ∃ channel publication,
        spec.channel? topic = some channel ∧
        channel.publication = some publication ∧
        publication.message = some (.reference pointer) := by
  rw [Specification.messagePointer?_eq_some_iff, Specification.publishedMessage?,
    Option.bind_eq_some_iff]
  constructor
  · rintro ⟨publication, h, hmessage⟩
    obtain ⟨channel, hchannel, hpublication⟩ := Option.bind_eq_some_iff.mp h
    exact ⟨channel, publication, hchannel, hpublication, hmessage⟩
  · rintro ⟨channel, publication, hchannel, hpublication, hmessage⟩
    exact ⟨publication, Option.bind_eq_some_iff.mpr ⟨channel, hchannel, hpublication⟩, hmessage⟩

/-- The pointer of a topic names the schema of the topic. -/
theorem messageSchema?_of_messagePointer?
    {spec : Specification}
    {topic pointer : String}
    (h : spec.messagePointer? topic = some pointer) :
    spec.messageSchema? topic = spec.component? pointer :=
  Specification.messageSchema?_reference (Specification.messagePointer?_eq_some_iff.mp h)

theorem component?_of_stem
    (spec : Specification)
    (name : String) :
    spec.component? (Specification.pointerStem ++ name) = spec.messages.get? name := by
  rw [Specification.component?, Text.after?_eq_some_iff.mpr rfl, Option.bind_some]

/-- A pointer to anything else than a message names no component. -/
theorem component?_of_no_stem
    (spec : Specification)
    {pointer : String}
    (h : ∀ name, pointer ≠ Specification.pointerStem ++ name) :
    spec.component? pointer = none := by
  rw [Specification.component?]
  cases hafter : Text.after? Specification.pointerStem pointer with
  | none => rfl
  | some name => exact absurd (Text.after?_eq_some_iff.mp hafter) (h name)

end Schema

section Calls

variable {σ ι ε : Type}

/-- The outcome that the first result of a publisher decides. -/
def outcomeOf (r : ResolvedHeaders) :
    Option (Except ε ι) → Except (PublishError ε) (Published ι)
  | none => .error .noResponse
  | some (.error e) => .error (.publish e)
  | some (.ok id) => .ok ⟨id, r⟩

/-- What is reported of the first result: only a message that was accepted. -/
def reportsOf
    (topic : String)
    (m : Message)
    (r : ResolvedHeaders) :
    Option (Except ε ι) → List Event
  | some (.ok _) => [.published topic m.id r.size]
  | _ => []

theorem reportOutcome_eq
    (topic : String)
    (m : Message)
    (r : ResolvedHeaders)
    (result : Option (Except ε ι))
    (p : Progress) :
    reportOutcome topic m r result p =
      (outcomeOf r result, { p with events := p.events ++ reportsOf topic m r result }) := by
  have hquiet : ({ p with events := p.events ++ [] } : Progress) = p := by
    rw [List.append_nil]
  cases result with
  | none =>
      exact Prod.ext rfl hquiet.symm
  | some result =>
      cases result with
      | ok id => rfl
      | error e =>
          exact Prod.ext rfl hquiet.symm

/-- The message `m` carries a payload to a topic, with the headers `r`. -/
structure Carries
    (spec : Specification)
    (topic payload : String)
    (r : ResolvedHeaders)
    (m : Message) :
    Prop where
  data : m.data = payload.toUTF8
  headers : m.headers = .ofList r.pairs
  complete : m.headers.entries.Perm r.pairs
  schema : ∀ pointer, m.schema = some pointer ↔
    ∃ channel publication,
      spec.channel? topic = some channel ∧
      channel.publication = some publication ∧
      publication.message = some (.reference pointer)
  component : ∀ pointer, m.schema = some pointer →
    (∀ name, pointer = "#/components/messages/" ++ name →
      spec.messageSchema? topic = spec.messages.get? name) ∧
    ((∀ name, pointer ≠ "#/components/messages/" ++ name) →
      spec.messageSchema? topic = none)

theorem carries_makeMessage
    (s : Surroundings)
    (spec : Specification)
    (topic payload : String)
    {r : ResolvedHeaders}
    (h : (Pairs.names r.pairs).Nodup)
    (p : Progress) :
    Carries spec topic payload r (makeMessage s spec topic r payload p).1 := by
  have hschema :
      (makeMessage s spec topic r payload p).1.schema = spec.messagePointer? topic := rfl
  refine ⟨rfl, rfl, SortedMap.perm_ofList h, ?_, ?_⟩
  · intro pointer
    rw [hschema]
    exact messagePointer?_eq_some_iff_exists
  · intro pointer hpointer
    rw [hschema] at hpointer
    rw [messageSchema?_of_messagePointer? hpointer]
    constructor
    · rintro name rfl
      exact component?_of_stem spec name
    · intro hno
      exact component?_of_no_stem spec hno

/-- A payload that was decoded is sent as one message; the first result is the outcome. -/
theorem publish_of_decode_ok
    {payload : String}
    {fields : Fields}
    (h : Fields.decode payload.toUTF8 = .ok fields)
    (s : Surroundings)
    (spec : Specification)
    (publisher : Publisher σ ι ε)
    (topic : String)
    {r : ResolvedHeaders}
    {p p₁ : Progress}
    (hr : resolveHeaders s spec topic fields p = (r, p₁))
    (t : σ) :
    ∃ m,
      Carries spec topic payload r m ∧
      m.id = s.identifier p₁.drawn ∧
      m.time = s.clock p₁.readings ∧
      publish s spec publisher topic payload (p, t) =
        (outcomeOf r (publisher.firstResult ⟨topic⟩ [m] t).1,
          ⟨p₁.drawn + 1, p₁.readings + 1, p₁.mark,
            p₁.events ++ reportsOf topic m r (publisher.firstResult ⟨topic⟩ [m] t).1⟩,
          (publisher.firstResult ⟨topic⟩ [m] t).2) := by
  have hnodup : (Pairs.names r.pairs).Nodup := by
    have := nodup_resolveHeaders s spec topic fields p
    rwa [hr] at this
  refine ⟨(makeMessage s spec topic r payload p₁).1,
    carries_makeMessage s spec topic payload hnodup p₁, rfl, rfl, ?_⟩
  simp only [publish, h, hr, reportOutcome_eq]
  rfl

/-- A payload that is no JSON object reaches nobody.  Any other payload is sent once, in a batch
of one message, and the first answer decides the outcome. -/
theorem publish_end_to_end
    (s : Surroundings)
    (spec : Specification)
    (answer : Topic → List Message → List (Except ε ι))
    (topic payload : String)
    (p : Progress)
    (sent : List (Topic × List Message)) :
    ((∃ fields, Fields.decode payload.toUTF8 = .ok fields) ↔
      ∃ members, Json.decode? payload.toUTF8 = some (.object members)) ∧
    (Fields.decode payload.toUTF8 = .error .notJson ↔ Json.decode? payload.toUTF8 = none) ∧
    (∀ e, Fields.decode payload.toUTF8 = .error e →
      publish s spec (.answering answer) topic payload (p, sent) =
        (.error (.decode e), p, sent)) ∧
    (∀ fields r p₁,
      Fields.decode payload.toUTF8 = .ok fields →
      resolveHeaders s spec topic fields p = (r, p₁) →
      ∃ m,
        Carries spec topic payload r m ∧
        m.id = s.identifier p₁.drawn ∧
        m.time = s.clock p₁.readings ∧
        publish s spec (.answering answer) topic payload (p, sent) =
          (outcomeOf r (answer ⟨topic⟩ [m]).head?,
            ⟨p₁.drawn + 1, p₁.readings + 1, p₁.mark,
              p₁.events ++ reportsOf topic m r (answer ⟨topic⟩ [m]).head?⟩,
            sent ++ [(⟨topic⟩, [m])])) := by
  refine ⟨decode_ok_iff payload.toUTF8, decode_eq_notJson_iff payload.toUTF8, ?_, ?_⟩
  · intro e h
    exact publish_of_decode_error h s spec (.answering answer) topic (p, sent)
  · intro fields r p₁ h hr
    exact publish_of_decode_ok h s spec (.answering answer) topic hr sent

set_option maxRecDepth 3000 in
/-- A payload with a referenced schema that is accepted, and one that is a number. -/
theorem publish_end_to_end_orders :
    let templates : HeaderTemplates := .ofList [("x-id", "${message.payload.id}")]
    let channel : Channel :=
      ⟨some ⟨some (.reference "#/components/messages/Order")⟩, some templates⟩
    let spec : Specification :=
      ⟨none, none, .ofList [("orders", channel)], .ofList [("Order", ⟨none⟩)]⟩
    let answer : Topic → List Message → List (Except String Nat) :=
      fun _ _ => [.ok 1, .error "late"]
    let payload := "\x7b\"id\": \"7\"\x7d"
    let r : ResolvedHeaders := ⟨[("x-id", "7")]⟩
    ∀ s : Surroundings,
      Fields.decode payload.toUTF8 = .ok (.ofList [("id", .text "7")]) ∧
      resolveHeaders s spec "orders" (.ofList [("id", .text "7")]) .start = (r, .start) ∧
      (∃ m,
        Carries spec "orders" payload r m ∧
        m.schema = some "#/components/messages/Order" ∧
        publish s spec (.answering answer) "orders" payload (.start, []) =
          (.ok ⟨1, r⟩, ⟨1, 1, 0, [.published "orders" m.id 1]⟩, [(⟨"orders"⟩, [m])])) ∧
      Fields.decode "7".toUTF8 = .error (.notAnObject .number) ∧
      publish s spec (.answering answer) "orders" "7" (.start, []) =
        (.error (.decode (.notAnObject .number)), .start, []) := by
  intro templates channel spec answer payload r s
  have hresolve :
      resolveHeaders s spec "orders" (.ofList [("id", .text "7")]) .start = (r, .start) := by
    rfl
  have hend := publish_end_to_end s spec answer "orders" payload .start []
  obtain ⟨m, hcarries, -, -, hpublish⟩ := hend.2.2.2 _ r .start decode_idSeven hresolve
  have hchannel : spec.channel? "orders" = some channel := by
    decide
  have hschema : m.schema = some "#/components/messages/Order" :=
    (hcarries.schema _).mpr ⟨channel, _, hchannel, rfl, rfl⟩
  refine ⟨decode_idSeven, hresolve, ⟨m, hcarries, hschema, hpublish⟩, decode_seven, ?_⟩
  exact (publish_end_to_end s spec answer "orders" "7" .start []).2.2.1 _ decode_seven

end Calls

end ChannelHeaders
