import Mathlib
import ChannelHeaders.Proofs.OperationEffects

/-!
# Identifiers are never used twice

Identifiers are drawn for the headers whose templates ask for one, and for the messages.
Headers are resolved before their message is made, so an operation uses a stretch of the
drawn identifiers: those of its headers in their order, and behind them the one of its
message.  The stretches of a run follow each other without gaps.

The texts are compared, not the identifiers, since headers hold texts.  A text can be read
back, so different identifiers have different texts.

**Results.**
* `ofText?_text`: an identifier is read back from its text.
* `identifierTexts_perform`: the identifiers that one operation uses.
* `identifierTexts_run`: the identifiers that a run uses.
* `identifiers_never_repeat`: no text of an identifier occurs twice in a run.
-/

namespace ChannelHeaders

open Payload

namespace Identifier

section Texts

/-- Leaving out the hyphens gives back the digits. -/
theorem filter_hyphenate
    {cs : List Char}
    (groups : List Nat)
    (h : ∀ c ∈ cs, c ≠ '-') :
    (hyphenate groups cs).filter (· != '-') = cs := by
  fun_induction hyphenate groups cs with
  | case1 cs => simpa using h
  | case2 n cs => simpa using h
  | case3 n ns cs _ ih =>
      have htake : (cs.take n).filter (· != '-') = cs.take n := by
        refine List.filter_eq_self.mpr ?_
        intro c hc
        simpa using h c (List.mem_of_mem_take hc)
      have hdrop : (hyphenate ns (cs.drop n)).filter (· != '-') = cs.drop n :=
        ih fun c hc => h c (List.mem_of_mem_drop hc)
      rw [List.filter_append, List.filter_cons_of_neg (by simp), htake, hdrop,
        List.take_append_drop]

theorem hexChar_ne_hyphen
    {d : Nat}
    (h : d < 16) :
    Text.hexChar d ≠ '-' := by
  have hall : ∀ d : Fin 16, Text.hexChar d.val ≠ '-' := by decide
  exact hall ⟨d, h⟩

theorem mapM_hexValue?
    {ds : List Nat}
    (h : ∀ d ∈ ds, d < 16) :
    (ds.map Text.hexChar).mapM Text.hexValue? = some ds := by
  induction ds with
  | nil => rfl
  | cons d ds ih =>
      obtain ⟨hd, hds⟩ := List.forall_mem_cons.mp h
      rw [List.map_cons, List.mapM_cons, Text.hexValue?_hexChar hd, ih hds]
      rfl

/-- The lowest `m` digits of a number are its rest by the power of the base. -/
theorem foldl_digits (m : Nat) :
    ∀ n : Nat,
      ((List.range m).map fun k => n / Nat.pow 16 (m - 1 - k) % 16).foldl
          (fun n d => 16 * n + d) 0 =
        n % Nat.pow 16 m := by
  induction m with
  | zero =>
      intro n
      exact (Nat.mod_one n).symm
  | succ m ih =>
      intro n
      -- All digits but the last one are those of the number without its last digit.
      have hinit :
          ((List.range m).map fun k => n / Nat.pow 16 (m + 1 - 1 - k) % 16) =
            (List.range m).map fun k => n / 16 / Nat.pow 16 (m - 1 - k) % 16 := by
        refine List.map_congr_left ?_
        intro k hk
        have hlt := List.mem_range.mp hk
        have hpow : Nat.pow 16 (m + 1 - 1 - k) = 16 * Nat.pow 16 (m - 1 - k) := by
          rw [show m + 1 - 1 - k = (m - 1 - k) + 1 by omega]
          exact Nat.pow_succ'
        rw [hpow, Nat.div_div_eq_div_mul]
      have hpow : Nat.pow 16 (m + 1) = 16 * Nat.pow 16 m := Nat.pow_succ'
      have hlast : n / Nat.pow 16 (m + 1 - 1 - m) % 16 = n % 16 := by
        rw [Nat.add_sub_cancel, Nat.sub_self]
        exact congrArg (· % 16) (Nat.div_one n)
      rw [List.range_succ, List.map_append, List.foldl_append, hinit, ih, hpow, Nat.mod_mul,
        List.map_singleton, List.foldl_cons, List.foldl_nil, hlast, Nat.add_comm]

theorem digits_lt
    (i : Identifier) :
    ∀ d ∈ i.digits, d < 16 := by
  intro d hd
  obtain ⟨k, -, rfl⟩ := List.mem_map.mp hd
  exact Nat.mod_lt _ (by decide)

/-- An identifier is read back from its text. -/
theorem ofText?_text (i : Identifier) : ofText? i.text = some i := by
  have hfilter : i.text.toList.filter (· != '-') = i.digits.map Text.hexChar := by
    rw [text, String.toList_ofList]
    refine filter_hyphenate groups ?_
    intro c hc
    obtain ⟨d, hd, rfl⟩ := List.mem_map.mp hc
    exact hexChar_ne_hyphen (digits_lt i d hd)
  have hbits : i.bits.toNat % Nat.pow 16 32 = i.bits.toNat := Nat.mod_eq_of_lt i.bits.isLt
  have hvalue : i.digits.foldl (fun n d => 16 * n + d) 0 = i.bits.toNat :=
    (foldl_digits 32 i.bits.toNat).trans hbits
  simp only [ofText?, hfilter, List.length_map, length_digits, if_true,
    mapM_hexValue? (digits_lt i), Option.map_some, hvalue, BitVec.ofNat_toNat]
  rfl

theorem text_injective : Function.Injective text := by
  intro i j h
  have hread := ofText?_text i
  rw [h, ofText?_text] at hread
  exact (Option.some.inj hread).symm

end Texts

end Identifier

section Drawing

variable (s : Surroundings) (fields : Fields)

/-- The templates that draw an identifier. -/
def identifierCount (ts : List (String × String)) : Nat :=
  ts.countP fun t => t.2 = "${uuid()}"

/-- The texts of `n` identifiers, from the one numbered `first` on. -/
def drawnTexts (first n : Nat) : List String :=
  (List.range' first n).map fun k => (s.identifier k).text

theorem drawnTexts_add (first m n : Nat) :
    drawnTexts s first (m + n) = drawnTexts s first m ++ drawnTexts s (first + m) n := by
  rw [drawnTexts, ← List.range'_append_1, List.map_append]
  rfl

/-- Every other template draws nothing. -/
theorem drawn_resolveTemplate
    {text : String}
    (h : text ≠ "${uuid()}")
    (p : Progress) :
    (resolveTemplate s fields text p).2.drawn = p.drawn := by
  by_cases htimestamp : text = "${timestamp()}"
  · rw [htimestamp, resolveTemplate_timestamp]
  · rw [progress_resolveTemplate s fields h htimestamp]

/-- Templates draw one identifier each time they ask for one, and use it for their header. -/
theorem drawn_evaluateAll (ts : List (String × String)) :
    ∀ p,
      (evaluateAll s fields ts p).2.drawn = p.drawn + identifierCount ts ∧
      pick "${uuid()}" ts (evaluateAll s fields ts p).1 =
        drawnTexts s p.drawn (identifierCount ts) := by
  induction ts with
  | nil => exact fun _ => ⟨rfl, rfl⟩
  | cons t ts ih =>
      intro p
      obtain ⟨name, text⟩ := t
      rw [evaluateAll_cons, pick_cons]
      by_cases h : text = "${uuid()}"
      · subst h
        obtain ⟨hdrawn, hpick⟩ := ih { p with drawn := p.drawn + 1 }
        have hcount :
            identifierCount ((name, "${uuid()}") :: ts) = 1 + identifierCount ts := by
          rw [identifierCount, List.countP_cons_of_pos (by simp), Nat.add_comm]
          rfl
        rw [resolveTemplate_identifier, hdrawn, hpick, hcount, drawnTexts_add]
        exact ⟨Nat.add_assoc _ _ _, rfl⟩
      · obtain ⟨hdrawn, hpick⟩ := ih (resolveTemplate s fields text p).2
        have hcount : identifierCount ((name, text) :: ts) = identifierCount ts := by
          rw [identifierCount, List.countP_cons_of_neg (by simpa using h)]
          rfl
        rw [hdrawn, hpick, hcount, drawn_resolveTemplate s fields h, if_neg h]
        exact ⟨rfl, rfl⟩

end Drawing

namespace Operation

variable {σ : Type}

section Runs

/-- The texts of the identifiers that an operation used: for its headers, and for its messages. -/
def Entry.identifierTexts (entry : Entry σ) : List String :=
  entry.valuesOf "${uuid()}" ++ entry.messages.map fun m => m.id.text

/-- The number of identifiers that an operation draws. -/
def drawCount (operation : Operation σ) : Nat :=
  identifierCount operation.evaluated + operation.messageCount

variable (s : Surroundings)

/-- An operation uses the identifiers that it draws, in the order in which it draws them. -/
theorem identifierTexts_perform
    (operation : Operation σ)
    (p : Progress)
    (t : σ) :
    (operation.perform s (p, t)).2.1.drawn = p.drawn + operation.drawCount ∧
    Entry.identifierTexts ⟨operation, (operation.perform s (p, t)).1⟩ =
      drawnTexts s p.drawn operation.drawCount := by
  obtain ⟨fields, h⟩ := perform_evaluates s p t operation
  obtain ⟨hdrawn, hpick⟩ := drawn_evaluateAll s fields operation.evaluated p
  have hmessages :
      (Entry.messages ⟨operation, (operation.perform s (p, t)).1⟩).map (fun m => m.id.text) =
        drawnTexts s (p.drawn + identifierCount operation.evaluated) operation.messageCount := by
    have hids := congrArg (List.map Identifier.text) h.messages
    rw [List.map_map, List.map_map, hdrawn] at hids
    exact hids
  constructor
  · rw [h.drawn, hdrawn, Nat.add_assoc]
    rfl
  · rw [Entry.identifierTexts, h.values, hpick, hmessages, drawCount, drawnTexts_add]

/-- The number of identifiers that operations draw: one for each template that asks for one, and
one for each message. -/
def drawCounts (operations : List (Operation σ)) : Nat :=
  identifierCount (operations.flatMap evaluated) + operations.countP makesMessage

theorem drawCounts_cons
    (operation : Operation σ)
    (operations : List (Operation σ)) :
    drawCounts (operation :: operations) = operation.drawCount + drawCounts operations := by
  have hcount :
      identifierCount ((operation :: operations).flatMap evaluated) =
        identifierCount operation.evaluated + identifierCount (operations.flatMap evaluated) := by
    rw [identifierCount, List.flatMap_cons, List.countP_append]
    rfl
  rw [drawCounts, hcount, List.countP_cons, drawCounts, drawCount, messageCount]
  omega

/-- A run uses the identifiers that it draws, one after another. -/
theorem identifierTexts_run (operations : List (Operation σ)) :
    ∀ (p : Progress) (t : σ),
      (run s operations (p, t)).2.1.drawn = p.drawn + drawCounts operations ∧
      (run s operations (p, t)).1.flatMap Entry.identifierTexts =
        drawnTexts s p.drawn (drawCounts operations) := by
  induction operations with
  | nil => exact fun _ _ => ⟨rfl, rfl⟩
  | cons operation operations ih =>
      intro p t
      obtain ⟨hdrawn, htexts⟩ := identifierTexts_perform s operation p t
      obtain ⟨hdrawns, htextss⟩ :=
        ih (operation.perform s (p, t)).2.1 (operation.perform s (p, t)).2.2
      rw [hdrawn] at hdrawns htextss
      rw [run_cons, drawCounts_cons, List.flatMap_cons, htexts, drawnTexts_add, ← Nat.add_assoc]
      exact ⟨hdrawns, congrArg (_ ++ ·) htextss⟩

end Runs

section Distinct

variable {s : Surroundings}

/-- Identifiers that differ have texts that differ. -/
theorem nodup_drawnTexts
    {first n : Nat}
    (h : Set.InjOn s.identifier (Set.Ico first (first + n))) :
    (drawnTexts s first n).Nodup := by
  refine List.Nodup.map_on ?_ List.nodup_range'
  intro i hi j hj htext
  exact h (List.mem_range'_1.mp hi) (List.mem_range'_1.mp hj) (Identifier.text_injective htext)

/-- An operation that has no headers to resolve: its topic has none, or its payload is refused. -/
def WithoutHeaders : Operation σ → Prop
  | .resolveTemplate _ _ => False
  | .resolveHeaders spec topic _ => spec.LacksHeaders topic
  | .inject spec topic _ _ => spec.LacksHeaders topic
  | .publish _ spec topic payload =>
      spec.LacksHeaders topic ∨ ∃ e, Fields.decode payload.toUTF8 = .error e
  | _ => True

theorem evaluated_of_withoutHeaders
    {operation : Operation σ}
    (h : operation.WithoutHeaders) :
    operation.evaluated = [] := by
  cases operation with
  | resolveTemplate text fields => exact h.elim
  | resolveHeaders spec topic fields => exact Specification.headerEntries_eq_nil_iff.mpr h
  | inject spec topic fields headers => exact Specification.headerEntries_eq_nil_iff.mpr h
  | undeclaredFields spec topic => rfl
  | topics spec => rfl
  | messageSchema spec topic => rfl
  | publish publisher spec topic payload =>
      cases hdecode : Fields.decode payload.toUTF8 with
      | error e => simp only [evaluated, hdecode]
      | ok fields =>
          simp only [evaluated, hdecode]
          rcases h with hlacks | ⟨e, he⟩
          · exact Specification.headerEntries_eq_nil_iff.mpr hlacks
          · rw [hdecode] at he
            cases he

end Distinct

/-- As long as no identifier is drawn twice, no text of an identifier occurs twice among the
headers and messages of a run, and each one that is drawn is used. -/
theorem identifiers_never_repeat
    (s : Surroundings)
    (operations : List (Operation σ))
    (p : Progress)
    (t : σ)
    (h : Set.InjOn s.identifier
      (Set.Ico p.drawn (run s operations (p, t)).2.1.drawn)) :
    let trace := (run s operations (p, t)).1
    let p' := (run s operations (p, t)).2.1
    let count :=
      identifierCount (operations.flatMap evaluated) + operations.countP makesMessage
    (trace.flatMap Entry.identifierTexts).Nodup ∧
    trace.flatMap Entry.identifierTexts = drawnTexts s p.drawn count ∧
    p'.drawn = p.drawn + count ∧
    (∀ operation ∈ operations, operation.WithoutHeaders →
      ∀ p t, (operation.perform s (p, t)).2.1.drawn = p.drawn + operation.messageCount) ∧
    ∀ entry ∈ trace, entry.SendsOnce := by
  intro trace p' count
  obtain ⟨hdrawn, htexts⟩ := identifierTexts_run s operations p t
  rw [hdrawn] at h
  refine ⟨?_, htexts, hdrawn, ?_, run_sendsOnce s operations (p, t)⟩
  · rw [htexts]
    exact nodup_drawnTexts h
  · intro operation _ hwithout p t
    have hperform := (identifierTexts_perform s operation p t).1
    rw [drawCount, evaluated_of_withoutHeaders hwithout] at hperform
    exact hperform.trans (congrArg (p.drawn + ·) (Nat.zero_add _))

/-- Two identifiers for one transport, none for a topic without headers or for a payload that is
refused, and two for a message. -/
theorem identifiers_never_repeat_orders :
    let s : Surroundings :=
      ⟨fun n => ⟨BitVec.ofNat 128 (0x40008000000000000000 + n)⟩, fun _ => ⟨0⟩⟩
    let orders : HeaderTemplates :=
      .ofList [("x-id", "${uuid()}"), ("x-kind", "order"), ("x-trace", "${uuid()}")]
    let spec : Specification :=
      ⟨none, none,
        .ofList [("bills", ⟨none, some (.ofList [("x-id", "${uuid()}")])⟩),
          ("orders", ⟨none, some orders⟩)],
        .empty⟩
    let accepting : Publisher (List (Topic × List Message)) Nat String :=
      .answering fun _ _ => [.ok 9]
    let operations : List (Operation (List (Topic × List Message))) :=
      [.inject spec "orders" .empty .empty, .resolveHeaders spec "notes" .empty,
        .publish accepting spec "bills" "[", .publish accepting spec "bills" "{}"]
    let trace := (run s operations (.start, [])).1
    Set.InjOn s.identifier (Set.Ico 0 (run s operations (.start, [])).2.1.drawn) ∧
    trace.flatMap Entry.identifierTexts =
      ["00000000-0000-4000-8000-000000000000", "00000000-0000-4000-8000-000000000001",
        "00000000-0000-4000-8000-000000000002", "00000000-0000-4000-8000-000000000003"] ∧
    (trace.flatMap Entry.identifierTexts).Nodup := by
  intro s orders spec accepting operations trace
  have hcount :
      identifierCount (operations.flatMap evaluated) + operations.countP makesMessage = 4 := by
    simp only [operations, evaluated, List.flatMap_cons, List.flatMap_nil, List.countP_cons,
      List.countP_nil, makesMessage, decode_openBracket, decode_emptyObject]
    rfl
  have hdrawn : (run s operations (.start, [])).2.1.drawn = 4 := by
    rw [(identifierTexts_run s operations .start []).1, drawCounts, hcount]
    rfl
  have hinjective : Set.InjOn s.identifier (Set.Ico 0 4) := by
    intro i hi j hj hij
    have hbits := congrArg (fun id : Identifier => id.bits.toNat) hij
    simp only [s, BitVec.toNat_ofNat] at hbits
    have hi := hi.2
    have hj := hj.2
    omega
  rw [← hdrawn] at hinjective
  obtain ⟨hnodup, htexts, -⟩ := identifiers_never_repeat s operations .start [] hinjective
  rw [hcount] at htexts
  refine ⟨hinjective, htexts.trans ?_, hnodup⟩
  decide +kernel

end Operation

end ChannelHeaders
