import ChannelHeaders.Proofs.ResolvedHeaders

/-!
# Classes of templates

The class of a template is read off the form of its text.  A text that is no directive as a
whole is a literal.  A directive is classed by the expression between its braces, which is
everything from the first brace to the last one: a field name may itself hold braces, dots
or the start of a directive.

The forms are listed as a relation of their own.  The relation is then compared with the
function that classes a text, and with the function that writes a class back.

**Results.**
* `parse_eq_iff`: classing a text follows the listed forms, and nothing else.
* `parse_render_iff`: the classes that can be written and read back.
* `parse_exact`: both directions, and what a template of each class resolves to.
-/

namespace ChannelHeaders

open Payload

namespace Template

section Forms

/-- The text is a directive as a whole. -/
def IsDirective (text : String) : Prop :=
  ∃ e, text = "$\x7b" ++ e ++ "\x7d"

/-- The expression has a meaning as a directive. -/
def Known (e : String) : Prop :=
  e = "uuid()" ∨ e = "timestamp()" ∨ ∃ name, e = "message.payload." ++ name

/-- The forms of templates, each with its class. -/
inductive HasForm : String → Template → Prop
  | literal
      {text : String}
      (h : ¬ IsDirective text) :
      HasForm text (.literal text)
  | identifier :
      HasForm ("$\x7b" ++ "uuid()" ++ "\x7d") .identifier
  | timestamp :
      HasForm ("$\x7b" ++ "timestamp()" ++ "\x7d") .timestamp
  | payloadField (name : String) :
      HasForm ("$\x7b" ++ ("message.payload." ++ name) ++ "\x7d") (.payloadField name)
  | unknown
      {e : String}
      (h : ¬ Known e) :
      HasForm ("$\x7b" ++ e ++ "\x7d") (.unknown ("$\x7b" ++ e ++ "\x7d"))

/-- The text that a class holds has the form of the class. -/
def Proper : Template → Prop
  | literal text => ¬ IsDirective text
  | unknown text => ∃ e, text = "$\x7b" ++ e ++ "\x7d" ∧ ¬ Known e
  | identifier => True
  | timestamp => True
  | payloadField _ => True

end Forms

section Classing

/-- A directive holds one expression. -/
theorem directive_inj {e e' : String} : directive e = directive e' ↔ e = e' := by
  rw [directive, directive, String.append_left_inj, String.append_right_inj]

theorem isDirective_iff (text : String) :
    IsDirective text ↔ expression? text ≠ none := by
  rw [Option.ne_none_iff_exists']
  exact exists_congr fun e => expression?_eq_some_iff.symm

/-- The expression of a payload field is neither of the two others. -/
theorem fieldStem_append_ne (name : String) :
    fieldStem ++ name ≠ identifierExpression ∧ fieldStem ++ name ≠ timestampExpression := by
  constructor
  · intro h
    simpa [fieldStem, identifierExpression] using congrArg String.toList h
  · intro h
    simpa [fieldStem, timestampExpression] using congrArg String.toList h

theorem parse_of_not_isDirective
    {text : String}
    (h : ¬ IsDirective text) :
    parse text = .literal text := by
  have hnone : expression? text = none := by
    simpa [isDirective_iff] using h
  rw [parse, hnone]

theorem parse_directive (e : String) :
    parse (directive e) =
      if e = identifierExpression then .identifier
      else if e = timestampExpression then .timestamp
      else
        match Text.after? fieldStem e with
        | some name => .payloadField name
        | none => .unknown (directive e) := by
  have h : expression? (directive e) = some e := expression?_eq_some_iff.mpr rfl
  unfold parse
  split
  · rename_i hnone
    rw [h] at hnone
    cases hnone
  · rename_i e' hsome
    rw [h] at hsome
    cases hsome
    rfl

theorem parse_payloadField (name : String) :
    parse (directive (fieldStem ++ name)) = .payloadField name := by
  have hafter : Text.after? fieldStem (fieldStem ++ name) = some name :=
    Text.after?_eq_some_iff.mpr rfl
  obtain ⟨hidentifier, htimestamp⟩ := fieldStem_append_ne name
  rw [parse_directive, if_neg hidentifier, if_neg htimestamp, hafter]

theorem parse_of_not_known
    {e : String}
    (h : ¬ Known e) :
    parse (directive e) = .unknown (directive e) := by
  have hidentifier : e ≠ identifierExpression := fun he => h (Or.inl he)
  have htimestamp : e ≠ timestampExpression := fun he => h (Or.inr (Or.inl he))
  have hafter : Text.after? fieldStem e = none := by
    cases hname : Text.after? fieldStem e with
    | none => rfl
    | some name => exact absurd (Or.inr (Or.inr ⟨name, Text.after?_eq_some_iff.mp hname⟩)) h
  rw [parse_directive, if_neg hidentifier, if_neg htimestamp, hafter]

theorem parse_of_hasForm
    {text : String}
    {c : Template}
    (h : HasForm text c) :
    parse text = c := by
  cases h with
  | literal h => exact parse_of_not_isDirective h
  | identifier => exact (parse_directive identifierExpression).trans (if_pos rfl)
  | timestamp =>
      refine (parse_directive timestampExpression).trans ?_
      rw [if_neg (by decide), if_pos rfl]
  | payloadField name => exact parse_payloadField name
  | unknown h => exact parse_of_not_known h

/-- Every text has a form. -/
theorem exists_hasForm (text : String) : ∃ c, HasForm text c := by
  by_cases hdirective : IsDirective text
  · obtain ⟨e, rfl⟩ := hdirective
    by_cases hknown : Known e
    · obtain rfl | rfl | ⟨name, rfl⟩ := hknown
      · exact ⟨_, .identifier⟩
      · exact ⟨_, .timestamp⟩
      · exact ⟨_, .payloadField name⟩
    · exact ⟨_, .unknown hknown⟩
  · exact ⟨_, .literal hdirective⟩

/-- A text is classed by its form. -/
theorem parse_eq_iff
    (text : String)
    (c : Template) :
    parse text = c ↔ HasForm text c := by
  refine ⟨?_, parse_of_hasForm⟩
  rintro rfl
  obtain ⟨c, h⟩ := exists_hasForm text
  rwa [parse_of_hasForm h]

theorem HasForm.proper
    {text : String}
    {c : Template}
    (h : HasForm text c) :
    c.Proper := by
  cases h with
  | literal h => exact h
  | identifier => exact trivial
  | timestamp => exact trivial
  | payloadField name => exact trivial
  | unknown h => exact ⟨_, rfl, h⟩

theorem hasForm_render
    {c : Template}
    (h : c.Proper) :
    HasForm c.render c := by
  cases c with
  | literal text => exact .literal h
  | identifier => exact .identifier
  | timestamp => exact .timestamp
  | payloadField name => exact .payloadField name
  | unknown text =>
      obtain ⟨e, rfl, h⟩ := h
      exact .unknown h

/-- A class can be written and read back when its text has its form. -/
theorem parse_render_iff (c : Template) : parse c.render = c ↔ c.Proper :=
  (parse_eq_iff c.render c).trans ⟨HasForm.proper, hasForm_render⟩

end Classing

section Evaluation

/-- A text that is no directive with a meaning stands for itself. -/
theorem resolveTemplate_of_not_known
    {text : String}
    (h : ∀ e, text = "$\x7b" ++ e ++ "\x7d" → ¬ Known e)
    (s : Surroundings)
    (fields : Fields)
    (p : Progress) :
    resolveTemplate s fields text p = (text, p) := by
  by_cases hdirective : IsDirective text
  · obtain ⟨e, rfl⟩ := hdirective
    exact resolveTemplate_fixed s fields (Or.inr (parse_of_not_known (h e rfl))) p
  · exact resolveTemplate_fixed s fields (Or.inl (parse_of_not_isDirective hdirective)) p

/-- A payload field is taken as it is, and nothing is drawn or read for it. -/
theorem resolveTemplate_field
    (s : Surroundings)
    (fields : Fields)
    (name : String)
    (p : Progress) :
    resolveTemplate s fields ("$\x7b" ++ ("message.payload." ++ name) ++ "\x7d") p =
      (((fields.get? name).map Value.headerText).getD "", p) :=
  resolveTemplate_payloadField s fields (parse_payloadField name) p

end Evaluation

/-- The class of a template is exact and keeps the whole text.  A template without a meaning
stands for itself, and the text of a payload field is not read as a template again. -/
theorem parse_exact :
    (∀ text, (parse text).render = text) ∧
    (∀ text c, parse text = c ↔ HasForm text c) ∧
    (∀ c, parse c.render = c ↔ c.Proper) ∧
    ∀ (s : Surroundings) (fields : Fields) (p : Progress),
      (∀ text,
        (∀ e, text = "$\x7b" ++ e ++ "\x7d" → ¬ Known e) →
        resolveTemplate s fields text p = (text, p)) ∧
      ∀ name,
        let field := "$\x7b" ++ ("message.payload." ++ name) ++ "\x7d"
        (fields.get? name = none → resolveTemplate s fields field p = ("", p)) ∧
        (∀ value, fields.get? name = some value →
          resolveTemplate s fields field p = (value.headerText, p)) ∧
        ∀ text, fields.get? name = some (.text text) →
          resolveTemplate s fields field p = (text, p) := by
  refine ⟨render_parse, parse_eq_iff, parse_render_iff, ?_⟩
  intro s fields p
  refine ⟨?_, ?_⟩
  · intro text h
    exact resolveTemplate_of_not_known h s fields p
  · intro name field
    have hfield := resolveTemplate_field s fields name p
    refine ⟨?_, ?_, ?_⟩
    · intro h
      rwa [h] at hfield
    · intro value h
      rwa [h] at hfield
    · intro text h
      rwa [h] at hfield

/-- A literal around a directive, a directive that is cut short, and a payload field that reads
like a directive. -/
theorem parse_exact_nested :
    let fields : Fields := .ofList [("a.${b}", .text "${uuid()}")]
    ∀ (s : Surroundings) (p : Progress),
      resolveTemplate s fields "$\x7b" p = ("$\x7b", p) ∧
      resolveTemplate s fields "${now()}" p = ("${now()}", p) ∧
      resolveTemplate s fields "$\x7bmessage.payload.a.$\x7bb\x7d\x7d" p =
        ("${uuid()}", p) ∧
      resolveTemplate s fields "${message.payload.}" p = ("", p) := by
  intro fields s p
  obtain ⟨-, -, -, hresolve⟩ := parse_exact
  obtain ⟨hself, hfield⟩ := hresolve s fields p
  have hshort : ∀ e, "$\x7b" = "$\x7b" ++ e ++ "\x7d" → ¬ Known e := by
    intro e he
    simpa using congrArg String.toList he
  have hnow : ∀ e, "${now()}" = "$\x7b" ++ e ++ "\x7d" → ¬ Known e := by
    intro e he
    obtain rfl : "now()" = e := directive_inj.mp he
    rintro (h | h | ⟨name, h⟩)
    · exact absurd h (by decide)
    · exact absurd h (by decide)
    · simpa using congrArg String.toList h
  refine ⟨hself _ hshort, hself _ hnow, ?_, ?_⟩
  · exact (hfield "a.${b}").2.2 _ rfl
  · exact (hfield "").1 rfl

end Template

end ChannelHeaders
