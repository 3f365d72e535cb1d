import ChannelHeaders.Text.Affix

/-!
# Header templates

A template is a literal, or as a whole a directive: a dollar sign and an expression in
braces.  Three expressions are known: a fresh identifier, a timestamp, and a field of the
payload.  A directive with any other expression stands for itself.

**Results.**
* `render_parse`: a template can be written back from its class.
-/

namespace ChannelHeaders

/-- The classes of header templates. -/
inductive Template where
  /-- A text that stands for itself. -/
  | literal (text : String)
  | identifier
  | timestamp
  /-- The payload field of this name. -/
  | payloadField (name : String)
  /-- A directive that is not known; the whole template. -/
  | unknown (text : String)
deriving DecidableEq, Inhabited

namespace Template

/-- What a directive starts with. -/
def opening : String :=
  "$\x7b"

/-- What a directive ends with. -/
def closing : String :=
  "\x7d"

/-- The expression for a fresh identifier. -/
def identifierExpression : String :=
  "uuid()"

/-- The expression for a timestamp. -/
def timestampExpression : String :=
  "timestamp()"

/-- What stands in front of the name of a payload field. -/
def fieldStem : String :=
  "message.payload."

/-- The directive with a given expression. -/
def directive (expression : String) : String :=
  opening ++ expression ++ closing

/-- The expression of a directive. -/
def expression? (text : String) : Option String :=
  (Text.after? opening text).bind (Text.before? closing)

/-- The class of a template. -/
def parse (text : String) : Template :=
  match expression? text with
  | none => literal text
  | some expression =>
      if expression = identifierExpression then identifier
      else if expression = timestampExpression then timestamp
      else
        match Text.after? fieldStem expression with
        | some name => payloadField name
        | none => unknown text

/-- The text of a template of a given class. -/
def render : Template → String
  | literal text => text
  | identifier => directive identifierExpression
  | timestamp => directive timestampExpression
  | payloadField name => directive (fieldStem ++ name)
  | unknown text => text

/-- An expression stands between the signs of a directive, and nowhere else. -/
theorem expression?_eq_some_iff {text e : String} :
    expression? text = some e ↔ text = directive e := by
  rw [expression?, Option.bind_eq_some_iff]
  constructor
  · rintro ⟨rest, h₁, h₂⟩
    rw [Text.after?_eq_some_iff] at h₁
    rw [Text.before?_eq_some_iff] at h₂
    rw [h₁, h₂, directive, String.append_assoc]
  · rintro rfl
    refine ⟨e ++ closing, ?_, Text.before?_eq_some_iff.mpr rfl⟩
    rw [Text.after?_eq_some_iff, directive, String.append_assoc]

/-- A template is written out as it was read. -/
theorem render_parse (text : String) : (parse text).render = text := by
  unfold parse
  split
  · rfl
  · rename_i e h
    have h := expression?_eq_some_iff.mp h
    split
    · rename_i he
      rw [h, he, render]
    · split
      · rename_i he
        rw [h, he, render]
      · split
        · rename_i name hn
          rw [h, Text.after?_eq_some_iff.mp hn, render]
        · rfl

end Template
end ChannelHeaders
