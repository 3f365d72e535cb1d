import ChannelHeaders.Json.Numeral
import ChannelHeaders.Json.Quoted
import ChannelHeaders.Text.Affix

/-!
# Tokens of a JSON text

A JSON text is a list of tokens with white space between them.  White space is the space,
the tab, the line feed and the carriage return.

**Results.**
* `length_readToken?`: reading a token takes at least one character.
-/

namespace ChannelHeaders
namespace Json

/-- The building blocks of a JSON text. -/
inductive Token where
  | beginArray
  | endArray
  | beginObject
  | endObject
  | comma
  | colon
  | null
  | bool (value : Bool)
  | number (value : Number)
  | text (value : String)
deriving DecidableEq

/-- The characters that may stand between tokens. -/
def isWhitespace (c : Char) : Bool :=
  c == ' ' || c == '\t' || c == '\n' || c == '\r'

/-- Reads the token that starts with `c`, and returns what follows it. -/
def readToken?
    (c : Char)
    (cs : List Char) :
    Option (Token × List Char) :=
  match c with
  | '[' => some (.beginArray, cs)
  | ']' => some (.endArray, cs)
  | '\x7b' => some (.beginObject, cs)
  | '\x7d' => some (.endObject, cs)
  | ',' => some (.comma, cs)
  | ':' => some (.colon, cs)
  | 'n' => (Text.dropStart? ['u', 'l', 'l'] cs).map fun cs => (.null, cs)
  | 't' => (Text.dropStart? ['r', 'u', 'e'] cs).map fun cs => (.bool true, cs)
  | 'f' => (Text.dropStart? ['a', 'l', 's', 'e'] cs).map fun cs => (.bool false, cs)
  | '\x22' => (unquote? cs).map fun (s, cs) => (.text (String.ofList s), cs)
  | c => (readNumeral? (c :: cs)).bind fun (n, cs) => n.value?.map fun v => (.number v, cs)

/-- Reading a token consumes at least one character. -/
theorem length_readToken?
    {c : Char}
    {cs rest : List Char}
    {t : Token}
    (h : readToken? c cs = some (t, rest)) :
    rest.length < (c :: cs).length := by
  rw [List.length_cons]
  unfold readToken? at h
  split at h
  case h_1 | h_2 | h_3 | h_4 | h_5 | h_6 =>
    simp only [Option.some.injEq, Prod.mk.injEq] at h
    rw [h.2]
    exact Nat.lt_succ_self _
  case h_7 | h_8 | h_9 =>
    obtain ⟨cs', h₁, h₂⟩ := Option.map_eq_some_iff.mp h
    have := Text.length_dropStart? h₁
    simp only [Prod.mk.injEq] at h₂
    rw [← h₂.2]
    omega
  case h_10 =>
    obtain ⟨⟨s, cs'⟩, h₁, h₂⟩ := Option.map_eq_some_iff.mp h
    have := length_unquote? h₁
    simp only [Prod.mk.injEq] at h₂
    rw [← h₂.2]
    omega
  case h_11 =>
    obtain ⟨⟨n, cs'⟩, h₁, h⟩ := Option.bind_eq_some_iff.mp h
    obtain ⟨v, _, h₂⟩ := Option.map_eq_some_iff.mp h
    have := length_readNumeral? h₁
    simp only [Prod.mk.injEq] at h₂
    rw [List.length_cons, h₂.2] at this
    exact this

/-- The tokens of a text. -/
def tokens? (cs : List Char) : Option (List Token) :=
  match cs with
  | [] => some []
  | c :: cs' =>
      if isWhitespace c then tokens? cs'
      else
        match _h : readToken? c cs' with
        | none => none
        | some (t, rest) => (tokens? rest).map (t :: ·)
termination_by cs.length
decreasing_by
  · exact Nat.lt_succ_self _
  · exact length_readToken? _h

/-- How a token is written. -/
def Token.spell : Token → List Char
  | beginArray => ['[']
  | endArray => [']']
  | beginObject => ['\x7b']
  | endObject => ['\x7d']
  | comma => [',']
  | colon => [':']
  | null => "null".toList
  | bool b => if b then "true".toList else "false".toList
  | number n => (n.text .payload).toList
  | text s => spellText s

end Json
end ChannelHeaders
