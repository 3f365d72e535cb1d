import ChannelHeaders.Text.Digit

/-!
# String literals of JSON

Between its quotes a string literal spells each character either as itself or by an
escape.  Quotes, backslashes and control characters can only be escaped.  A character
beyond the first 65536 is escaped as a pair of surrogates.

**Writing** uses the short escapes where there is one, four hexadecimal digits for the
other control characters, and the character itself otherwise.

**Results.**
* `length_unquote?`: reading takes at least the closing quote.
-/

namespace ChannelHeaders
namespace Json

/-- The double quote. -/
def quote : Char :=
  '\x22'

/-- The value of four hexadecimal digits. -/
def hexUnit? (a b c d : Char) : Option Nat :=
  match Text.hexValue? a, Text.hexValue? b, Text.hexValue? c, Text.hexValue? d with
  | some a, some b, some c, some d => some (4096 * a + 256 * b + 16 * c + d)
  | _, _, _, _ => none

/-- The units that only come as the first of a pair. -/
def isLeading (u : Nat) : Bool :=
  0xd800 ≤ u && u < 0xdc00

/-- The units that only come as the second of a pair. -/
def isTrailing (u : Nat) : Bool :=
  0xdc00 ≤ u && u < 0xe000

/-- The character that a pair of units stands for. -/
def pairChar (u v : Nat) : Char :=
  Char.ofNat (0x10000 + 1024 * (u - 0xd800) + (v - 0xdc00))

/-- The character that a letter behind a backslash stands for. -/
def shortEscape? (c : Char) : Option Char :=
  match c with
  | '\x22' => some '\x22'
  | '\\' => some '\\'
  | '/' => some '/'
  | 'b' => some '\x08'
  | 'f' => some '\x0c'
  | 'n' => some '\n'
  | 'r' => some '\r'
  | 't' => some '\t'
  | _ => none

/-- The characters that a string literal spells, and what follows its closing quote. -/
def unquote? : List Char → Option (List Char × List Char)
  | [] => none
  | '\\' :: 'u' :: a :: b :: c :: d :: cs =>
      match hexUnit? a b c d with
      | none => none
      | some u =>
          if isLeading u then
            match cs with
            | '\\' :: 'u' :: e :: f :: g :: h :: cs =>
                match (hexUnit? e f g h).filter isTrailing with
                | none => none
                | some v => (unquote? cs).map fun (s, rest) => (pairChar u v :: s, rest)
            | _ => none
          else if isTrailing u then none
          else (unquote? cs).map fun (s, rest) => (Char.ofNat u :: s, rest)
  | '\\' :: c :: cs =>
      match shortEscape? c with
      | none => none
      | some c => (unquote? cs).map fun (s, rest) => (c :: s, rest)
  | c :: cs =>
      if c = quote then some ([], cs)
      else if c.toNat < 0x20 ∨ c = '\\' then none
      else (unquote? cs).map fun (s, rest) => (c :: s, rest)

/-- Reading a quoted text consumes at least its closing quote. -/
theorem length_unquote?
    {cs s rest : List Char}
    (h : unquote? cs = some (s, rest)) :
    rest.length < cs.length := by
  fun_induction unquote? cs generalizing s rest with
  | case1 => simp at h
  | case2 => simp at h
  | case3 => simp at h
  | case4 a b c d u _ _ e f g k cs v _ ih =>
      obtain ⟨⟨s', rest'⟩, h₁, h₂⟩ := Option.map_eq_some_iff.mp h
      simp only [Prod.mk.injEq] at h₂
      have := ih h₁
      rw [← h₂.2]
      simp only [List.length_cons]
      omega
  | case5 => simp at h
  | case6 => simp at h
  | case7 a b c d cs u _ _ _ ih =>
      obtain ⟨⟨s', rest'⟩, h₁, h₂⟩ := Option.map_eq_some_iff.mp h
      simp only [Prod.mk.injEq] at h₂
      have := ih h₁
      rw [← h₂.2]
      simp only [List.length_cons]
      omega
  | case8 => simp at h
  | case9 c cs _ c' _ ih =>
      obtain ⟨⟨s', rest'⟩, h₁, h₂⟩ := Option.map_eq_some_iff.mp h
      simp only [Prod.mk.injEq] at h₂
      have := ih h₁
      rw [← h₂.2]
      simp only [List.length_cons]
      omega
  | case10 cs =>
      simp only [Option.some.injEq, Prod.mk.injEq] at h
      rw [← h.2]
      simp
  | case11 => simp at h
  | case12 c cs _ _ _ _ ih =>
      obtain ⟨⟨s', rest'⟩, h₁, h₂⟩ := Option.map_eq_some_iff.mp h
      simp only [Prod.mk.injEq] at h₂
      have := ih h₁
      rw [← h₂.2]
      simp only [List.length_cons]
      omega

/-- How a character is written between quotes. -/
def spellChar (c : Char) : List Char :=
  if c = quote then ['\\', quote]
  else if c = '\\' then ['\\', '\\']
  else if c = '\x08' then ['\\', 'b']
  else if c = '\x0c' then ['\\', 'f']
  else if c = '\n' then ['\\', 'n']
  else if c = '\r' then ['\\', 'r']
  else if c = '\t' then ['\\', 't']
  else if c.toNat < 0x20 then
    ['\\', 'u', '0', '0', Text.hexChar (c.toNat / 16), Text.hexChar (c.toNat % 16)]
  else [c]

/-- The literal of a string. -/
def spellText (s : String) : List Char :=
  quote :: (s.toList.flatMap spellChar ++ [quote])

end Json
end ChannelHeaders
