import ChannelHeaders.Json.Token
import ChannelHeaders.Proofs.DecimalTexts

/-!
# Spellings of JSON tokens

A string can be spelled in many ways: each character stands for itself, is escaped by a
letter, or is escaped by the hexadecimal digits of its one or two units of 16 bits.
Between tokens there may be white space.  This module says which texts spell a list of
tokens, without the reader, and proves that the reader finds the tokens again.

Numbers are integers in their usual spelling here.  An integer must be followed by
something that does not go on with it.

**Results.**
* `unquote?_spelled`: every spelling of a string is read as the string.
* `readNumeral?_integer`: the digits of an integer are read as the integer.
* `tokens?_spelled`: every spelling of a list of tokens is read as the list.
-/

namespace ChannelHeaders
namespace Json

section Spellings

/-- A hexadecimal digit of a value, in either case. -/
def HexDigit
    (c : Char)
    (value : Nat) :
    Prop :=
  "0123456789abcdef".toList[value]? = some c ∨ "0123456789ABCDEF".toList[value]? = some c

/-- The escape of a unit by its four hexadecimal digits. -/
inductive SpellsUnit : Nat → List Char → Prop
  | digits
      {a b c d : Char}
      {i j k l : Nat}
      (ha : HexDigit a i)
      (hb : HexDigit b j)
      (hc : HexDigit c k)
      (hd : HexDigit d l) :
      SpellsUnit (4096 * i + 256 * j + 16 * k + l) ['\\', 'u', a, b, c, d]

/-- The characters that are escaped by a letter, with their letters. -/
def shortEscapes : List (Char × Char) :=
  [('\x22', '\x22'), ('\\', '\\'), ('/', '/'), ('\x08', 'b'), ('\x0c', 'f'), ('\n', 'n'),
    ('\r', 'r'), ('\t', 't')]

/-- The spellings of a character between quotes. -/
inductive SpellsChar (c : Char) : List Char → Prop
  | plain
      (hvisible : 0x20 ≤ c.toNat)
      (hquote : c ≠ '\x22')
      (hbackslash : c ≠ '\\') :
      SpellsChar c [c]
  | short
      {letter : Char}
      (h : (c, letter) ∈ shortEscapes) :
      SpellsChar c ['\\', letter]
  | unit
      {w : List Char}
      (h : SpellsUnit c.toNat w) :
      SpellsChar c w
  /-- The units of a character beyond the first 65536. -/
  | pair
      {v w : List Char}
      (hc : 0x10000 ≤ c.toNat)
      (hleading : SpellsUnit (0xd800 + (c.toNat - 0x10000) / 1024) v)
      (htrailing : SpellsUnit (0xdc00 + (c.toNat - 0x10000) % 1024) w) :
      SpellsChar c (v ++ w)

/-- The spellings of characters between quotes. -/
inductive SpellsChars : List Char → List Char → Prop
  | nil : SpellsChars [] []
  | cons
      {c : Char}
      {cs v w : List Char}
      (hc : SpellsChar c v)
      (hcs : SpellsChars cs w) :
      SpellsChars (c :: cs) (v ++ w)

/-- The spellings of a token. -/
inductive SpellsToken : Token → List Char → Prop
  | beginArray : SpellsToken .beginArray ['[']
  | endArray : SpellsToken .endArray [']']
  | beginObject : SpellsToken .beginObject ['\x7b']
  | endObject : SpellsToken .endObject ['\x7d']
  | comma : SpellsToken .comma [',']
  | colon : SpellsToken .colon [':']
  | null : SpellsToken .null ['n', 'u', 'l', 'l']
  | bool (b : Bool) :
      SpellsToken (.bool b) (if b then ['t', 'r', 'u', 'e'] else ['f', 'a', 'l', 's', 'e'])
  | integer (w : Word) : SpellsToken (.number (.integer w)) (toString w.val).toList
  | text
      {s : String}
      {w : List Char}
      (h : SpellsChars s.toList w) :
      SpellsToken (.text s) ('\x22' :: (w ++ ['\x22']))

/-- The rest of a text does not go on with a number. -/
def EndsNumber (rest : List Char) : Prop :=
  ∀ c ∈ rest.head?, c.isDigit = false ∧ c ≠ '.' ∧ c ≠ 'e' ∧ c ≠ 'E'

/-- The texts of a list of tokens, with white space anywhere between the tokens. -/
inductive SpellsTokens : List Token → List Char → Prop
  | nil : SpellsTokens [] []
  | blank
      {ts : List Token}
      {c : Char}
      {cs : List Char}
      (hc : c ∈ [' ', '\t', '\n', '\r'])
      (h : SpellsTokens ts cs) :
      SpellsTokens ts (c :: cs)
  | token
      {t : Token}
      {ts : List Token}
      {w cs : List Char}
      (ht : SpellsToken t w)
      (hend : ∀ n, t = .number n → EndsNumber cs)
      (h : SpellsTokens ts cs) :
      SpellsTokens (t :: ts) (w ++ cs)

end Spellings

section Strings

theorem HexDigit.lt_sixteen
    {c : Char}
    {value : Nat}
    (h : HexDigit c value) :
    value < 16 := by
  rcases h with h | h
  · exact (List.getElem?_eq_some_iff.mp h).1
  · exact (List.getElem?_eq_some_iff.mp h).1

theorem HexDigit.hexValue?_eq
    {c : Char}
    {value : Nat}
    (h : HexDigit c value) :
    Text.hexValue? c = some value := by
  have hall : ∀ v : Fin 16,
      ("0123456789abcdef".toList[v.val]?.bind Text.hexValue? = some v.val) ∧
      ("0123456789ABCDEF".toList[v.val]?.bind Text.hexValue? = some v.val) := by
    decide
  have hvalue := hall ⟨value, h.lt_sixteen⟩
  rcases h with h | h
  · simpa only [h, Option.bind_some] using hvalue.1
  · simpa only [h, Option.bind_some] using hvalue.2

theorem shortEscape?_of_mem
    {c letter : Char}
    (h : (c, letter) ∈ shortEscapes) :
    letter ≠ 'u' ∧ shortEscape? letter = some c := by
  have hall : ∀ p ∈ shortEscapes, p.2 ≠ 'u' ∧ shortEscape? p.2 = some p.1 := by
    decide
  exact hall _ h

theorem toNat_not_surrogate (c : Char) :
    isLeading c.toNat = false ∧ isTrailing c.toNat = false := by
  have hvalid : c.toNat < 0xd800 ∨ 0xdfff < c.toNat ∧ c.toNat < 0x110000 := c.valid
  simp only [isLeading, isTrailing, Bool.and_eq_false_iff, decide_eq_false_iff_not]
  omega

theorem SpellsUnit.exists_digits
    {u : Nat}
    {w : List Char}
    (h : SpellsUnit u w) :
    ∃ a b c d, w = ['\\', 'u', a, b, c, d] ∧ hexUnit? a b c d = some u := by
  cases h with
  | @digits a b c d i j k l ha hb hc hd =>
      refine ⟨a, b, c, d, rfl, ?_⟩
      rw [hexUnit?, ha.hexValue?_eq, hb.hexValue?_eq, hc.hexValue?_eq, hd.hexValue?_eq]

/-- A character is read from its unit. -/
theorem unquote?_unit
    {u : Nat}
    {w : List Char}
    (h : SpellsUnit u w)
    (hleading : isLeading u = false)
    (htrailing : isTrailing u = false)
    (cs : List Char) :
    unquote? (w ++ cs) = (unquote? cs).map fun p => (Char.ofNat u :: p.1, p.2) := by
  obtain ⟨a, b, c, d, rfl, hunit⟩ := h.exists_digits
  simp only [List.cons_append, List.nil_append]
  rw [unquote?]
  simp only [hunit, hleading, htrailing, Bool.false_eq_true, if_false]

/-- A character is read from its two units. -/
theorem unquote?_pair
    {u u' : Nat}
    {v w : List Char}
    (h : SpellsUnit u v)
    (h' : SpellsUnit u' w)
    (hleading : isLeading u = true)
    (htrailing : isTrailing u' = true)
    (cs : List Char) :
    unquote? (v ++ w ++ cs) = (unquote? cs).map fun p => (pairChar u u' :: p.1, p.2) := by
  obtain ⟨a, b, c, d, rfl, hunit⟩ := h.exists_digits
  obtain ⟨a', b', c', d', rfl, hunit'⟩ := h'.exists_digits
  simp only [List.cons_append, List.nil_append]
  rw [unquote?]
  simp only [hunit, hunit', hleading, htrailing, if_true, Option.filter_some]

/-- A spelled character is read first, and then the rest. -/
theorem unquote?_spelledChar
    {c : Char}
    {w : List Char}
    (h : SpellsChar c w)
    (cs : List Char) :
    unquote? (w ++ cs) = (unquote? cs).map fun p => (c :: p.1, p.2) := by
  cases h with
  | plain hvisible hquote hbackslash =>
      have hallowed : ¬(c.toNat < 0x20 ∨ c = '\\') := by
        rintro (hlt | heq)
        · exact absurd hlt (Nat.not_lt.mpr hvisible)
        · exact hbackslash heq
      rw [List.singleton_append, unquote?]
      · rw [if_neg (show c ≠ quote from hquote), if_neg hallowed]
      · intro _ _ _ _ _ heq
        exact absurd heq hbackslash
      · intro _ _ heq
        exact absurd heq hbackslash
  | @short letter h =>
      obtain ⟨hu, hletter⟩ := shortEscape?_of_mem h
      simp only [List.cons_append, List.nil_append]
      rw [unquote?]
      · simp only [hletter]
      · intro _ _ _ _ _ heq
        exact absurd heq hu
  | unit h =>
      obtain ⟨hleading, htrailing⟩ := toNat_not_surrogate c
      rw [unquote?_unit h hleading htrailing, Char.ofNat_toNat]
  | pair hc hleading htrailing =>
      have hvalid : c.toNat < 0xd800 ∨ 0xdfff < c.toNat ∧ c.toNat < 0x110000 := c.valid
      have hchar :
          pairChar (0xd800 + (c.toNat - 0x10000) / 1024) (0xdc00 + (c.toNat - 0x10000) % 1024) =
            c := by
        have hsum :
            0x10000 + 1024 * (0xd800 + (c.toNat - 0x10000) / 1024 - 0xd800) +
              (0xdc00 + (c.toNat - 0x10000) % 1024 - 0xdc00) = c.toNat := by
          omega
        rw [pairChar, hsum, Char.ofNat_toNat]
      rw [unquote?_pair hleading htrailing, hchar]
      · simp only [isLeading, Bool.and_eq_true, decide_eq_true_eq]
        omega
      · simp only [isTrailing, Bool.and_eq_true, decide_eq_true_eq]
        omega

/-- Every spelling of characters is read as the characters, up to the closing quote. -/
theorem unquote?_spelled
    {s w : List Char}
    (h : SpellsChars s w)
    (rest : List Char) :
    unquote? (w ++ '\x22' :: rest) = some (s, rest) := by
  induction h with
  | nil =>
      rw [List.nil_append, unquote?]
      · rw [if_pos (show '\x22' = quote from rfl)]
      · intro _ _ _ _ _ heq
        exact absurd heq (by decide)
      · intro _ _ heq
        exact absurd heq (by decide)
  | @cons c cs v w hc hcs ih =>
      rw [List.append_assoc, unquote?_spelledChar hc, ih, Option.map_some]

end Strings

section Integers

theorem EndsNumber.takeWhile_eq_nil
    {rest : List Char}
    (h : EndsNumber rest) :
    rest.takeWhile Char.isDigit = [] := by
  cases rest with
  | nil => rfl
  | cons c cs => rw [List.takeWhile_cons, (h c rfl).1, if_neg Bool.false_ne_true]

theorem EndsNumber.dropWhile_eq_self
    {rest : List Char}
    (h : EndsNumber rest) :
    rest.dropWhile Char.isDigit = rest := by
  cases rest with
  | nil => rfl
  | cons c cs => rw [List.dropWhile_cons, (h c rfl).1, if_neg Bool.false_ne_true]

/-- Digits are read up to the end of the number. -/
theorem readDigits?_append
    {ds rest : List Char}
    (hne : ds ≠ [])
    (hds : ∀ d ∈ ds, d.isDigit = true)
    (hrest : EndsNumber rest) :
    readDigits? (ds ++ rest) = some (ds, rest) := by
  have htake : (ds ++ rest).takeWhile Char.isDigit = ds := by
    rw [List.takeWhile_append_of_pos hds, hrest.takeWhile_eq_nil, List.append_nil]
  have hdrop : (ds ++ rest).dropWhile Char.isDigit = rest := by
    rw [List.dropWhile_append_of_pos hds, hrest.dropWhile_eq_self]
  rw [readDigits?, htake, hdrop]
  cases ds with
  | nil => exact absurd rfl hne
  | cons d ds => rfl

theorem readWhole?_toDigits
    (n : Nat)
    {rest : List Char}
    (hrest : EndsNumber rest) :
    readWhole? (Nat.toDigits 10 n ++ rest) = some (Nat.toDigits 10 n, rest) := by
  have hdigits : readDigits? (Nat.toDigits 10 n ++ rest) = some (Nat.toDigits 10 n, rest) :=
    readDigits?_append Nat.toDigits_ne_nil
      (fun d hd => Nat.isDigit_of_mem_toDigits (by decide) (by decide) hd) hrest
  have hzero : ∀ d ds, Nat.toDigits 10 n ≠ '0' :: d :: ds := by
    intro d ds heq
    have hn := eq_zero_of_head?_toDigits n (by rw [heq]; rfl)
    rw [hn, Nat.toDigits_zero] at heq
    cases heq
  -- The longer texts with a zero in front are ruled out by the fact above.
  simp only [readWhole?, hdigits, Option.bind_some]

theorem readFraction?_of_ends
    {rest : List Char}
    (h : EndsNumber rest) :
    readFraction? rest = some (none, rest) := by
  unfold readFraction?
  split
  · exact absurd rfl (h '.' rfl).2.1
  · rfl

theorem readExponent?_of_ends
    {rest : List Char}
    (h : EndsNumber rest) :
    readExponent? rest = some (none, rest) := by
  cases rest with
  | nil => rfl
  | cons c cs =>
      have hc := h c rfl
      rw [readExponent?, if_neg (not_or.mpr ⟨hc.2.2.1, hc.2.2.2⟩)]

/-- The literal of an integer, behind its sign. -/
theorem readNumeral?_toDigits
    {cs rest : List Char}
    {negative : Bool}
    {n : Nat}
    (hsign : readMinus cs = (negative, Nat.toDigits 10 n ++ rest))
    (hrest : EndsNumber rest) :
    readNumeral? cs = some (⟨negative, Nat.toDigits 10 n, none, none⟩, rest) := by
  rw [readNumeral?, hsign]
  simp only [readWhole?_toDigits n hrest, readFraction?_of_ends hrest,
    readExponent?_of_ends hrest, Option.bind_some, Option.map_some]

theorem value?_toDigits
    {negative : Bool}
    {n : Nat}
    {w : Word}
    (hzero : negative = true → n ≠ 0)
    (hvalue : w.val = if negative then -(n : Int) else n) :
    Numeral.value? ⟨negative, Nat.toDigits 10 n, none, none⟩ = some (.integer w) := by
  have hdigits : digitsOf (Nat.toDigits 10 n) = n := Nat.ofDigitChars_ten_toDigits
  have hinteger : Numeral.isInteger ⟨negative, Nat.toDigits 10 n, none, none⟩ = true := by
    cases negative with
    | true => simpa [Numeral.isInteger, hdigits] using hzero
    | false => rfl
  rw [Numeral.value?, if_pos hinteger, Numeral.integer]
  simp only [hdigits, ← hvalue, Word.ofInt?_val]

theorem exists_cons_toDigits (n : Nat) :
    ∃ d ds, Nat.toDigits 10 n = d :: ds ∧ d.isDigit = true := by
  cases hn : Nat.toDigits 10 n with
  | nil => exact absurd hn Nat.toDigits_ne_nil
  | cons d ds =>
      have hmem : d ∈ Nat.toDigits 10 n := hn ▸ List.mem_cons_self
      exact ⟨d, ds, rfl, Nat.isDigit_of_mem_toDigits (by decide) (by decide) hmem⟩

/-- The sign and the digits of an integer. -/
theorem exists_digits (w : Word) :
    ∃ negative n, w.val = (if negative then -(n : Int) else n) ∧ (negative = true → n ≠ 0) ∧
      (toString w.val).toList = (if negative then ['-'] else []) ++ Nat.toDigits 10 n := by
  rw [Int.toString_eq_repr, Int.repr_eq_if]
  by_cases hw : 0 ≤ w.val
  · refine ⟨false, w.val.toNat, ?_, fun h => absurd h Bool.false_ne_true, ?_⟩
    · exact (Int.toNat_of_nonneg hw).symm
    · rw [if_pos hw, Nat.toList_repr]
      rfl
  · refine ⟨true, (-w.val).toNat, ?_, fun _ => ?_, ?_⟩
    · rw [if_pos rfl]
      omega
    · omega
    · rw [if_neg hw, String.toList_append, Nat.toList_repr]
      rfl

theorem readMinus_digits
    (negative : Bool)
    (n : Nat)
    (rest : List Char) :
    readMinus ((if negative then ['-'] else []) ++ Nat.toDigits 10 n ++ rest) =
      (negative, Nat.toDigits 10 n ++ rest) := by
  cases negative with
  | true => rfl
  | false =>
      obtain ⟨d, ds, hn, hd⟩ := exists_cons_toDigits n
      rw [hn]
      simp only [Bool.false_eq_true, if_false, List.nil_append, List.cons_append]
      unfold readMinus
      split
      · rename_i heq
        obtain ⟨rfl, -⟩ := List.cons.inj heq
        exact absurd hd (by decide)
      · rfl

/-- An integer is read from its usual spelling. -/
theorem readNumeral?_integer
    (w : Word)
    {rest : List Char}
    (hrest : EndsNumber rest) :
    ∃ n, readNumeral? ((toString w.val).toList ++ rest) = some (n, rest) ∧
      n.value? = some (.integer w) := by
  obtain ⟨negative, n, hvalue, hzero, htext⟩ := exists_digits w
  refine ⟨⟨negative, Nat.toDigits 10 n, none, none⟩, ?_, value?_toDigits hzero hvalue⟩
  rw [htext]
  exact readNumeral?_toDigits (readMinus_digits negative n rest) hrest

end Integers

section Tokens

/-- What starts like a number is read as a number. -/
theorem readToken?_number
    {c : Char}
    (hc : c = '-' ∨ c.isDigit = true)
    (cs : List Char) :
    isWhitespace c = false ∧
      readToken? c cs = (readNumeral? (c :: cs)).bind fun (n, cs) =>
        n.value?.map fun v => (.number v, cs) := by
  constructor
  · rw [isWhitespace]
    simp only [Bool.or_eq_false_iff, beq_eq_false_iff_ne]
    refine ⟨⟨⟨?_, ?_⟩, ?_⟩, ?_⟩
    all_goals
      rintro rfl
      exact absurd hc (by decide)
  · unfold readToken?
    split
    case h_11 => rfl
    all_goals exact absurd hc (by decide)

theorem exists_cons_integer (w : Word) :
    ∃ c cs, (toString w.val).toList = c :: cs ∧ (c = '-' ∨ c.isDigit = true) := by
  obtain ⟨negative, n, -, -, htext⟩ := exists_digits w
  obtain ⟨d, ds, hn, hd⟩ := exists_cons_toDigits n
  rw [htext, hn]
  cases negative with
  | true => exact ⟨'-', d :: ds, rfl, Or.inl rfl⟩
  | false => exact ⟨d, ds, rfl, Or.inr hd⟩

/-- The text of a token starts with a visible character, from which the token is read. -/
theorem SpellsToken.exists_read
    {t : Token}
    {w rest : List Char}
    (h : SpellsToken t w)
    (hend : ∀ n, t = .number n → EndsNumber rest) :
    ∃ c cs, w ++ rest = c :: cs ∧ isWhitespace c = false ∧ readToken? c cs = some (t, rest) := by
  cases h with
  | beginArray => exact ⟨_, _, rfl, rfl, rfl⟩
  | endArray => exact ⟨_, _, rfl, rfl, rfl⟩
  | beginObject => exact ⟨_, _, rfl, rfl, rfl⟩
  | endObject => exact ⟨_, _, rfl, rfl, rfl⟩
  | comma => exact ⟨_, _, rfl, rfl, rfl⟩
  | colon => exact ⟨_, _, rfl, rfl, rfl⟩
  | null => exact ⟨_, _, rfl, rfl, rfl⟩
  | bool b =>
      cases b with
      | true => exact ⟨_, _, rfl, rfl, rfl⟩
      | false => exact ⟨_, _, rfl, rfl, rfl⟩
  | integer v =>
      obtain ⟨c, cs, htext, hc⟩ := exists_cons_integer v
      obtain ⟨n, hread, hvalue⟩ := readNumeral?_integer v (hend _ rfl)
      obtain ⟨hblank, hnumber⟩ := readToken?_number hc (cs ++ rest)
      refine ⟨c, cs ++ rest, by rw [htext, List.cons_append], hblank, ?_⟩
      rw [htext, List.cons_append] at hread
      rw [hnumber, hread, Option.bind_some]
      simp only [hvalue, Option.map_some]
  | @text s w h =>
      refine ⟨'\x22', w ++ '\x22' :: rest, by simp, rfl, ?_⟩
      have hread : unquote? (w ++ '\x22' :: rest) = some (s.toList, rest) := unquote?_spelled h rest
      rw [readToken?, hread]
      simp only [Option.map_some, String.ofList_toList]

theorem tokens?_token
    {c : Char}
    {cs rest : List Char}
    {t : Token}
    (hblank : isWhitespace c = false)
    (hread : readToken? c cs = some (t, rest)) :
    tokens? (c :: cs) = (tokens? rest).map (t :: ·) := by
  rw [tokens?, if_neg (by rw [hblank]; exact Bool.false_ne_true)]
  split
  · rename_i heq
    rw [hread] at heq
    cases heq
  · rename_i heq
    rw [hread] at heq
    cases heq
    rfl

/-- Every text of a list of tokens is read as the list. -/
theorem tokens?_spelled
    {ts : List Token}
    {cs : List Char}
    (h : SpellsTokens ts cs) :
    tokens? cs = some ts := by
  induction h with
  | nil => rw [tokens?]
  | @blank ts c cs hc h ih =>
      have hall : ∀ c ∈ [' ', '\t', '\n', '\r'], isWhitespace c = true := by
        simp [isWhitespace]
      rw [tokens?, if_pos (hall c hc), ih]
  | @token t ts w cs ht hend h ih =>
      obtain ⟨c, cs', heq, hblank, hread⟩ := ht.exists_read hend
      rw [heq, tokens?_token hblank hread, ih, Option.map_some]

end Tokens

section Writing

theorem hexDigit_hexChar
    {value : Nat}
    (h : value < 16) :
    HexDigit (Text.hexChar value) value := by
  have hall : ∀ v : Fin 16, "0123456789abcdef".toList[v.val]? = some (Text.hexChar v.val) := by
    decide
  exact Or.inl (hall ⟨value, h⟩)

/-- A control character is written by its unit. -/
theorem spellsUnit_control
    {u : Nat}
    (h : u < 0x20) :
    SpellsUnit u ['\\', 'u', '0', '0', Text.hexChar (u / 16), Text.hexChar (u % 16)] := by
  have hzero : HexDigit '0' 0 := Or.inl rfl
  have hdigits := SpellsUnit.digits hzero hzero (hexDigit_hexChar (by omega : u / 16 < 16))
    (hexDigit_hexChar (by omega : u % 16 < 16))
  have hsum : 4096 * 0 + 256 * 0 + 16 * (u / 16) + u % 16 = u := by
    omega
  rwa [hsum] at hdigits

theorem spellChar_short :
    ∀ p ∈ shortEscapes, p.1 ≠ '/' → spellChar p.1 = ['\\', p.2] := by
  decide

/-- A character is spelled the way it is written. -/
theorem spells_spellChar (c : Char) : SpellsChar c (spellChar c) := by
  by_cases hshort : ∃ letter, (c, letter) ∈ shortEscapes ∧ c ≠ '/'
  · obtain ⟨letter, hletter, hc⟩ := hshort
    rw [spellChar_short _ hletter hc]
    exact .short hletter
  · have hne : ∀ p ∈ shortEscapes, p.1 ≠ '/' → c ≠ p.1 := by
      rintro ⟨d, letter⟩ hd hslash rfl
      exact hshort ⟨letter, hd, hslash⟩
    obtain ⟨hquote, hbackslash, hb, hf, hn, hr, ht⟩ :
        c ≠ quote ∧ c ≠ '\\' ∧ c ≠ '\x08' ∧ c ≠ '\x0c' ∧ c ≠ '\n' ∧ c ≠ '\r' ∧ c ≠ '\t' := by
      simpa [shortEscapes, quote] using hne
    rw [spellChar, if_neg hquote, if_neg hbackslash, if_neg hb, if_neg hf, if_neg hn, if_neg hr,
      if_neg ht]
    split
    · rename_i hcontrol
      exact .unit (spellsUnit_control hcontrol)
    · rename_i hvisible
      exact .plain (Nat.not_lt.mp hvisible) hquote hbackslash

theorem spells_spellChars (cs : List Char) : SpellsChars cs (cs.flatMap spellChar) := by
  induction cs with
  | nil => exact .nil
  | cons c cs ih =>
      rw [List.flatMap_cons]
      exact .cons (spells_spellChar c) ih

/-- A token other than a floating-point number is spelled the way it is written. -/
theorem spells_spell
    {t : Token}
    (h : ∀ x, t ≠ .number (.float x)) :
    SpellsToken t t.spell := by
  cases t with
  | beginArray => exact .beginArray
  | endArray => exact .endArray
  | beginObject => exact .beginObject
  | endObject => exact .endObject
  | comma => exact .comma
  | colon => exact .colon
  | null => exact .null
  | bool b =>
      cases b with
      | true => exact .bool true
      | false => exact .bool false
  | number n =>
      cases n with
      | integer w => exact .integer w
      | float x => exact absurd rfl (h x)
  | text s => exact .text (spells_spellChars s.toList)

end Writing

end Json
end ChannelHeaders
