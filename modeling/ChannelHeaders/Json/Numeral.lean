import ChannelHeaders.Number.Basic
import ChannelHeaders.Number.Decimal
import ChannelHeaders.Text.Digit

/-!
# Number literals of JSON

A literal is a sign, digits, optional digits behind a point and an optional exponent.  It
is read character by character into a `Numeral`, which is then given its value.

**Value.**  A literal without point and exponent is an integer when it fits 64 bits; minus
zero is not an integer.  Otherwise the digits are gathered into a count of at most 64
bits.  A digit in front of the point that no longer fits raises the exponent by one; from
the first digit behind the point that no longer fits, all are dropped.  The count is then
scaled by the exponent with `Binary64.ofScaled?`, and a literal out of range is an error.

**Results.**
* `length_readNumeral?`: reading a literal takes at least one character.
-/

namespace ChannelHeaders
namespace Json

/-- A number literal. -/
structure Numeral where
  /-- Whether it starts with a minus sign. -/
  negative : Bool
  /-- The digits in front of the point. -/
  whole : List Char
  /-- The digits behind the point; there may be no point. -/
  fraction : Option (List Char)
  /-- The sign and the digits of the exponent, when there is one. -/
  exponent : Option (Bool × List Char)
deriving DecidableEq

/-- The longest start of digits, unless it is empty, and what follows it. -/
def readDigits? (cs : List Char) : Option (List Char × List Char) :=
  match cs.takeWhile Char.isDigit with
  | [] => none
  | d :: ds => some (d :: ds, cs.dropWhile Char.isDigit)

/-- The digits in front of the point: a zero stands alone. -/
def readWhole? (cs : List Char) : Option (List Char × List Char) :=
  (readDigits? cs).bind fun (ds, rest) =>
    match ds with
    | '0' :: _ :: _ => none
    | ds => some (ds, rest)

/-- The digits behind a point, if one stands here. -/
def readFraction? : List Char → Option (Option (List Char) × List Char)
  | '.' :: cs => (readDigits? cs).map fun (ds, rest) => (some ds, rest)
  | cs => some (none, cs)

/-- A sign, which is plus when none is written, and what follows it. -/
def readSign : List Char → Bool × List Char
  | '-' :: cs => (true, cs)
  | '+' :: cs => (false, cs)
  | cs => (false, cs)

/-- The exponent, if one stands here. -/
def readExponent? : List Char → Option (Option (Bool × List Char) × List Char)
  | [] => some (none, [])
  | c :: cs =>
      if c = 'e' ∨ c = 'E' then
        (readDigits? (readSign cs).2).map fun (ds, rest) => (some ((readSign cs).1, ds), rest)
      else some (none, c :: cs)

/-- A minus sign, if one stands here. -/
def readMinus : List Char → Bool × List Char
  | '-' :: cs => (true, cs)
  | cs => (false, cs)

/-- The literal at the start of a text, and what follows it. -/
def readNumeral? (cs : List Char) : Option (Numeral × List Char) :=
  let (negative, cs) := readMinus cs
  (readWhole? cs).bind fun (whole, cs) =>
    (readFraction? cs).bind fun (fraction, cs) =>
      (readExponent? cs).map fun (exponent, cs) => (⟨negative, whole, fraction, exponent⟩, cs)

/-- Reading digits consumes at least one character. -/
theorem length_readDigits?
    {cs ds rest : List Char}
    (h : readDigits? cs = some (ds, rest)) :
    rest.length < cs.length := by
  have hl :
      cs.length = (cs.takeWhile Char.isDigit).length + (cs.dropWhile Char.isDigit).length := by
    rw [← List.length_append, List.takeWhile_append_dropWhile]
  unfold readDigits? at h
  split at h
  · simp at h
  · rename_i d ds' e
    simp only [Option.some.injEq, Prod.mk.injEq] at h
    rw [e, List.length_cons, h.2] at hl
    omega

theorem length_readWhole?
    {cs ds rest : List Char}
    (h : readWhole? cs = some (ds, rest)) :
    rest.length < cs.length := by
  obtain ⟨⟨ds', rest'⟩, h₁, h₂⟩ := Option.bind_eq_some_iff.mp h
  have := length_readDigits? h₁
  simp only at h₂
  split at h₂
  · simp at h₂
  · simp only [Option.some.injEq, Prod.mk.injEq] at h₂
    rw [← h₂.2]
    exact this

/-- A fraction may be absent, so that nothing need be consumed. -/
theorem length_readFraction?
    {cs rest : List Char}
    {ds : Option (List Char)}
    (h : readFraction? cs = some (ds, rest)) :
    rest.length ≤ cs.length := by
  unfold readFraction? at h
  split at h
  · obtain ⟨⟨ds', rest'⟩, h₁, h₂⟩ := Option.map_eq_some_iff.mp h
    have := length_readDigits? h₁
    simp only [Prod.mk.injEq] at h₂
    rw [List.length_cons, ← h₂.2]
    omega
  · simp only [Option.some.injEq, Prod.mk.injEq] at h
    exact Nat.le_of_eq (congrArg List.length h.2.symm)

theorem length_readSign (cs : List Char) : (readSign cs).2.length ≤ cs.length := by
  unfold readSign
  split <;> simp

theorem length_readExponent?
    {cs rest : List Char}
    {e : Option (Bool × List Char)}
    (h : readExponent? cs = some (e, rest)) :
    rest.length ≤ cs.length := by
  unfold readExponent? at h
  split at h
  · simp only [Option.some.injEq, Prod.mk.injEq] at h
    exact Nat.le_of_eq (congrArg List.length h.2.symm)
  · rename_i c cs'
    split at h
    · obtain ⟨⟨ds', rest'⟩, h₁, h₂⟩ := Option.map_eq_some_iff.mp h
      have h₃ := length_readDigits? h₁
      have h₄ := length_readSign cs'
      simp only [Prod.mk.injEq] at h₂
      rw [List.length_cons, ← h₂.2]
      omega
    · simp only [Option.some.injEq, Prod.mk.injEq] at h
      exact Nat.le_of_eq (congrArg List.length h.2.symm)

theorem length_readMinus (cs : List Char) : (readMinus cs).2.length ≤ cs.length := by
  unfold readMinus
  split <;> simp

/-- Reading a number consumes at least one character, its first digit. -/
theorem length_readNumeral?
    {cs rest : List Char}
    {n : Numeral}
    (h : readNumeral? cs = some (n, rest)) :
    rest.length < cs.length := by
  have h₀ := length_readMinus cs
  obtain ⟨⟨whole, cs₁⟩, h₁, h⟩ := Option.bind_eq_some_iff.mp h
  obtain ⟨⟨fraction, cs₂⟩, h₂, h⟩ := Option.bind_eq_some_iff.mp h
  obtain ⟨⟨exponent, cs₃⟩, h₃, h⟩ := Option.map_eq_some_iff.mp h
  have h₁ : cs₁.length < (readMinus cs).2.length := length_readWhole? h₁
  have h₂ := length_readFraction? h₂
  have h₃ := length_readExponent? h₃
  simp only [Prod.mk.injEq] at h
  rw [← h.2]
  omega

/-- The value of decimal digits. -/
def digitsOf (ds : List Char) : Nat :=
  ds.foldl (fun n d => 10 * n + Text.decimalValue d) 0

/-- Counts of digits stay below this. -/
def countLimit : Nat :=
  Nat.pow 2 64

/-- Digits gathered into a count, and the power of ten that the count is to be scaled by. -/
structure Gathered where
  /-- The digits that fit, read as one number. -/
  count : Nat
  /-- The power of ten. -/
  exponent : Int
deriving DecidableEq

/-- Gathers the digits in front of the point. -/
def gatherWhole (g : Gathered) : List Char → Gathered
  | [] => g
  | d :: ds =>
      if g.exponent = 0 ∧ 10 * g.count + Text.decimalValue d < countLimit then
        gatherWhole { g with count := 10 * g.count + Text.decimalValue d } ds
      else gatherWhole { g with exponent := g.exponent + 1 } ds

/-- Gathers the digits behind the point. -/
def gatherFraction (g : Gathered) : List Char → Gathered
  | [] => g
  | d :: ds =>
      if 10 * g.count + Text.decimalValue d < countLimit then
        gatherFraction ⟨10 * g.count + Text.decimalValue d, g.exponent - 1⟩ ds
      else g

namespace Numeral

/-- The exponent that is written; zero when none is. -/
def writtenExponent (n : Numeral) : Int :=
  match n.exponent with
  | none => 0
  | some (negative, ds) => if negative then -(digitsOf ds : Int) else digitsOf ds

/-- The gathered digits of a literal. -/
def gathered (n : Numeral) : Gathered :=
  gatherFraction (gatherWhole ⟨0, 0⟩ n.whole) (n.fraction.getD [])

/-- The value of a literal as a floating-point number. -/
def float? (n : Numeral) : Option Number :=
  (Binary64.ofScaled? n.negative n.gathered.count (n.gathered.exponent + n.writtenExponent)).map
    .float

/-- The integer that the digits in front of the point spell. -/
def integer (n : Numeral) : Int :=
  if n.negative then -(digitsOf n.whole : Int) else digitsOf n.whole

/-- Whether the literal spells an integer: without point and exponent, and not minus zero. -/
def isInteger (n : Numeral) : Bool :=
  n.fraction.isNone && n.exponent.isNone && !(n.negative && digitsOf n.whole == 0)

/-- The value of a literal. -/
def value? (n : Numeral) : Option Number :=
  if n.isInteger then
    match Word.ofInt? n.integer with
    | some w => some (.integer w)
    | none => n.float?
  else n.float?

end Numeral
end Json
end ChannelHeaders
