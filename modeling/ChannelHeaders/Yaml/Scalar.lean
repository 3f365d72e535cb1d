import ChannelHeaders.Document.Tree
import ChannelHeaders.Number.Decimal
import ChannelHeaders.Text.Digit

/-!
# The meaning of plain scalars

A plain scalar without a tag is null, a boolean, an integer, a floating-point number or
else a text, tried in this order.

**Integers** may have a sign and are decimal, hexadecimal, octal or binary; a decimal one
with a leading zero is a text.  An integer that fits 128 bits but not 64 is an error.

**Floating-point numbers** are decimal with an optional point and exponent, or one of the
words for infinity and for what is not a number.
-/

namespace ChannelHeaders
namespace Yaml
namespace Scalar

open Document

/-- Whether a text is one of the spellings of null. -/
def isNull (s : String) : Bool :=
  ["~", "null", "Null", "NULL"].contains s

/-- The spellings of the booleans. -/
def bool? (s : String) : Option Bool :=
  if ["true", "True", "TRUE"].contains s then some true
  else if ["false", "False", "FALSE"].contains s then some false
  else none

/-- The value of digits to a base. -/
def digitsValue?
    (base : Nat)
    (value : Nat) :
    List Char → Option Nat
  | [] => some value
  | c :: cs => (Text.digitValue? base c).bind fun d => digitsValue? base (base * value + d) cs

/-- The value of one or more digits to a base. -/
def natural?
    (base : Nat)
    (cs : List Char) :
    Option Nat :=
  if cs.isEmpty then none else digitsValue? base 0 cs

/-- A sign and what follows it. -/
def splitSign : List Char → Bool × List Char
  | '-' :: cs => (true, cs)
  | '+' :: cs => (false, cs)
  | cs => (false, cs)

/-- Whether the characters are several decimal digits that start with a zero. -/
def hasLeadingZero (cs : List Char) : Bool :=
  match (splitSign cs).2 with
  | '0' :: c :: ds => (c :: ds).all Char.isDigit
  | _ => false

/-- The integer that is written, of whatever size. -/
def integer? (cs : List Char) : Option Int :=
  let (negative, ds) := splitSign cs
  let magnitude :=
    match ds with
    | '0' :: 'x' :: ds => natural? 16 ds
    | '0' :: 'o' :: ds => natural? 8 ds
    | '0' :: 'b' :: ds => natural? 2 ds
    | ds => if hasLeadingZero ds then none else natural? 10 ds
  magnitude.map fun n => if negative then -(n : Int) else n

/-- How an integer is taken. -/
inductive IntegerSize where
  /-- It fits 64 bits. -/
  | word (value : Word)
  /-- It fits 128 bits only. -/
  | wide
  /-- It fits neither. -/
  | huge

/-- One more than the greatest signed integer of 128 bits. -/
def wideLimit : Int :=
  0x80000000000000000000000000000000

/-- The size of an integer. -/
def integerSize (i : Int) : IntegerSize :=
  match Word.ofInt? i with
  | some w => .word w
  | none => if -wideLimit ≤ i ∧ i < 2 * wideLimit then .wide else .huge

/-- The decimal number that is written, without its sign: its digits and its exponent. -/
def decimal? (cs : List Char) : Option (Nat × Int) :=
  let whole := cs.takeWhile Char.isDigit
  let rest := cs.dropWhile Char.isDigit
  let (fraction, rest) :=
    match rest with
    | '.' :: rest => (rest.takeWhile Char.isDigit, rest.dropWhile Char.isDigit)
    | rest => ([], rest)
  let exponent :=
    match rest with
    | [] => some 0
    | c :: rest =>
        if c = 'e' ∨ c = 'E' then
          let (negative, ds) := splitSign rest
          (natural? 10 ds).map fun n => if negative then -(n : Int) else n
        else none
  exponent.bind fun e =>
    (natural? 10 (whole ++ fraction)).map fun digits => (digits, e - fraction.length)

/-- The floating-point number that is written, when it is finite. -/
def finite? (cs : List Char) : Option Binary64 :=
  let (negative, ds) := splitSign cs
  (decimal? ds).bind fun (digits, exponent) => Binary64.ofDecimal? negative digits exponent

/-- The floating-point number that is written. -/
def float? (s : String) : Option ExtendedNumber :=
  if [".inf", ".Inf", ".INF", "+.inf", "+.Inf", "+.INF"].contains s then some (.infinite false)
  else if ["-.inf", "-.Inf", "-.INF"].contains s then some (.infinite true)
  else if [".nan", ".NaN", ".NAN"].contains s then some .notANumber
  else (finite? s.toList).map fun x => .finite (.float x)

/-- The tree of an integer that is written, when its size is settled by it. -/
def integerTree? (s : String) : Option (Option Tree) :=
  match (integer? s.toList).map integerSize with
  | some (.word w) => some (some (.number (.finite (.integer w))))
  | some .wide => some none
  | _ => none

/-- The tree of a plain scalar without a tag. -/
def plainTree? (s : String) : Option Tree :=
  if s.isEmpty || isNull s then some .null
  else
    match bool? s with
    | some b => some (.bool b)
    | none =>
        match integerTree? s with
        | some t => t
        | none =>
            if hasLeadingZero s.toList then some (.text s)
            else
              match float? s with
              | some x => some (.number x)
              | none => some (.text s)

/-- The kinds of scalar that a tag may demand. -/
inductive Demand where
  | bool
  | integer
  | float
  | null
deriving DecidableEq

/-- The tree of a scalar of a demanded kind, plain or not. -/
def demandedTree? (s : String) : Demand → Option Tree
  | .bool => (bool? s).map .bool
  | .integer => (integerTree? s).join
  | .float => (float? s).map .number
  | .null => if isNull s then some .null else none

end Scalar
end Yaml
end ChannelHeaders
