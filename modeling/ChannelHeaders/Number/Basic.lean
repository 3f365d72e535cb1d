import ChannelHeaders.Number.Shortest

/-!
# Numbers of documents and payloads

A `Number` is an integer of at most 64 bits, signed or unsigned, or a finite
floating-point number.  The two kinds never mix: `1` and `1.0` are different numbers and
are written differently.

**Text.**  An integer is written in decimal.  A floating-point number is written with the
fewest digits that read back, positionally while the decimal point stands
close to the digits and with an exponent otherwise; `Style` records where the two
formats differ.
-/

namespace ChannelHeaders

/-- An integer that fits a signed or an unsigned word of 64 bits. -/
structure Word where
  val : Int
  /-- Signed words reach down to here. -/
  lower : -0x8000000000000000 ≤ val
  /-- Unsigned words reach up to here. -/
  upper : val < 0x10000000000000000
deriving DecidableEq

namespace Word

instance : Inhabited Word :=
  ⟨0, by decide, by decide⟩

/-- The word with a given value, when there is one. -/
def ofInt? (i : Int) : Option Word :=
  if h : -0x8000000000000000 ≤ i ∧ i < 0x10000000000000000 then some ⟨i, h.1, h.2⟩ else none

/-- A word is found by its value. -/
theorem ofInt?_val (w : Word) : ofInt? w.val = some w :=
  dif_pos ⟨w.lower, w.upper⟩

end Word

/-- An integer or a finite floating-point number. -/
inductive Number where
  | integer (value : Word)
  | float (value : Binary64)
deriving DecidableEq, Inhabited

namespace Number

/-- How floating-point numbers are written. -/
structure Style where
  /-- The sign before an exponent that is not negative. -/
  exponentSign : String
deriving DecidableEq

/-- Numbers of a document carry no plus sign in the exponent. -/
def Style.document : Style :=
  ⟨""⟩

/-- Numbers of a payload carry a plus sign in the exponent. -/
def Style.payload : Style :=
  ⟨"+"⟩

/-- A positional number has at most sixteen digits before the point. -/
def maxPoint : Int :=
  16

/-- A positional number has at most four zeros between the point and its first digit. -/
def minPoint : Int :=
  -4

/-- Digits with `point` places before the decimal point, written out positionally. -/
def positional
    (digits : List Char)
    (point : Int) :
    List Char :=
  if point ≤ 0 then '0' :: '.' :: (List.replicate (-point).toNat '0' ++ digits)
  else if digits.length ≤ point.toNat then
    digits ++ List.replicate (point.toNat - digits.length) '0' ++ ['.', '0']
  else digits.take point.toNat ++ '.' :: digits.drop point.toNat

/-- Digits with one place before the decimal point, which is left out when no digit follows. -/
def mantissa : List Char → List Char
  | c :: d :: ds => c :: '.' :: d :: ds
  | ds => ds

/-- The text of an exponent. -/
def exponentText
    (style : Style)
    (exponent : Int) :
    String :=
  "e" ++ (if 0 ≤ exponent then style.exponentSign else "") ++ toString exponent

/-- The text of a magnitude. -/
def magnitudeText
    (style : Style)
    (units : Nat) :
    String :=
  if units = 0 then "0.0"
  else
    let d := Binary64.shortest units
    let digits := Nat.toDigits 10 d.digits
    let point := d.exponent + digits.length
    if minPoint ≤ point ∧ point ≤ maxPoint then String.ofList (positional digits point)
    else String.ofList (mantissa digits) ++ exponentText style (point - 1)

/-- The text of a number. -/
def text (style : Style) : Number → String
  | integer w => toString w.val
  | float x => (if x.negative then "-" else "") ++ magnitudeText style x.units

/-- Equality of values within one kind. -/
def sameValue : Number → Number → Bool
  | integer v, integer w => v = w
  | float x, float y => x.sameValue y
  | _, _ => false

end Number
end ChannelHeaders
