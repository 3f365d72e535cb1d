import ChannelHeaders.Number.Binary64

/-!
# From decimal digits to binary numbers

A decimal is a count of digits times a power of ten.  There are two ways to turn one into
a `Binary64`:

* `ofDecimal?` takes the nearest number, with one rounding;
* `ofScaled?` rounds the digits first and then multiplies or divides them by the rounded
  power of ten, so it rounds up to three times and may miss the nearest number by one
  place.  Exponents below `-308` are brought into range by dividing by `10 ^ 308` first.

Both refuse a decimal whose number would be infinite.
-/

namespace ChannelHeaders
namespace Binary64

/-- The number of decimal digits of a natural number. -/
def decimalLength (n : Nat) : Nat :=
  (Nat.toDigits 10 n).length

/-- The number nearest to `digits * 10 ^ exponent`.  Magnitudes that are far out of range are
settled by their decimal length alone. -/
def ofDecimal?
    (negative : Bool)
    (digits : Nat)
    (exponent : Int) :
    Option Binary64 :=
  if digits = 0 then some (zero negative)
  else if 310 < exponent + decimalLength digits then none
  else if exponent + decimalLength digits < -330 then some (zero negative)
  else
    match exponent with
    | .ofNat e => ofRatio? negative (digits * Nat.pow 10 e) 1
    | .negSucc e => ofRatio? negative digits (Nat.pow 10 (e + 1))

/-- The units of the number nearest to a power of ten. -/
def powerOfTen (e : Nat) : Nat :=
  nearest (Nat.pow 10 e * one) 1

/-- The greatest exponent of a power of ten that is in range. -/
def maxPower : Nat :=
  308

/-- Divides by the greatest power of ten, at most `steps` times, until nothing is left. -/
def divideDown : Nat → Binary64 → Option Binary64
  | 0, x => some x
  | steps + 1, x =>
      if x.isZero then some x
      else (scaleDown? x (powerOfTen maxPower)).bind (divideDown steps)

/-- The digits as a number, scaled by a rounded power of ten. -/
def ofScaled?
    (negative : Bool)
    (digits : Nat)
    (exponent : Int) :
    Option Binary64 :=
  (ofRatio? negative digits 1).bind fun x =>
    match exponent with
    | .ofNat e =>
        if e ≤ maxPower then scaleUp? x (powerOfTen e)
        else if x.isZero then some x
        else none
    | .negSucc e =>
        (divideDown (e / maxPower) x).bind fun y =>
          if y.isZero then some y
          else scaleDown? y (powerOfTen (e + 1 - e / maxPower * maxPower))

theorem ofDecimal?_zero
    (negative : Bool)
    (exponent : Int) :
    ofDecimal? negative 0 exponent = some (zero negative) :=
  rfl

end Binary64
end ChannelHeaders
