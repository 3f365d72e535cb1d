import ChannelHeaders.Number.Binary64

/-!
# The shortest decimal that reads back

Every real number in the rounding interval of a `Binary64` is read as that number.  The
interval reaches half the way to each neighbour, and its ends belong to it exactly when
the significand is even.

**Algorithm.**  The multiples of `10 ^ k` are tried for falling `k`.  The first `k` for
which the interval holds one of the two multiples around the number gives the fewest
digits; when both lie in the interval the nearer one is taken, and of two equally near
ones the even one.

All comparisons are between natural numbers that count quarters of a unit.
-/

namespace ChannelHeaders
namespace Binary64

/-- A decimal with `digits * 10 ^ exponent` as its value. -/
structure ShortDecimal where
  /-- The digits, read as one number. -/
  digits : Nat
  /-- The power of ten that the last digit counts. -/
  exponent : Int
deriving DecidableEq, Inhabited

/-- How many quarters of a unit the rounding interval reaches down.  Below a power of two the
numbers lie twice as close. -/
def reachDown (u : Nat) : Nat :=
  if u = Nat.pow 2 u.log2 ∧ 1 < grain u then grain u else 2 * grain u

/-- Whether a count of quarter units, over a common scale, is read as the magnitude `u`. -/
def readsAs (u scale quarters : Nat) : Bool :=
  let low := (4 * u - reachDown u) * scale
  let high := (4 * u + 2 * grain u) * scale
  if u / grain u % 2 = 0 then low ≤ quarters && quarters ≤ high
  else low < quarters && quarters < high

/-- The best multiple of `step` for the magnitude `u`, both over a common scale. -/
def bestMultiple? (u scale step : Nat) : Option Nat :=
  let value := 4 * u * scale
  let d := value / step
  match 0 < d && readsAs u scale (d * step), readsAs u scale ((d + 1) * step) with
  | true, true => some (halfEven value step)
  | true, false => some d
  | false, true => some (d + 1)
  | false, false => none

/-- The best multiple of `10 ^ k`. -/
def bestAt? (u : Nat) : Int → Option Nat
  | .ofNat k => bestMultiple? u 1 (4 * one * Nat.pow 10 k)
  | .negSucc k => bestMultiple? u (Nat.pow 10 (k + 1)) (4 * one)

/-- Tries the powers `k`, `k - 1`, … -/
def searchFrom (u : Nat) : Nat → Int → ShortDecimal
  | 0, k => ⟨0, k⟩
  | tries + 1, k =>
      match bestAt? u k with
      | some d => ⟨d, k⟩
      | none => searchFrom u tries (k - 1)

/-- The greatest power of ten to be tried for magnitudes from `2 ^ log` on.  The binary length
bounds the decimal length. -/
def firstPower (log : Nat) : Int :=
  (((log : Int) + 1 - places) * 30103) / 100000 + 1

/-- The shortest decimal for a magnitude other than zero.  Seventeen digits always suffice. -/
def shortest (u : Nat) : ShortDecimal :=
  searchFrom u 24 (firstPower u.log2)

end Binary64
end ChannelHeaders
