/-!
# Binary floating-point numbers with 53 significant bits

A finite number is a sign and a magnitude, and the magnitude is counted in units of
`2 ^ (-1074)`, the distance between the smallest numbers.  So a magnitude is a natural
number, and all arithmetic below is exact until it is rounded once.

**Rounding.**  A magnitude of more than 53 bits is rounded to a multiple of its `grain`,
the power of two that leaves 53 bits; a half goes to the even multiple.

**Results.**
* `grain_dvd_nearest`: what rounding returns has at most 53 significant bits.
* `ofUnits?_eq_some_iff`: which number is taken for a ratio of units.
-/

namespace ChannelHeaders
namespace Binary64

/-- The number of binary places of the smallest numbers. -/
def places : Nat :=
  1074

/-- The number of units in one. -/
def one : Nat :=
  Nat.pow 2 places

/-- Magnitudes from here on are out of range: the units in `2 ^ 1024`. -/
def limit : Nat :=
  Nat.pow 2 (places + 1024)

/-- The spacing of the numbers around a magnitude. -/
def grain (u : Nat) : Nat :=
  Nat.pow 2 (u.log2 - 52)

end Binary64

/-- A finite binary floating-point number. -/
structure Binary64 where
  /-- Whether the sign is minus; zero has a sign too. -/
  negative : Bool
  /-- The magnitude in units of `2 ^ (-1074)`. -/
  units : Nat
  /-- Greater magnitudes are infinite. -/
  lt_limit : units < Binary64.limit
  /-- The magnitude has at most 53 significant bits. -/
  grain_dvd : Binary64.grain units ∣ units
deriving DecidableEq

namespace Binary64

/-- The integer nearest to the ratio of `n` to `d`, and the even one of two. -/
def halfEven (n d : Nat) : Nat :=
  if 2 * (n % d) < d then n / d
  else if d < 2 * (n % d) then n / d + 1
  else n / d + n / d % 2

/-- The magnitude nearest to the ratio of `n` to `d`, in units. -/
def nearest (n d : Nat) : Nat :=
  halfEven n (d * grain (n / d)) * grain (n / d)

theorem limit_pos : 0 < limit := by
  unfold limit
  generalize places + 1024 = e
  exact Nat.two_pow_pos e

/-- Rounding goes up to the next integer at most. -/
theorem halfEven_le_succ (n d : Nat) : halfEven n d ≤ n / d + 1 := by
  have hp : n / d % 2 < 2 := Nat.mod_lt _ (by decide)
  unfold halfEven
  split
  · omega
  · split <;> omega

/-- The quotient by the grain has at most 53 bits. -/
theorem div_grain_lt (u : Nat) : u / grain u < Nat.pow 2 53 := by
  rw [grain, Nat.pow_eq, Nat.pow_eq, Nat.div_lt_iff_lt_mul (Nat.two_pow_pos _), ← Nat.pow_add]
  rcases Nat.eq_zero_or_pos u with hu | hu
  · subst hu
    exact Nat.two_pow_pos _
  · exact Nat.lt_of_lt_of_le (Nat.lt_log2_self (n := u))
      (Nat.pow_le_pow_right (by decide) (by omega))

/-- Rounding to a multiple of the grain gives at most 53 bits, or the next power of two. -/
theorem halfEven_grain_le (n d : Nat) : halfEven n (d * grain (n / d)) ≤ Nat.pow 2 53 := by
  have h₁ := halfEven_le_succ n (d * grain (n / d))
  have h₂ := div_grain_lt (n / d)
  rw [Nat.div_div_eq_div_mul] at h₂
  omega

/-- What rounding returns has at most 53 significant bits. -/
theorem grain_dvd_nearest (n d : Nat) : grain (nearest n d) ∣ nearest n d := by
  have hle := halfEven_grain_le n d
  rw [Nat.pow_eq] at hle
  unfold nearest
  generalize halfEven n (d * grain (n / d)) = m at hle ⊢
  obtain ⟨k, hk⟩ : ∃ k, grain (n / d) = 2 ^ k := ⟨_, rfl⟩
  rw [hk]
  rcases Nat.lt_or_eq_of_le hle with h | h
  · refine Nat.dvd_trans (Nat.pow_dvd_pow 2 ?_) (Nat.dvd_mul_left (2 ^ k) m)
    rcases Nat.eq_zero_or_pos (m * 2 ^ k) with h0 | h0
    · simp [h0]
    · have : (m * 2 ^ k).log2 < 53 + k := by
        rw [Nat.log2_lt (by omega), Nat.pow_add]
        exact Nat.mul_lt_mul_of_pos_right h (Nat.two_pow_pos k)
      omega
  · subst h
    rw [← Nat.pow_add]
    refine Nat.pow_dvd_pow 2 ?_
    rw [Nat.log2_two_pow]
    omega

/-- The number with a given sign and the magnitude nearest to a ratio of units, when that is
in range. -/
def ofUnits?
    (negative : Bool)
    (n d : Nat) :
    Option Binary64 :=
  if h : nearest n d < limit then some ⟨negative, nearest n d, h, grain_dvd_nearest n d⟩
  else none

/-- The number nearest to a ratio. -/
def ofRatio?
    (negative : Bool)
    (n d : Nat) :
    Option Binary64 :=
  ofUnits? negative (n * one) d

/-- The rounded product with so many units, with the sign of the first factor. -/
def scaleUp?
    (x : Binary64)
    (units : Nat) :
    Option Binary64 :=
  ofUnits? x.negative (x.units * units) one

/-- The rounded quotient by so many units, with the sign of the dividend. -/
def scaleDown?
    (x : Binary64)
    (units : Nat) :
    Option Binary64 :=
  ofUnits? x.negative (x.units * one) units

/-- The zero with a given sign. -/
def zero (negative : Bool) : Binary64 :=
  ⟨negative, 0, limit_pos, Nat.dvd_zero _⟩

instance : Inhabited Binary64 :=
  ⟨zero false⟩

/-- Whether the magnitude is zero. -/
def isZero (x : Binary64) : Bool :=
  x.units == 0

/-- Equality of values: both zeros are equal. -/
def sameValue (x y : Binary64) : Bool :=
  x.units == y.units && (x.negative == y.negative || x.units == 0)

/-- A ratio of units is taken for the number with the nearest magnitude. -/
theorem ofUnits?_eq_some_iff
    {negative : Bool}
    {n d : Nat}
    {x : Binary64} :
    ofUnits? negative n d = some x ↔ negative = x.negative ∧ nearest n d = x.units := by
  obtain ⟨negative', units, hlimit, hgrain⟩ := x
  rw [ofUnits?]
  constructor
  · intro h
    split at h
    · cases h
      exact ⟨rfl, rfl⟩
    · cases h
  · rintro ⟨rfl, rfl⟩
    exact dif_pos hlimit

end Binary64
end ChannelHeaders
