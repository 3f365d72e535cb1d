import Mathlib
import ChannelHeaders.Number.Decimal
import ChannelHeaders.Proofs.RoundingIntervals

/-!
# Shortest decimals

A decimal is read as the number in whose rounding interval it lies.  Among the decimals
that are read as a number, the shortest ones are multiples of the greatest power of ten,
and the search finds the one of them that lies closest to the number, or the even one of two.

**Proof.**  Multiples of a power of ten are compared with a magnitude over a common scale,
in natural numbers.  The interval has no gaps, so when any multiple is read, one of the two
around the magnitude is.  The search starts above all powers of which a multiple is read,
and ends at one that is shorter than half the distance to the next number.

**Results.**
* `reads_iff`: the rounding interval by rational numbers.
* `ofDecimal?_eq_some_iff`: a decimal is read as the number in whose interval it lies.
* `bestMultiple?_eq_some`, `not_readsAs_of_bestMultiple?`: what is found for one power.
* `searchFrom_stops`: the search stops at the first power with a multiple that is read.
* `isShortest_shortest`: the search finds the shortest decimal.
* `IsShortest.unique`: there is one.
-/

namespace ChannelHeaders
namespace Binary64

section Reading

/-- The scale over which multiples of `10 ^ k` are counted in natural numbers. -/
def scaleOf : Int → Nat
  | .ofNat _ => 1
  | .negSucc n => Nat.pow 10 (n + 1)

/-- The units in `10 ^ k`, over its scale. -/
def unitsOf : Int → Nat
  | .ofNat n => Nat.pow 10 n * one
  | .negSucc _ => one

/-- Whether `digits * 10 ^ exponent` lies in the rounding interval of a magnitude. -/
def Reads
    (u digits : Nat)
    (exponent : Int) :
    Prop :=
  readsAs u (scaleOf exponent) (4 * (digits * unitsOf exponent)) = true

theorem scaleOf_pos (k : Int) : 0 < scaleOf k := by
  cases k with
  | ofNat n => exact Nat.one_pos
  | negSucc n => exact Nat.pow_pos (by decide)

theorem one_pos : 0 < one := by
  unfold one
  generalize places = e
  exact Nat.two_pow_pos e

theorem unitsOf_pos (k : Int) : 0 < unitsOf k := by
  cases k with
  | ofNat n => exact Nat.mul_pos (Nat.pow_pos (by decide)) one_pos
  | negSucc n => exact one_pos

/-- The units in a power of ten, as a rational number. -/
theorem unitsOf_eq (k : Int) : (unitsOf k : ℚ) = 10 ^ k * one * scaleOf k := by
  cases k with
  | ofNat n =>
      rw [unitsOf, scaleOf, Nat.pow_eq, Int.ofNat_eq_natCast, zpow_natCast]
      generalize one = units
      push_cast
      ring
  | negSucc n =>
      have h : (10 : ℚ) ^ (n + 1) ≠ 0 := pow_ne_zero _ (by norm_num)
      rw [unitsOf, scaleOf, Nat.pow_eq, zpow_negSucc]
      generalize one = units
      push_cast
      field_simp

variable {u d : Nat} {k : Int}

/-- The ratio of units in a decimal. -/
theorem nearest_eq_iff_reads
    (hu : grain u ∣ u)
    (hpos : u ≠ 0) :
    nearest (d * unitsOf k) (scaleOf k) = u ↔ Reads u d k :=
  nearest_eq_iff_readsAs hu hpos (scaleOf_pos k)

/-- The rounding interval by rational numbers. -/
theorem reads_iff
    (hu : grain u ∣ u)
    (hpos : u ≠ 0) :
    Reads u d k ↔
      4 * (u : ℚ) ≤ 4 * (d * 10 ^ k * one) + reachDown u ∧
      4 * (d * 10 ^ k * one) ≤ 4 * (u : ℚ) + 2 * grain u ∧
      (u / grain u % 2 = 1 →
        4 * (u : ℚ) < 4 * (d * 10 ^ k * one) + reachDown u ∧
        4 * (d * 10 ^ k * one) < 4 * (u : ℚ) + 2 * grain u) := by
  have hscale : (0 : ℚ) < scaleOf k := Nat.cast_pos.mpr (scaleOf_pos k)
  have hlow :
      ((4 * (d * unitsOf k) + reachDown u * scaleOf k : Nat) : ℚ) =
        (4 * (d * 10 ^ k * one) + reachDown u) * scaleOf k := by
    push_cast [unitsOf_eq]
    ring
  have hvalue :
      ((4 * (d * unitsOf k) : Nat) : ℚ) = 4 * (d * 10 ^ k * one) * scaleOf k := by
    push_cast [unitsOf_eq]
    ring
  have hmagnitude : ((4 * u * scaleOf k : Nat) : ℚ) = 4 * u * scaleOf k := by
    push_cast
    ring
  have hhigh :
      (((4 * u + 2 * grain u) * scaleOf k : Nat) : ℚ) = (4 * u + 2 * grain u) * scaleOf k := by
    push_cast
    ring
  rw [Reads, readsAs_iff hu hpos]
  simp only [← Nat.cast_le (α := ℚ), ← Nat.cast_lt (α := ℚ), hlow, hvalue, hmagnitude, hhigh,
    mul_le_mul_iff_of_pos_right hscale, mul_lt_mul_iff_of_pos_right hscale]

/-- A decimal that is read as a magnitude is less than the next power of two. -/
theorem Reads.lt
    (hu : grain u ∣ u)
    (hpos : u ≠ 0)
    (h : Reads u d k) :
    (d : ℚ) * 10 ^ k * one < (2 : ℚ) ^ (u.log2 + 1) := by
  obtain ⟨-, hhigh, -⟩ := (reads_iff hu hpos).mp h
  have hgrain : (0 : ℚ) < grain u := Nat.cast_pos.mpr (grain_pos u)
  have hnext : (u : ℚ) + grain u ≤ 2 ^ (u.log2 + 1) := by
    exact_mod_cast add_grain_le hu
  linarith

/-- A decimal that is read as a magnitude is at least half as great. -/
theorem Reads.le
    (hu : grain u ∣ u)
    (hpos : u ≠ 0)
    (h : Reads u d k) :
    (u : ℚ) ≤ 2 * (d * 10 ^ k * one) := by
  obtain ⟨hlow, -, -⟩ := (reads_iff hu hpos).mp h
  have hreach : (reachDown u : ℚ) ≤ 2 * grain u := by
    exact_mod_cast reachDown_le u
  have hgrain : (grain u : ℚ) ≤ u := by
    exact_mod_cast Nat.le_of_dvd (Nat.pos_of_ne_zero hpos) hu
  linarith

theorem Reads.digits_pos
    (hu : grain u ∣ u)
    (hpos : u ≠ 0)
    (h : Reads u d k) :
    0 < d := by
  rcases Nat.eq_zero_or_pos d with rfl | hd
  · have hle := h.le hu hpos
    rw [Nat.cast_zero, zero_mul, zero_mul, mul_zero] at hle
    exact absurd (Nat.cast_nonpos.mp hle) hpos
  · exact hd

theorem lt_pow_decimalLength (d : Nat) : d < 10 ^ decimalLength d :=
  (Nat.length_toDigits_le_iff (by decide) Nat.length_toDigits_pos).mp (Nat.le_refl _)

theorem pow_le_of_lt_decimalLength
    {n : Nat}
    (hd : 0 < d)
    (h : n < decimalLength d) :
    10 ^ n ≤ d := by
  rcases Nat.eq_zero_or_pos n with rfl | hn
  · exact hd
  · by_contra hlt
    exact absurd ((Nat.length_toDigits_le_iff (by decide) hn).mpr (Nat.lt_of_not_ge hlt)) (by
      rw [decimalLength] at h
      omega)

theorem ofDecimal?_eq_ofUnits?
    (negative : Bool)
    (hd : d ≠ 0)
    (hhigh : k + decimalLength d ≤ 310)
    (hlow : -330 ≤ k + decimalLength d) :
    ofDecimal? negative d k = ofUnits? negative (d * unitsOf k) (scaleOf k) := by
  unfold ofDecimal?
  rw [if_neg hd, if_neg (by omega), if_neg (by omega)]
  cases k with
  | ofNat n =>
      rw [unitsOf, ← Nat.mul_assoc]
      rfl
  | negSucc n => rfl

theorem two_pow_le_ten_pow
    {a b : Nat}
    (h : Nat.pow 2 a ≤ Nat.pow 10 b) :
    (2 : ℚ) ^ a ≤ 10 ^ b := by
  rw [Nat.pow_eq, Nat.pow_eq] at h
  exact_mod_cast h

theorem limit_eq : limit = 2 ^ (places + 1024) := by
  unfold limit
  generalize places + 1024 = e
  exact Nat.pow_eq

theorem one_cast : (one : ℚ) = 2 ^ places := by
  unfold one
  generalize places = e
  exact Nat.cast_pow 2 e

theorem two_pow_log2_le
    (hpos : u ≠ 0)
    (hlimit : u < limit) :
    (2 : ℚ) ^ (u.log2 + 1) ≤ 2 ^ 1024 * one := by
  have hlog : u.log2 < places + 1024 := by
    rw [Nat.log2_lt hpos, ← limit_eq]
    exact hlimit
  rw [one_cast, ← pow_add, Nat.add_comm 1024]
  exact pow_le_pow_right₀ (by norm_num) hlog

theorem one_cast_pos : (0 : ℚ) < one :=
  Nat.cast_pos.mpr one_pos

/-- A decimal that is read as a number in range is not too long. -/
theorem Reads.length_le
    (hu : grain u ∣ u)
    (hpos : u ≠ 0)
    (hlimit : u < limit)
    (h : Reads u d k) :
    k + decimalLength d ≤ 310 := by
  by_contra hlong
  obtain ⟨n, hn⟩ : ∃ n, decimalLength d = n + 1 :=
    Nat.exists_eq_succ_of_ne_zero (Nat.length_toDigits_pos).ne'
  have hdigits : (10 : ℚ) ^ (n : Int) ≤ d := by
    rw [zpow_natCast]
    exact_mod_cast pow_le_of_lt_decimalLength (h.digits_pos hu hpos) (by omega)
  have hvalue : (10 : ℚ) ^ (310 : Nat) ≤ d * 10 ^ k := by
    refine le_trans ?_ (mul_le_mul_of_nonneg_right hdigits (by positivity))
    rw [← zpow_add₀ (by norm_num), ← zpow_natCast]
    exact zpow_le_zpow_right₀ (by norm_num) (by omega)
  have hlt : (d : ℚ) * 10 ^ k < 2 ^ 1024 :=
    lt_of_mul_lt_mul_right ((h.lt hu hpos).trans_le (two_pow_log2_le hpos hlimit))
      one_cast_pos.le
  have hpowers : (2 : ℚ) ^ 1024 ≤ 10 ^ 310 := two_pow_le_ten_pow (by decide +kernel)
  exact absurd (hvalue.trans_lt hlt) (not_lt.mpr hpowers)

/-- A decimal that is read as a number other than zero is not too short. -/
theorem Reads.le_length
    (hu : grain u ∣ u)
    (hpos : u ≠ 0)
    (h : Reads u d k) :
    -330 ≤ k + decimalLength d := by
  by_contra hshort
  have hdigits : (d : ℚ) ≤ 10 ^ (decimalLength d : Int) := by
    rw [zpow_natCast]
    exact_mod_cast (lt_pow_decimalLength d).le
  have hvalue : (d : ℚ) * 10 ^ k ≤ 10 ^ (-331 : Int) := by
    refine (mul_le_mul_of_nonneg_right hdigits (by positivity)).trans ?_
    rw [← zpow_add₀ (by norm_num)]
    exact zpow_le_zpow_right₀ (by norm_num) (by omega)
  have hone : (1 : ℚ) ≤ 2 * (d * 10 ^ k * one) := by
    refine le_trans ?_ (h.le hu hpos)
    exact_mod_cast Nat.pos_of_ne_zero hpos
  have hpowers : (2 : ℚ) ^ (places + 2) ≤ 10 ^ 331 := two_pow_le_ten_pow (by decide +kernel)
  have hsmall : (d : ℚ) * 10 ^ k * one * 10 ^ 331 ≤ 2 ^ places := by
    rw [one_cast, mul_right_comm]
    refine mul_le_of_le_one_left (by positivity) ?_
    refine (mul_le_mul_of_nonneg_right hvalue (by positivity)).trans_eq ?_
    rw [zpow_neg, zpow_ofNat]
    exact inv_mul_cancel₀ (pow_ne_zero 331 (by norm_num))
  have hplaces : (0 : ℚ) < 2 ^ places := pow_pos (by norm_num) places
  rw [pow_add] at hpowers
  generalize (10 : ℚ) ^ 331 = power at hpowers hsmall
  nlinarith

/-- A decimal is read as the number in whose rounding interval it lies. -/
theorem ofDecimal?_eq_some_iff
    {x : Binary64}
    (hpos : x.units ≠ 0)
    {negative : Bool} :
    ofDecimal? negative d k = some x ↔ negative = x.negative ∧ Reads x.units d k := by
  constructor
  · intro h
    have hd : d ≠ 0 := by
      rintro rfl
      rw [ofDecimal?_zero] at h
      cases h
      exact hpos rfl
    have hhigh : k + decimalLength d ≤ 310 := by
      by_contra hlong
      unfold ofDecimal? at h
      rw [if_neg hd, if_pos (by omega)] at h
      cases h
    have hlow : -330 ≤ k + decimalLength d := by
      by_contra hshort
      unfold ofDecimal? at h
      rw [if_neg hd, if_neg (by omega), if_pos (by omega)] at h
      cases h
      exact hpos rfl
    rw [ofDecimal?_eq_ofUnits? negative hd hhigh hlow, ofUnits?_eq_some_iff] at h
    exact ⟨h.1, (nearest_eq_iff_reads x.grain_dvd hpos).mp h.2⟩
  · rintro ⟨rfl, h⟩
    have hd := (h.digits_pos x.grain_dvd hpos).ne'
    have hhigh := h.length_le x.grain_dvd hpos x.lt_limit
    have hlow := h.le_length x.grain_dvd hpos
    rw [ofDecimal?_eq_ofUnits? _ hd hhigh hlow, ofUnits?_eq_some_iff]
    exact ⟨rfl, (nearest_eq_iff_reads x.grain_dvd hpos).mpr h⟩

end Reading

section Searching

variable {u d : Nat} {k : Int}

/-- The rounding interval has no gaps. -/
theorem readsAs_of_between
    (hu : grain u ∣ u)
    (hpos : u ≠ 0)
    {scale a b c : Nat}
    (ha : readsAs u scale a = true)
    (hc : readsAs u scale c = true)
    (hab : a ≤ b)
    (hbc : b ≤ c) :
    readsAs u scale b = true := by
  rw [readsAs_iff hu hpos] at ha hc ⊢
  refine ⟨by omega, by omega, ?_⟩
  intro hodd
  have ha' := ha.2.2 hodd
  have hc' := hc.2.2 hodd
  omega

/-- A magnitude lies in its own rounding interval. -/
theorem readsAs_self
    (hu : grain u ∣ u)
    (hpos : u ≠ 0)
    {scale : Nat}
    (hscale : 0 < scale) :
    readsAs u scale (4 * u * scale) = true := by
  have hreach : 0 < reachDown u * scale := by
    refine Nat.mul_pos ?_ hscale
    have := grain_pos u
    rw [reachDown]
    split <;> omega
  have hgrain : 0 < 2 * grain u * scale := Nat.mul_pos (by have := grain_pos u; omega) hscale
  rw [readsAs_iff hu hpos, Nat.add_mul]
  omega

theorem bestAt?_eq
    (u : Nat)
    (k : Int) :
    bestAt? u k = bestMultiple? u (scaleOf k) (4 * unitsOf k) := by
  cases k with
  | ofNat n => rw [bestAt?, scaleOf, unitsOf, Nat.mul_assoc, Nat.mul_comm one]
  | negSucc n => rfl

theorem not_readsAs_zero
    (hu : grain u ∣ u)
    (hpos : u ≠ 0)
    {scale : Nat}
    (hscale : 0 < scale) :
    readsAs u scale 0 ≠ true := by
  rw [ne_eq, readsAs_iff hu hpos]
  rintro ⟨hlow, -⟩
  have hreach := Nat.mul_le_mul_right scale (reachDown_le u)
  have hgrain := Nat.mul_le_mul_right scale (Nat.le_of_dvd (Nat.pos_of_ne_zero hpos) hu)
  have hmul := Nat.mul_pos (Nat.pos_of_ne_zero hpos) hscale
  nlinarith

/-- The distance of a multiple from a magnitude. -/
def distance (u scale step d : Nat) : Nat :=
  (((d * step : Nat) : Int) - ((4 * u * scale : Nat) : Int)).natAbs

section Multiples

variable {scale step : Nat}

/-- When a multiple is read below the magnitude, the last one below it is. -/
theorem readsAs_below
    (hu : grain u ∣ u)
    (hpos : u ≠ 0)
    (hscale : 0 < scale)
    (h : readsAs u scale (d * step) = true)
    (hle : d ≤ 4 * u * scale / step) :
    (decide (0 < 4 * u * scale / step) &&
      readsAs u scale (4 * u * scale / step * step)) = true := by
  have hd : 0 < d := by
    rcases Nat.eq_zero_or_pos d with rfl | hd
    · rw [Nat.zero_mul] at h
      exact absurd h (not_readsAs_zero hu hpos hscale)
    · exact hd
  rw [Bool.and_eq_true, decide_eq_true_eq]
  refine ⟨hd.trans_le hle, ?_⟩
  exact readsAs_of_between hu hpos h (readsAs_self hu hpos hscale)
    (Nat.mul_le_mul_right step hle) (Nat.div_mul_le_self _ _)

/-- When a multiple is read above the magnitude, the first one above it is. -/
theorem readsAs_above
    (hu : grain u ∣ u)
    (hpos : u ≠ 0)
    (hscale : 0 < scale)
    (hstep : 0 < step)
    (h : readsAs u scale (d * step) = true)
    (hlt : 4 * u * scale / step < d) :
    readsAs u scale ((4 * u * scale / step + 1) * step) = true := by
  refine readsAs_of_between hu hpos (readsAs_self hu hpos hscale) h ?_
    (Nat.mul_le_mul_right step hlt)
  exact (Nat.lt_mul_of_div_lt (Nat.lt_succ_self _) hstep).le

/-- No multiple is taken only when none is read. -/
theorem not_readsAs_of_bestMultiple?
    (hu : grain u ∣ u)
    (hpos : u ≠ 0)
    (hscale : 0 < scale)
    (hstep : 0 < step)
    (h : bestMultiple? u scale step = none) :
    ∀ d, readsAs u scale (d * step) ≠ true := by
  intro d hd
  rw [bestMultiple?] at h
  rcases Nat.lt_or_ge (4 * u * scale / step) d with hlt | hle
  · simp only [readsAs_above hu hpos hscale hstep hd hlt] at h
    split at h <;> simp_all
  · simp only [readsAs_below hu hpos hscale hd hle] at h
    split at h <;> simp_all

/-- The multiple that is taken is read, and no other one that is read lies closer.  When another one
is as close, the even one is taken. -/
theorem bestMultiple?_eq_some
    (hu : grain u ∣ u)
    (hpos : u ≠ 0)
    (hscale : 0 < scale)
    (hstep : 0 < step)
    (h : bestMultiple? u scale step = some d) :
    readsAs u scale (d * step) = true ∧
    ∀ d', readsAs u scale (d' * step) = true →
      distance u scale step d ≤ distance u scale step d' ∧
      (d' ≠ d → distance u scale step d = distance u scale step d' → d % 2 = 0) := by
  have hfloor := Nat.div_mul_le_self (4 * u * scale) step
  have hceil : 4 * u * scale < (4 * u * scale / step + 1) * step :=
    Nat.lt_mul_of_div_lt (Nat.lt_succ_self _) hstep
  have hapart : ∀ a b, a < b → a * step + step ≤ b * step := by
    intro a b hab
    rw [← Nat.succ_mul]
    exact Nat.mul_le_mul_right step hab
  rw [bestMultiple?] at h
  split at h
  · rename_i hbelow habove
    obtain ⟨hupper, hlower, hodd⟩ := (halfEven_eq_iff hstep).mp (Option.some.inj h)
    rw [Bool.and_eq_true] at hbelow
    have h₁ : (2 * d + 1) * step = 2 * (d * step) + step := by ring
    have h₂ : 2 * d * step = 2 * (d * step) := by ring
    rw [h₁] at hupper hodd
    rw [h₂] at hlower hodd
    constructor
    · have hge := div_le_halfEven (4 * u * scale) step
      have hle := halfEven_le_succ (4 * u * scale) step
      rw [Option.some.inj h] at hge hle
      exact readsAs_of_between hu hpos hbelow.2 habove (Nat.mul_le_mul_right step hge)
        (Nat.mul_le_mul_right step hle)
    · intro d' _
      rw [distance, distance]
      rcases Nat.lt_trichotomy d' d with hlt | rfl | hlt
      · have := hapart d' d hlt
        omega
      · exact ⟨Nat.le_refl _, fun hne => absurd rfl hne⟩
      · have := hapart d d' hlt
        omega
  · rename_i hbelow habove
    obtain rfl := Option.some.inj h
    rw [Bool.and_eq_true] at hbelow
    refine ⟨hbelow.2, ?_⟩
    intro d' hd'
    have hle : d' ≤ 4 * u * scale / step := by
      by_contra hlt
      rw [readsAs_above hu hpos hscale hstep hd' (Nat.lt_of_not_ge hlt)] at habove
      cases habove
    rw [distance, distance]
    rcases Nat.lt_or_eq_of_le hle with hlt | rfl
    · have := hapart d' _ hlt
      omega
    · exact ⟨Nat.le_refl _, fun hne => absurd rfl hne⟩
  · rename_i hbelow habove
    obtain rfl := Option.some.inj h
    refine ⟨habove, ?_⟩
    intro d' hd'
    have hle : 4 * u * scale / step + 1 ≤ d' := by
      by_contra hlt
      rw [readsAs_below hu hpos hscale hd' (by omega)] at hbelow
      cases hbelow
    rw [distance, distance]
    rcases Nat.lt_or_eq_of_le hle with hlt | rfl
    · have := hapart _ d' hlt
      omega
    · exact ⟨Nat.le_refl _, fun hne => absurd rfl hne⟩
  · cases h

end Multiples

theorem not_reads_of_bestAt?
    (hu : grain u ∣ u)
    (hpos : u ≠ 0)
    (h : bestAt? u k = none)
    (d : Nat) :
    ¬ Reads u d k := by
  rw [bestAt?_eq] at h
  have hstep : 0 < 4 * unitsOf k := Nat.mul_pos (by decide) (unitsOf_pos k)
  have hreads := not_readsAs_of_bestMultiple? hu hpos (scaleOf_pos k) hstep h d
  rwa [Nat.mul_left_comm] at hreads

/-- The search stops at the first power with a multiple that is read. -/
theorem searchFrom_stops
    (u : Nat)
    (tries : Nat) :
    ∀ {k : Int},
      (∃ n : Nat, n < tries ∧ bestAt? u (k - n) ≠ none) →
      bestAt? u (searchFrom u tries k).exponent = some (searchFrom u tries k).digits ∧
      ∀ k', (searchFrom u tries k).exponent < k' → k' ≤ k → bestAt? u k' = none := by
  induction tries with
  | zero =>
      rintro k ⟨n, hn, -⟩
      exact absurd hn (Nat.not_lt_zero n)
  | succ tries ih =>
      rintro k ⟨n, hn, hfound⟩
      rw [searchFrom]
      cases hk : bestAt? u k with
      | some d =>
          refine ⟨hk, ?_⟩
          intro k' hlt hle
          exact absurd hlt (not_lt.mpr hle)
      | none =>
          obtain ⟨m, rfl⟩ : ∃ m, n = m + 1 := by
            refine Nat.exists_eq_succ_of_ne_zero ?_
            rintro rfl
            exact hfound (by simpa using hk)
          have hrest : ∃ m : Nat, m < tries ∧ bestAt? u (k - 1 - m) ≠ none := by
            refine ⟨m, by omega, ?_⟩
            rwa [show k - 1 - (m : Int) = k - ((m + 1 : Nat) : Int) by omega]
          obtain ⟨hstop, hnone⟩ := ih hrest
          refine ⟨hstop, ?_⟩
          intro k' hlt hle
          rcases eq_or_lt_of_le hle with rfl | hlt'
          · exact hk
          · exact hnone k' hlt (by omega)

/-- The powers of ten that are tried are wide enough at first, and narrow enough at last.  The
binary lengths are checked one by one. -/
theorem firstPower_bounds :
    ∀ l < places + 1024,
      Nat.pow 2 (l + 1) * scaleOf (firstPower l + 1) ≤ unitsOf (firstPower l + 1) ∧
      2 * unitsOf (firstPower l - 23) < Nat.pow 2 (l - 52) * scaleOf (firstPower l - 23) := by
  decide +kernel

theorem not_reads_of_firstPower_lt
    (hu : grain u ∣ u)
    (hpos : u ≠ 0)
    (hlog : u.log2 < places + 1024)
    (hk : firstPower u.log2 < k) :
    ¬ Reads u d k := by
  intro h
  have hfirst : (2 : ℚ) ^ (u.log2 + 1) ≤ 10 ^ (firstPower u.log2 + 1) * one := by
    have hle := (firstPower_bounds u.log2 hlog).1
    rw [Nat.pow_eq, ← Nat.cast_le (α := ℚ), Nat.cast_mul, unitsOf_eq] at hle
    push_cast at hle
    exact le_of_mul_le_mul_right hle (Nat.cast_pos.mpr (scaleOf_pos _))
  have hdigits : (1 : ℚ) ≤ d := by
    exact_mod_cast h.digits_pos hu hpos
  have hpower : (10 : ℚ) ^ (firstPower u.log2 + 1) ≤ 10 ^ k :=
    zpow_le_zpow_right₀ (by norm_num) hk
  have hvalue : (10 : ℚ) ^ (firstPower u.log2 + 1) * one ≤ d * 10 ^ k * one := by
    refine mul_le_mul_of_nonneg_right (hpower.trans ?_) one_cast_pos.le
    exact le_mul_of_one_le_left (zpow_nonneg (by norm_num) k) hdigits
  exact absurd (h.lt hu hpos) (not_lt.mpr (hfirst.trans hvalue))

/-- Steps that are shorter than half the distance to the next number do not miss the interval. -/
theorem exists_bestAt?
    (hu : grain u ∣ u)
    (hpos : u ≠ 0)
    (hlog : u.log2 < places + 1024) :
    bestAt? u (firstPower u.log2 - 23) ≠ none := by
  intro h
  obtain ⟨k, hk⟩ : ∃ k, firstPower u.log2 - 23 = k := ⟨_, rfl⟩
  have hstep := (firstPower_bounds u.log2 hlog).2
  rw [hk] at h hstep
  have hunits := unitsOf_pos k
  have hscale := scaleOf_pos k
  have hgrain : 2 * unitsOf k < grain u * scaleOf k := hstep
  obtain ⟨c, hc⟩ : ∃ c, 4 * u * scaleOf k / (4 * unitsOf k) = c := ⟨_, rfl⟩
  have hfloor : c * (4 * unitsOf k) ≤ 4 * u * scaleOf k := hc ▸ Nat.div_mul_le_self _ _
  have hceil : 4 * u * scaleOf k < (c + 1) * (4 * unitsOf k) := by
    rw [← hc]
    exact Nat.lt_mul_of_div_lt (Nat.lt_succ_self _) (by omega)
  refine not_reads_of_bestAt? hu hpos h (c + 1) ?_
  rw [Nat.add_mul c, Nat.one_mul] at hceil
  rw [Reads, readsAs_iff hu hpos, Nat.add_mul (4 * u), Nat.mul_assoc 2, Nat.add_mul c,
    Nat.one_mul]
  have h₁ : c * (4 * unitsOf k) = 4 * (c * unitsOf k) := Nat.mul_left_comm c 4 _
  rw [h₁] at hfloor hceil
  omega

variable {x : Binary64}

/-- The magnitude of a number. -/
def magnitude (x : Binary64) : ℚ :=
  x.units / one

/-- How far a decimal lies from a number. -/
def deviation
    (x : Binary64)
    (digits : Nat)
    (exponent : Int) :
    ℚ :=
  |digits * (10 : ℚ) ^ exponent - x.magnitude|

/-- A decimal that is read as a number, with as few digits as such a decimal can have, and as close
to the number as such a decimal with these digits can be.  Of two that are as close, it is the even
one. -/
structure IsShortest
    (x : Binary64)
    (digits : Nat)
    (exponent : Int) :
    Prop where
  reads : ofDecimal? x.negative digits exponent = some x
  fewest : ∀ d k, ofDecimal? x.negative d k = some x → k ≤ exponent
  closest : ∀ d,
    ofDecimal? x.negative d exponent = some x →
    x.deviation digits exponent ≤ x.deviation d exponent
  even : ∀ d,
    ofDecimal? x.negative d exponent = some x →
    d ≠ digits →
    x.deviation digits exponent = x.deviation d exponent →
    digits % 2 = 0

theorem distance_eq
    (x : Binary64)
    (d : Nat)
    (k : Int) :
    (distance x.units (scaleOf k) (4 * unitsOf k) d : ℚ) =
      4 * one * scaleOf k * x.deviation d k := by
  have hone := one_cast_pos
  have hunits := unitsOf_eq k
  rw [deviation, magnitude]
  generalize (one : ℚ) = o at hone hunits ⊢
  have hfactor : 0 ≤ 4 * o * scaleOf k :=
    mul_nonneg (mul_nonneg (by norm_num) hone.le) (Nat.cast_nonneg _)
  have hmul :
      (d : ℚ) * (4 * (10 ^ k * o * scaleOf k)) - 4 * x.units * scaleOf k =
        4 * o * scaleOf k * (d * 10 ^ k - x.units / o) := by
    field_simp
  rw [distance, Nat.cast_natAbs, Int.cast_abs]
  push_cast
  rw [hunits, hmul, abs_mul, abs_of_nonneg hfactor]

/-- The search finds the shortest decimal. -/
theorem isShortest_shortest (hpos : x.units ≠ 0) :
    IsShortest x (shortest x.units).digits (shortest x.units).exponent := by
  have hu := x.grain_dvd
  have hlog : x.units.log2 < places + 1024 := by
    rw [Nat.log2_lt hpos, ← limit_eq]
    exact x.lt_limit
  obtain ⟨hstop, hnone⟩ := searchFrom_stops x.units 24
    ⟨23, by decide, exists_bestAt? hu hpos hlog⟩
  obtain ⟨s, hs⟩ : ∃ s, searchFrom x.units 24 (firstPower x.units.log2) = s := ⟨_, rfl⟩
  rw [hs] at hstop hnone
  rw [shortest, hs]
  have hstep : 0 < 4 * unitsOf s.exponent := Nat.mul_pos (by decide) (unitsOf_pos _)
  have hfactor : (0 : ℚ) < 4 * one * scaleOf s.exponent :=
    mul_pos (mul_pos (by norm_num) one_cast_pos) (Nat.cast_pos.mpr (scaleOf_pos _))
  rw [bestAt?_eq] at hstop
  obtain ⟨hreads, hbest⟩ := bestMultiple?_eq_some hu hpos (scaleOf_pos _) hstep hstop
  have hmultiple : ∀ {d}, ofDecimal? x.negative d s.exponent = some x →
      readsAs x.units (scaleOf s.exponent) (d * (4 * unitsOf s.exponent)) = true := by
    intro d h
    rw [ofDecimal?_eq_some_iff hpos, Reads, ← Nat.mul_left_comm] at h
    exact h.2
  constructor
  · rw [ofDecimal?_eq_some_iff hpos, Reads, ← Nat.mul_left_comm]
    exact ⟨rfl, hreads⟩
  · intro d k h
    rw [ofDecimal?_eq_some_iff hpos] at h
    by_contra hlt
    rcases le_or_gt k (firstPower x.units.log2) with hk | hk
    · exact not_reads_of_bestAt? hu hpos (hnone k (not_le.mp hlt) hk) d h.2
    · exact not_reads_of_firstPower_lt hu hpos hlog hk h.2
  · intro d h
    have hle := (hbest d (hmultiple h)).1
    rw [← Nat.cast_le (α := ℚ), distance_eq, distance_eq] at hle
    exact le_of_mul_le_mul_left hle hfactor
  · intro d h hne heq
    refine (hbest d (hmultiple h)).2 hne ?_
    rw [← Nat.cast_inj (R := ℚ), distance_eq, distance_eq, heq]

/-- A number has one shortest decimal.  Between two even ones that lie as far from the number, one
would lie closer. -/
theorem IsShortest.unique
    (hpos : x.units ≠ 0)
    {d d' : Nat}
    {k k' : Int}
    (h : IsShortest x d k)
    (h' : IsShortest x d' k') :
    d = d' ∧ k = k' := by
  obtain rfl : k = k' := le_antisymm (h'.fewest d k h.reads) (h.fewest d' k' h'.reads)
  refine ⟨?_, rfl⟩
  by_contra hne
  have hsame := le_antisymm (h.closest d' h'.reads) (h'.closest d h.reads)
  have heven := h.even d' h'.reads (Ne.symm hne) hsame
  have heven' := h'.even d h.reads hne hsame.symm
  wlog hlt : d < d' generalizing d d'
  · exact this h' h (Ne.symm hne) hsame.symm heven' heven
      (lt_of_le_of_ne (not_lt.mp hlt) (Ne.symm hne))
  obtain ⟨m, hm⟩ : ∃ m, d + d' = 2 * m := ⟨(d + d') / 2, by omega⟩
  have hmiddle : ofDecimal? x.negative m k = some x := by
    have hlow := (ofDecimal?_eq_some_iff hpos).mp h.reads
    have hhigh := (ofDecimal?_eq_some_iff hpos).mp h'.reads
    refine (ofDecimal?_eq_some_iff hpos).mpr ⟨rfl, ?_⟩
    refine readsAs_of_between x.grain_dvd hpos hlow.2 hhigh.2 ?_ ?_
    · exact Nat.mul_le_mul_left 4 (Nat.mul_le_mul_right _ (by omega))
    · exact Nat.mul_le_mul_left 4 (Nat.mul_le_mul_right _ (by omega))
  have hpower : (0 : ℚ) < 10 ^ k := zpow_pos (by norm_num) k
  have hless : ∀ {a b : Nat}, a < b → (a : ℚ) * 10 ^ k < b * 10 ^ k := fun hab =>
    mul_lt_mul_of_pos_right (Nat.cast_lt.mpr hab) hpower
  have hvalue : (m : ℚ) * 10 ^ k = x.magnitude := by
    have hsum : (d : ℚ) + d' = 2 * m := by exact_mod_cast hm
    have hne := (hless hlt).ne
    rcases abs_eq_abs.mp hsame with heq | heq
    · exact absurd (sub_left_injective heq) hne
    · linear_combination (heq - 10 ^ k * hsum) / 2
  have hclose := h.closest m hmiddle
  rw [deviation, deviation, hvalue, sub_self, abs_zero, abs_nonpos_iff, sub_eq_zero,
    ← hvalue] at hclose
  exact (hless (show d < m by omega)).ne hclose

end Searching

end Binary64
end ChannelHeaders
