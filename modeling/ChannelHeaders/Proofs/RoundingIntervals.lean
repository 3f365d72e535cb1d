import Mathlib
import ChannelHeaders.Number.Shortest

/-!
# Rounding intervals

A ratio rounds to a magnitude when it lies close enough to it.  Close enough is half the
distance to the next number, and below a power of two, where the numbers lie closer
together, a quarter.  A ratio that is as close to one number as to the next rounds to the
even one.

**Proof.**  The grain of a ratio is that of its integral part.  So it is the grain of the
magnitude to which the ratio rounds, unless that is a power of two which is reached from
below; there the grain of the ratio is one half.  In both cases rounding is `halfEven`,
which is pinned down by inequalities.

**Results.**
* `halfEven_eq_iff`: the nearest integer by inequalities.
* `readsAs_iff`: the rounding interval by inequalities.
* `nearest_eq_iff_readsAs`: a ratio rounds to a magnitude when it lies in the interval.
-/

namespace ChannelHeaders
namespace Binary64

section Halves

/-- The integer nearest to a ratio, in terms of the ratio alone: an odd one is nearer than one
half. -/
theorem halfEven_eq_iff
    {n d m : Nat}
    (hd : 0 < d) :
    halfEven n d = m ↔
      2 * n ≤ (2 * m + 1) * d ∧ 2 * m * d ≤ 2 * n + d ∧
      (m % 2 = 1 → 2 * n < (2 * m + 1) * d ∧ 2 * m * d < 2 * n + d) := by
  obtain ⟨k, hk⟩ : ∃ k, n / d = k := ⟨_, rfl⟩
  obtain ⟨r, hr⟩ : ∃ r, n % d = r := ⟨_, rfl⟩
  have hrd : r < d := hr ▸ Nat.mod_lt n hd
  have hn : n = d * k + r := by rw [← hk, ← hr, Nat.div_add_mod]
  -- Only the quotient and its successor are within one half.
  have hlow : (2 * k + 1) * d = 2 * (d * k) + d ∧ 2 * k * d = 2 * (d * k) := by
    constructor <;> ring
  have hhigh :
      (2 * (k + 1) + 1) * d = 2 * (d * k) + 3 * d ∧
      2 * (k + 1) * d = 2 * (d * k) + 2 * d := by
    constructor <;> ring
  rw [halfEven, hk, hr, hn]
  constructor
  · rintro rfl
    have hparity : k % 2 = 0 ∨ k % 2 = 1 := by omega
    split_ifs with h h'
    · omega
    · omega
    · rcases hparity with heven | hodd
      · simp only [heven, Nat.add_zero]
        omega
      · simp only [hodd]
        omega
  · rintro ⟨h, h', hodd⟩
    have hle : k ≤ m := by
      by_contra hlt
      have hm : (2 * m + 1) * d + d ≤ 2 * k * d := by
        rw [← Nat.succ_mul]
        exact Nat.mul_le_mul_right d (by omega)
      omega
    have hge : m ≤ k + 1 := by
      by_contra hlt
      have hm : (2 * (k + 1) + 1) * d + d ≤ 2 * m * d := by
        rw [← Nat.succ_mul]
        exact Nat.mul_le_mul_right d (by omega)
      omega
    obtain rfl | rfl : m = k ∨ m = k + 1 := by omega
    · split_ifs <;> omega
    · split_ifs <;> omega

end Halves

section Grains

variable {u : Nat}

theorem grain_pos (u : Nat) : 0 < grain u :=
  Nat.two_pow_pos _

theorem grain_of_lt
    {v : Nat}
    (h : v < 2 ^ 53) :
    grain v = 1 := by
  have hlog : v.log2 < 53 := by
    rcases Nat.eq_zero_or_pos v with rfl | hv
    · decide
    · exact (Nat.log2_lt hv.ne').mpr h
  rw [grain, Nat.sub_eq_zero_of_le (by omega)]

theorem grain_of_log2
    {v l : Nat}
    (h : 2 ^ l ≤ v)
    (h' : v < 2 ^ (l + 1)) :
    grain v = 2 ^ (l - 52) := by
  have hv : v ≠ 0 := by
    have := Nat.two_pow_pos l
    omega
  rw [grain, (Nat.log2_eq_iff hv).mpr ⟨h, h'⟩]
  rfl

/-- The grain of 53 bits and more is what stands behind the first 53. -/
theorem grain_mul_two_pow
    {m l : Nat}
    (hlow : 2 ^ 52 ≤ m)
    (hhigh : m < 2 ^ 53) :
    grain (m * 2 ^ l) = 2 ^ l := by
  have hgrain : grain (m * 2 ^ l) = 2 ^ (52 + l - 52) := by
    refine grain_of_log2 ?_ ?_
    · rw [Nat.pow_add]
      exact Nat.mul_le_mul_right _ hlow
    · rw [show 52 + l + 1 = 53 + l by omega, Nat.pow_add]
      exact Nat.mul_lt_mul_of_pos_right hhigh (Nat.two_pow_pos l)
  rw [hgrain, Nat.add_sub_cancel_left]

/-- More than 53 bits have 53 bits in front of the grain. -/
theorem two_pow_le_div_two_pow
    {v l : Nat}
    (hl : v.log2 - 52 = l)
    (hpos : 0 < l) :
    2 ^ 52 ≤ v / 2 ^ l := by
  have hv : v ≠ 0 := by
    rintro rfl
    rw [Nat.log2_zero] at hl
    omega
  rw [Nat.le_div_iff_mul_le (Nat.two_pow_pos l), ← Nat.pow_add, ← hl,
    Nat.add_sub_cancel' (by omega)]
  exact Nat.log2_self_le hv

/-- Multiples of one number are at least that number apart. -/
theorem add_le_of_dvd
    {g a b : Nat}
    (ha : g ∣ a)
    (hb : g ∣ b)
    (h : a < b) :
    a + g ≤ b :=
  Nat.le_of_lt_add_of_dvd (Nat.add_lt_add_right h g) (Nat.dvd_add ha (Nat.dvd_refl g)) hb

/-- The next number lies at the next power of two at most. -/
theorem add_grain_le (hu : grain u ∣ u) :
    u + grain u ≤ 2 ^ (u.log2 + 1) := by
  refine add_le_of_dvd hu (Nat.pow_dvd_pow 2 (by omega)) ?_
  exact Nat.lt_log2_self

/-- A number above a power of two is at least the next one. -/
theorem two_pow_add_grain_le
    (hu : grain u ∣ u)
    (hpos : u ≠ 0)
    (h : u ≠ 2 ^ u.log2) :
    2 ^ u.log2 + grain u ≤ u := by
  refine add_le_of_dvd (Nat.pow_dvd_pow 2 (by omega)) hu ?_
  exact lt_of_le_of_ne (Nat.log2_self_le hpos) h.symm

/-- The interval reaches down no farther than up. -/
theorem reachDown_le
    (u : Nat) :
    reachDown u ≤ 2 * grain u := by
  rw [reachDown]
  split
  · have := grain_pos u
    omega
  · exact Nat.le_refl _

end Grains

section Intervals

variable {u n d : Nat}

/-- The rounding interval around a magnitude.  It holds its ends when the significand is even. -/
theorem readsAs_iff
    (hu : grain u ∣ u)
    (hpos : u ≠ 0)
    {scale quarters : Nat} :
    readsAs u scale quarters = true ↔
      4 * u * scale ≤ quarters + reachDown u * scale ∧
      quarters ≤ (4 * u + 2 * grain u) * scale ∧
      (u / grain u % 2 = 1 →
        4 * u * scale < quarters + reachDown u * scale ∧
        quarters < (4 * u + 2 * grain u) * scale) := by
  have hgrain : grain u ≤ u := Nat.le_of_dvd (Nat.pos_of_ne_zero hpos) hu
  have hreach := reachDown_le u
  have hlow : (4 * u - reachDown u) * scale + reachDown u * scale = 4 * u * scale := by
    rw [← Nat.add_mul, Nat.sub_add_cancel (by omega)]
  rw [readsAs]
  split_ifs with heven
  · rw [Bool.and_eq_true, decide_eq_true_eq, decide_eq_true_eq]
    omega
  · rw [Bool.and_eq_true, decide_eq_true_eq, decide_eq_true_eq]
    omega

/-- A ratio rounds to a magnitude from its own binade, or from the binade below a power of two. -/
inductive GrainCase (u v : Nat) : Prop
  | same
      (h : grain v = grain u) :
      GrainCase u v
  | below
      (hpower : u = 2 ^ u.log2)
      (h : grain u = 2 * grain v) :
      GrainCase u v

theorem GrainCase.of_readsAs
    (hu : grain u ∣ u)
    (hpos : u ≠ 0)
    (hd : 0 < d)
    (h : readsAs u d (4 * n) = true) :
    GrainCase u (n / d) := by
  obtain ⟨hlow, hhigh, -⟩ := (readsAs_iff hu hpos).mp h
  have hreach := reachDown_le u
  have hgrain := grain_pos u
  have hlt : n / d < 2 ^ (u.log2 + 1) := by
    rw [Nat.div_lt_iff_lt_mul hd]
    have hnext := Nat.mul_le_mul_right d (add_grain_le hu)
    nlinarith
  rcases Nat.lt_or_ge (n / d) (2 ^ u.log2) with hbelow | hbelow
  · rcases Nat.lt_or_ge u.log2 53 with hlog | hlog
    · refine .same ?_
      rw [grain_of_lt (hbelow.trans_le (Nat.pow_le_pow_right (by decide) hlog.le)), grain,
        Nat.sub_eq_zero_of_le (by omega)]
    · have hpower : u = 2 ^ u.log2 := by
        by_contra hne
        have habove := Nat.mul_le_mul_right d (two_pow_add_grain_le hu hpos hne)
        rw [Nat.div_lt_iff_lt_mul hd] at hbelow
        nlinarith
      obtain ⟨l, hl⟩ : ∃ l, u.log2 = l + 1 := ⟨u.log2 - 1, by omega⟩
      rw [hl] at hbelow hpower
      have hhalf : 2 ^ l ≤ n / d := by
        rw [Nat.le_div_iff_mul_le hd]
        have hle : grain u * d ≤ u * d :=
          Nat.mul_le_mul_right d (Nat.le_of_dvd (Nat.pos_of_ne_zero hpos) hu)
        have hdouble : u * d = 2 * (2 ^ l * d) := by
          rw [hpower, Nat.pow_succ]
          ring
        have hreachd := Nat.mul_le_mul_right d hreach
        nlinarith
      refine .below (hl ▸ hpower) ?_
      rw [grain_of_log2 hhalf hbelow, grain, hl, show l + 1 - 52 = (l - 52) + 1 by omega,
        Nat.pow_eq, Nat.pow_succ']
  · exact .same (grain_of_log2 hbelow hlt)

theorem div_le_halfEven (n d : Nat) : n / d ≤ halfEven n d := by
  rw [halfEven]
  split_ifs <;> omega

theorem GrainCase.of_nearest (n d : Nat) : GrainCase (nearest n d) (n / d) := by
  obtain ⟨m, hm⟩ : ∃ m, halfEven n (d * grain (n / d)) = m := ⟨_, rfl⟩
  have hle : m ≤ 2 ^ 53 := hm ▸ halfEven_grain_le n d
  have hge : n / d / grain (n / d) ≤ m := by
    rw [Nat.div_div_eq_div_mul, ← hm]
    exact div_le_halfEven n (d * grain (n / d))
  obtain ⟨v, hv⟩ : ∃ v, n / d = v := ⟨_, rfl⟩
  rw [nearest, hm, hv]
  rw [hv] at hge
  obtain ⟨l, hl⟩ : ∃ l, v.log2 - 52 = l := ⟨_, rfl⟩
  have hgrain : grain v = 2 ^ l := by
    rw [grain, hl]
    rfl
  rw [hgrain] at hge ⊢
  rcases Nat.lt_or_eq_of_le hle with hlt | rfl
  · refine .same ?_
    rw [hgrain]
    rcases Nat.eq_zero_or_pos l with rfl | hlpos
    · rw [pow_zero, Nat.mul_one, grain_of_lt hlt]
    · exact (grain_mul_two_pow ((two_pow_le_div_two_pow hl hlpos).trans hge) hlt).symm
  · -- All bits are carried, and the next power of two is reached.
    rw [← Nat.pow_add]
    refine .below ?_ ?_
    · rw [Nat.log2_two_pow]
    · rw [hgrain, grain, Nat.log2_two_pow, show 53 + l - 52 = l + 1 by omega, Nat.pow_eq,
        Nat.pow_succ']

/-- Rounding to a multiple of the grain is rounding the quotient. -/
theorem nearest_eq_iff_halfEven
    {m : Nat}
    (h : u = m * grain (n / d)) :
    nearest n d = u ↔ halfEven n (d * grain (n / d)) = m := by
  rw [nearest]
  constructor
  · intro heq
    exact Nat.eq_of_mul_eq_mul_right (grain_pos (n / d)) (heq.trans h)
  · rintro rfl
    exact h.symm

/-- A ratio in the binade of a power of two is not below it. -/
theorem mul_le_of_grain_eq
    (hd : 0 < d)
    (hpower : u = 2 ^ u.log2)
    (hlarge : 1 < grain u)
    (h : grain (n / d) = grain u) :
    u * d ≤ n := by
  have hexponent : (n / d).log2 - 52 = u.log2 - 52 := Nat.pow_right_injective (le_refl 2) h
  have hbits : u.log2 - 52 ≠ 0 := by
    intro hzero
    rw [grain, hzero] at hlarge
    exact absurd hlarge (by decide)
  have hne : n / d ≠ 0 := by
    intro hzero
    rw [hzero, Nat.log2_zero] at hexponent
    omega
  have hlog : u.log2 = (n / d).log2 := by omega
  rw [← Nat.le_div_iff_mul_le hd, hpower, hlog]
  exact Nat.log2_self_le hne

theorem nearest_eq_iff_of_same
    (hu : grain u ∣ u)
    (hpos : u ≠ 0)
    (hd : 0 < d)
    (h : grain (n / d) = grain u) :
    nearest n d = u ↔ readsAs u d (4 * n) = true := by
  have hgrain := grain_pos u
  obtain ⟨m, hm⟩ := hu
  have hquotient : u / grain u = m := Nat.div_eq_of_eq_mul_right hgrain hm
  have hmul : u = m * grain u := by rw [Nat.mul_comm, ← hm]
  have hround : nearest n d = u ↔ halfEven n (d * grain u) = m :=
    h ▸ nearest_eq_iff_halfEven (hmul.trans (congrArg (m * ·) h.symm))
  have hdg : 0 < d * grain u := Nat.mul_pos hd hgrain
  have hud : u * d = m * (d * grain u) := by
    conv_lhs => rw [hmul]
    ring
  have h₁ : (2 * m + 1) * (d * grain u) = 2 * (u * d) + d * grain u := by
    rw [hud]
    ring
  have h₂ : 2 * m * (d * grain u) = 2 * (u * d) := by
    rw [hud]
    ring
  have h₃ : 4 * u * d = 4 * (u * d) := by ring
  have h₄ : (4 * u + 2 * grain u) * d = 4 * (u * d) + 2 * (d * grain u) := by ring
  rw [hround, halfEven_eq_iff hdg, readsAs_iff ⟨m, hm⟩ hpos, hquotient, h₁, h₂, h₃, h₄, reachDown]
  split_ifs with hpower
  · have hle := mul_le_of_grain_eq hd hpower.1 hpower.2 h
    rw [Nat.mul_comm (grain u) d]
    omega
  · rw [show 2 * grain u * d = 2 * (d * grain u) by ring]
    omega

theorem nearest_eq_iff_of_below
    (hu : grain u ∣ u)
    (hpos : u ≠ 0)
    (hd : 0 < d)
    (hpower : u = 2 ^ u.log2)
    (h : grain u = 2 * grain (n / d)) :
    nearest n d = u ↔ readsAs u d (4 * n) = true := by
  obtain ⟨e, he⟩ : ∃ e, (n / d).log2 - 52 = e := ⟨_, rfl⟩
  have hgrain : grain (n / d) = 2 ^ e := by
    rw [grain, he]
    rfl
  have hlog : u.log2 = 53 + e := by
    have hexponent : u.log2 - 52 = e + 1 := by
      refine Nat.pow_right_injective (le_refl 2) ?_
      rw [hgrain, ← Nat.pow_succ'] at h
      exact h
    omega
  have hlt : n < u * d := by
    rw [← Nat.div_lt_iff_lt_mul hd, hpower, hlog]
    exact Nat.lt_log2_self.trans_le (Nat.pow_le_pow_right (by decide) (by omega))
  have hmul : u = 2 ^ 53 * 2 ^ e := by
    conv_lhs => rw [hpower, hlog, Nat.pow_add]
  have hud : u * d = 2 ^ 53 * (d * 2 ^ e) := by
    conv_lhs => rw [hmul]
    ring
  have hround : nearest n d = u ↔ halfEven n (d * 2 ^ e) = 2 ^ 53 :=
    hgrain ▸ nearest_eq_iff_halfEven (hmul.trans (congrArg (2 ^ 53 * ·) hgrain.symm))
  have hquotient : u / grain u = 2 ^ 52 := by
    rw [h, hgrain]
    refine Nat.div_eq_of_eq_mul_left (Nat.mul_pos (by decide) (Nat.two_pow_pos e)) ?_
    conv_lhs => rw [hmul]
    ring
  have hreach : reachDown u = 2 * 2 ^ e := by
    have hone : 1 < grain u := by
      have := Nat.two_pow_pos e
      omega
    rw [reachDown, if_pos ⟨hpower, hone⟩, h, hgrain]
  have hde : 0 < d * 2 ^ e := Nat.mul_pos hd (Nat.two_pow_pos e)
  rw [hround, halfEven_eq_iff hde, readsAs_iff hu hpos, hquotient, hreach, h, hgrain]
  have h₁ : (2 * 2 ^ 53 + 1) * (d * 2 ^ e) = 2 * (u * d) + d * 2 ^ e := by
    rw [hud]
    ring
  have h₂ : 2 * 2 ^ 53 * (d * 2 ^ e) = 2 * (u * d) := by
    rw [hud]
    ring
  have h₃ : 4 * u * d = 4 * (u * d) := by ring
  have h₄ : (4 * u + 2 * (2 * 2 ^ e)) * d = 4 * (u * d) + 4 * (d * 2 ^ e) := by ring
  have h₅ : 2 * 2 ^ e * d = 2 * (d * 2 ^ e) := by ring
  rw [h₁, h₂, h₃, h₄, h₅]
  omega

/-- A ratio rounds to a magnitude when it lies in the rounding interval. -/
theorem nearest_eq_iff_readsAs
    (hu : grain u ∣ u)
    (hpos : u ≠ 0)
    (hd : 0 < d) :
    nearest n d = u ↔ readsAs u d (4 * n) = true := by
  have hcase : nearest n d = u ∨ readsAs u d (4 * n) = true → GrainCase u (n / d) := by
    rintro (h | h)
    · exact h ▸ GrainCase.of_nearest n d
    · exact GrainCase.of_readsAs hu hpos hd h
  suffices h : GrainCase u (n / d) → (nearest n d = u ↔ readsAs u d (4 * n) = true) from
    ⟨fun hn => (h (hcase (.inl hn))).mp hn, fun hr => (h (hcase (.inr hr))).mpr hr⟩
  rintro (h | ⟨hpower, h⟩)
  · exact nearest_eq_iff_of_same hu hpos hd h
  · exact nearest_eq_iff_of_below hu hpos hd hpower h

end Intervals

end Binary64
end ChannelHeaders
