import Mathlib
import ChannelHeaders.Document.Tree
import ChannelHeaders.Proofs.DecimalTexts
import ChannelHeaders.Proofs.ShortestDecimals

/-!
# The texts of numbers

What the text of a number is, without the functions that write it.  An integer has its
decimal digits behind a sign.  A floating-point number has a sign and a decimal that is read
as the number: the shortest one, of several the closest one, and of two that are as close
the even one.  It is laid out with a point among its digits when the magnitude is ordinary,
neither very small nor very large, and with an exponent otherwise.  Nothing else is left
open, so that a number has one text.

**Digits.**  A number is taken apart at a power of ten: its digits are those of the quotient,
followed by those of the remainder with zeros in front up to its length.

**Results.**
* `toDigits_mul_pow`: multiplying by a power of ten appends zeros.
* `exists_toDigits_append`: the digits of a quotient and a remainder.
* `writes_positional`, `writes_scientific`: the two layouts of a decimal.
* `IsDecimal.unique`, `Number.WritesDecimal.unique`: digits and layouts leave no choice.
* `Number.isText_text`, `Number.IsText.unique`: the text of a number, and the only one.
* `Document.ExtendedNumber.text_eq_iff`: the same for the numbers of a document.
-/

namespace ChannelHeaders

section Powers

/-- Multiplying by a power of ten appends zeros. -/
theorem toDigits_mul_pow
    {d : Nat}
    (hd : 0 < d)
    (n : Nat) :
    Nat.toDigits 10 (d * 10 ^ n) = Nat.toDigits 10 d ++ List.replicate n '0' := by
  induction n with
  | zero => rw [Nat.pow_zero, Nat.mul_one, List.replicate_zero, List.append_nil]
  | succ n ih =>
      have hpos : 0 < d * 10 ^ n := Nat.mul_pos hd (Nat.pow_pos (by decide))
      have hmul : d * 10 ^ (n + 1) = 10 * (d * 10 ^ n) + 0 := by
        rw [Nat.pow_succ, Nat.add_zero, Nat.mul_comm 10, Nat.mul_assoc]
      rw [hmul, ← Nat.toDigits_append_toDigits (by decide) hpos (by decide), ih,
        List.replicate_succ', List.append_assoc]
      rfl

/-- The digits of a number end in those of its remainder. -/
theorem exists_toDigits_append
    {d : Nat} :
    ∀ {n : Nat},
      10 ^ n ≤ d →
      ∃ low,
        Nat.toDigits 10 d = Nat.toDigits 10 (d / 10 ^ n) ++ low ∧
        low.length = n ∧
        (∀ c ∈ low, c.isDigit = true) ∧
        Nat.ofDigitChars 10 low 0 = d % 10 ^ n := by
  intro n
  induction n with
  | zero =>
      intro _
      refine ⟨[], ?_, rfl, fun c hc => absurd hc List.not_mem_nil, ?_⟩
      · rw [Nat.pow_zero, Nat.div_one, List.append_nil]
      · rw [Nat.pow_zero, Nat.mod_one]
        rfl
  | succ n ih =>
      intro h
      obtain ⟨low, hdigits, hlength, hall, hvalue⟩ :=
        ih (Nat.le_trans (Nat.pow_le_pow_right (by decide) (Nat.le_succ n)) h)
      have hten : 10 ≤ d / 10 ^ n := by
        rw [Nat.le_div_iff_mul_le (Nat.pow_pos (by decide)), Nat.mul_comm, ← Nat.pow_succ]
        exact h
      have hlast : d / 10 ^ n % 10 < 10 := Nat.mod_lt _ (by decide)
      refine ⟨(d / 10 ^ n % 10).digitChar :: low, ?_, ?_, ?_, ?_⟩
      · rw [hdigits, Nat.toDigits_of_base_le (by decide) hten, Nat.div_div_eq_div_mul,
          ← Nat.pow_succ, List.append_assoc]
        rfl
      · rw [List.length_cons, hlength]
      · intro c hc
        rcases List.mem_cons.mp hc with rfl | hc
        · rw [Nat.isDigit_digitChar, decide_eq_true hlast]
        · exact hall c hc
      · rw [Nat.ofDigitChars_cons, Nat.ofDigitChars_eq_ofDigitChars_zero, hlength, hvalue,
          Nat.toNat_digitChar_of_lt_ten hlast, Nat.mod_pow_succ, Nat.mul_zero, Nat.zero_add,
          Nat.add_comm]
        exact congrArg (fun r => d % 10 ^ n + 10 ^ n * r) (Nat.add_sub_cancel_left 48 _)

end Powers

section Uniqueness

/-- The first digit counts the greatest power of ten. -/
theorem ofDigitChars_cons_zero
    (c : Char)
    (cs : List Char) :
    Nat.ofDigitChars 10 (c :: cs) 0 =
      10 ^ cs.length * (c.toNat - '0'.toNat) + Nat.ofDigitChars 10 cs 0 := by
  rw [Nat.ofDigitChars_cons, Nat.ofDigitChars_eq_ofDigitChars_zero, Nat.mul_zero, Nat.zero_add]

/-- Digits stand for less than the power of ten behind them. -/
theorem ofDigitChars_lt
    {cs : List Char}
    (h : ∀ c ∈ cs, c.isDigit = true) :
    Nat.ofDigitChars 10 cs 0 < 10 ^ cs.length := by
  induction cs with
  | nil => exact Nat.one_pos
  | cons c cs ih =>
      obtain ⟨hc, hcs⟩ := List.forall_mem_cons.mp h
      have hdigit : c.toNat - '0'.toNat ≤ 9 := Nat.sub_le_of_le_add (Char.isDigit_iff_toNat.mp hc).2
      have hfront := Nat.mul_le_mul_left (10 ^ cs.length) hdigit
      have htail := ih hcs
      rw [ofDigitChars_cons_zero, List.length_cons, Nat.pow_succ]
      omega

/-- As many digits with the same value are the same digits. -/
theorem eq_of_ofDigitChars_eq
    {cs : List Char} :
    ∀ {ds : List Char},
      (∀ c ∈ cs, c.isDigit = true) →
      (∀ c ∈ ds, c.isDigit = true) →
      cs.length = ds.length →
      Nat.ofDigitChars 10 cs 0 = Nat.ofDigitChars 10 ds 0 →
      cs = ds := by
  induction cs with
  | nil =>
      intro ds _ _ hlength _
      exact (List.length_eq_zero_iff.mp hlength.symm).symm
  | cons c cs ih =>
      intro ds hcs hds hlength hvalue
      cases ds with
      | nil => cases hlength
      | cons d ds =>
          obtain ⟨hc, hcs⟩ := List.forall_mem_cons.mp hcs
          obtain ⟨hd, hds⟩ := List.forall_mem_cons.mp hds
          have hlength := Nat.succ.inj hlength
          have hltc := ofDigitChars_lt hcs
          have hltd := ofDigitChars_lt hds
          have hpow : 0 < 10 ^ ds.length := Nat.pow_pos (by decide)
          rw [ofDigitChars_cons_zero, ofDigitChars_cons_zero, hlength] at hvalue
          rw [hlength] at hltc
          have hfront := congrArg (· / 10 ^ ds.length) hvalue
          have htail := congrArg (· % 10 ^ ds.length) hvalue
          simp only [Nat.mul_add_div hpow, Nat.div_eq_of_lt hltc, Nat.div_eq_of_lt hltd,
            Nat.add_zero] at hfront
          simp only [Nat.mul_add_mod, Nat.mod_eq_of_lt hltc, Nat.mod_eq_of_lt hltd] at htail
          have hdigits := Char.isDigit_iff_toNat.mp hc
          have hdigits' := Char.isDigit_iff_toNat.mp hd
          rw [Char.toNat_inj.mp (show c.toNat = d.toNat by omega), ih hcs hds hlength htail]

/-- A number that is not written as `0` has a first digit other than zero. -/
theorem IsDecimal.pow_le
    {n : Nat}
    {text : String}
    (h : IsDecimal n text)
    (hzero : text ≠ "0") :
    10 ^ (text.toList.length - 1) ≤ n := by
  obtain ⟨c, cs, hcs⟩ := List.exists_cons_of_ne_nil h.ne_empty
  have hvalue := h.value
  have hc := Char.isDigit_iff_toNat.mp (h.digits c (hcs ▸ List.mem_cons_self))
  have hne : c.toNat ≠ '0'.toNat := by
    intro heq
    refine hzero (h.shortest ?_)
    rw [hcs, List.head?_cons, Char.toNat_inj.mp heq]
  rw [hcs, ofDigitChars_cons_zero] at hvalue
  have hfront := Nat.mul_le_mul_left (10 ^ cs.length) (show 1 ≤ c.toNat - '0'.toNat by omega)
  rw [hcs, List.length_cons, Nat.add_sub_cancel, ← hvalue]
  omega

theorem IsDecimal.lt_pow
    {n : Nat}
    {text : String}
    (h : IsDecimal n text) :
    n < 10 ^ text.toList.length := by
  have hlt := ofDigitChars_lt h.digits
  rwa [h.value] at hlt

theorem IsDecimal.length_le
    {n : Nat}
    {s t : String}
    (hs : IsDecimal n s)
    (ht : IsDecimal n t) :
    s.toList.length ≤ t.toList.length := by
  by_cases hzero : s = "0"
  · subst hzero
    exact List.length_pos_iff.mpr ht.ne_empty
  · have hlt := (hs.pow_le hzero).trans_lt ht.lt_pow
    have := (Nat.pow_lt_pow_iff_right (by decide)).mp hlt
    omega

/-- A number has one decimal text. -/
theorem IsDecimal.unique
    {n : Nat}
    {s t : String}
    (hs : IsDecimal n s)
    (ht : IsDecimal n t) :
    s = t := by
  apply String.toList_inj.mp
  exact eq_of_ofDigitChars_eq hs.digits ht.digits (le_antisymm (hs.length_le ht) (ht.length_le hs))
    (hs.value.trans ht.value.symm)

/-- An integer has one text. -/
theorem IsInteger.unique
    {i : Int}
    {s t : String}
    (hs : IsInteger i s)
    (ht : IsInteger i t) :
    s = t := by
  cases hs with
  | nonnegative hi h =>
      cases ht with
      | nonnegative _ h' => exact h.unique h'
      | negative hi' _ => exact absurd hi (not_le.mpr hi')
  | negative hi h =>
      cases ht with
      | nonnegative hi' _ => exact absurd hi' (not_le.mpr hi)
      | negative _ h' => rw [h.unique h']

end Uniqueness

namespace Number

section Texts

/-- Magnitudes that are written with a point among their digits. -/
def IsOrdinary (magnitude : ℚ) : Prop :=
  1 / 10 ^ 5 ≤ magnitude ∧ magnitude < 10 ^ 16

/-- The texts of the decimal `digits * 10 ^ exponent`. -/
inductive WritesDecimal
    (style : Style)
    (digits : Nat)
    (exponent : Int) :
    String → Prop
  | whole
      {n : Nat}
      {text : String}
      (hexponent : exponent = n)
      (hordinary : IsOrdinary (digits * 10 ^ exponent))
      (htext : IsDecimal (digits * 10 ^ n) text) :
      WritesDecimal style digits exponent (text ++ ".0")
  /-- There are as many digits behind the point as the exponent says. -/
  | fraction
      {n : Nat}
      {whole fraction : String}
      (hexponent : exponent = -n)
      (hpos : 0 < n)
      (hordinary : IsOrdinary (digits * 10 ^ exponent))
      (hwhole : IsDecimal (digits / 10 ^ n) whole)
      (hdigits : ∀ c ∈ fraction.toList, c.isDigit = true)
      (hlength : fraction.length = n)
      (hvalue : Nat.ofDigitChars 10 fraction.toList 0 = digits % 10 ^ n) :
      WritesDecimal style digits exponent (whole ++ "." ++ fraction)
  /-- There is one digit in front of the point, which is left out when no digit follows. -/
  | scientific
      {first rest power : String}
      (hordinary : ¬ IsOrdinary (digits * 10 ^ exponent))
      (htext : IsDecimal digits (first ++ rest))
      (hfirst : first.length = 1)
      (hpower : IsInteger (exponent + rest.length) power) :
      WritesDecimal style digits exponent
        (first ++ (if rest = "" then "" else "." ++ rest) ++ "e" ++
          (if 0 ≤ exponent + rest.length then style.exponentSign else "") ++ power)

end Texts

section Layouts

variable {d : Nat} {k : Int}

/-- A decimal lies between two powers of ten that follow each other. -/
theorem decimal_bounds
    (hd : 0 < d)
    (k : Int) :
    (10 : ℚ) ^ (k + Binary64.decimalLength d - 1) ≤ d * 10 ^ k ∧
    d * 10 ^ k < (10 : ℚ) ^ (k + Binary64.decimalLength d) := by
  have hk : (0 : ℚ) < 10 ^ k := zpow_pos (by norm_num) k
  obtain ⟨n, hn⟩ : ∃ n, Binary64.decimalLength d = n + 1 :=
    Nat.exists_eq_succ_of_ne_zero (Nat.length_toDigits_pos).ne'
  have hlow : (10 : ℚ) ^ n ≤ d := by
    exact_mod_cast Binary64.pow_le_of_lt_decimalLength hd (by omega)
  have hhigh : (d : ℚ) < 10 ^ (n + 1) := by
    exact_mod_cast hn ▸ Binary64.lt_pow_decimalLength d
  constructor
  · rw [hn, show k + ((n + 1 : Nat) : Int) - 1 = n + k by omega, zpow_add₀ (by norm_num),
      zpow_natCast]
    exact mul_le_mul_of_nonneg_right hlow hk.le
  · rw [hn, Int.add_comm, zpow_add₀ (by norm_num), zpow_natCast]
    exact mul_lt_mul_of_pos_right hhigh hk

/-- The point stands close to the digits of ordinary magnitudes. -/
theorem isOrdinary_iff
    (hd : 0 < d)
    (k : Int) :
    IsOrdinary (d * 10 ^ k) ↔
      minPoint ≤ k + Binary64.decimalLength d ∧ k + Binary64.decimalLength d ≤ maxPoint := by
  obtain ⟨hlow, hhigh⟩ := decimal_bounds hd k
  have hfive : (1 : ℚ) / 10 ^ 5 = 10 ^ (-5 : Int) := by norm_num
  have hsixteen : (10 : ℚ) ^ 16 = 10 ^ (16 : Int) := by norm_num
  have hone : (1 : ℚ) < 10 := by norm_num
  rw [IsOrdinary, hfive, hsixteen, minPoint, maxPoint]
  constructor
  · rintro ⟨hmin, hmax⟩
    have h₁ := (zpow_lt_zpow_iff_right₀ hone).mp (hmin.trans_lt hhigh)
    have h₂ := (zpow_lt_zpow_iff_right₀ hone).mp (hlow.trans_lt hmax)
    omega
  · rintro ⟨hmin, hmax⟩
    refine ⟨le_trans ?_ hlow, lt_of_lt_of_le hhigh ?_⟩
    · exact zpow_le_zpow_right₀ hone.le (by omega)
    · exact zpow_le_zpow_right₀ hone.le hmax

theorem ofList_point (cs ds : List Char) :
    String.ofList (cs ++ '.' :: ds) = String.ofList cs ++ "." ++ String.ofList ds := by
  rw [← List.singleton_append, String.ofList_append, String.ofList_append, ← String.append_assoc]

/-- Digits with a point among them. -/
theorem writes_fraction
    (style : Style)
    {n : Nat}
    (hpos : 0 < n)
    (hordinary : IsOrdinary (d * 10 ^ (-n : Int)))
    {whole low : List Char}
    (hwhole : IsDecimal (d / 10 ^ n) (String.ofList whole))
    (hdigits : ∀ c ∈ low, c.isDigit = true)
    (hlength : low.length = n)
    (hvalue : Nat.ofDigitChars 10 low 0 = d % 10 ^ n) :
    WritesDecimal style d (-n) (String.ofList (whole ++ '.' :: low)) := by
  rw [ofList_point]
  refine .fraction rfl hpos hordinary hwhole ?_ ?_ ?_
  · rwa [String.toList_ofList]
  · rwa [String.length_ofList]
  · rwa [String.toList_ofList]

/-- Ordinary magnitudes are written with a point among their digits. -/
theorem writes_positional
    (style : Style)
    (hd : 0 < d)
    (hordinary : IsOrdinary (d * 10 ^ k)) :
    WritesDecimal style d k
      (String.ofList (positional (Nat.toDigits 10 d) (k + Binary64.decimalLength d))) := by
  obtain ⟨l, hl⟩ : ∃ l, Binary64.decimalLength d = l := ⟨_, rfl⟩
  have hlength : (Nat.toDigits 10 d).length = l := hl
  have hlpos : 0 < l := hl ▸ Nat.length_toDigits_pos
  rw [hl]
  rcases le_or_gt 0 k with hk | hk
  · obtain ⟨n, rfl⟩ := Int.eq_ofNat_of_zero_le hk
    have hsub : ((n : Int) + l).toNat - l = n := by omega
    have htext : IsDecimal (d * 10 ^ n)
        (String.ofList (Nat.toDigits 10 d ++ List.replicate n '0')) :=
      toDigits_mul_pow hd n ▸ isDecimal_toDigits _
    rw [positional, if_neg (by omega), if_pos (by omega), hlength, hsub, String.ofList_append]
    exact .whole rfl hordinary htext
  · obtain ⟨n, rfl⟩ : ∃ n : Nat, k = -n := ⟨k.natAbs, by omega⟩
    rcases Nat.lt_or_ge n l with hn | hn
    · obtain ⟨low, hdigits, hlow, hall, hvalue⟩ :=
        exists_toDigits_append (Binary64.pow_le_of_lt_decimalLength hd (hl.symm ▸ hn))
      have hfront : (Nat.toDigits 10 (d / 10 ^ n)).length = (-(n : Int) + l).toNat := by
        rw [hdigits, List.length_append] at hlength
        omega
      rw [positional, if_neg (by omega), if_neg (by omega), hdigits,
        List.take_left' hfront, List.drop_left' hfront]
      exact writes_fraction style (by omega) hordinary (isDecimal_toDigits _) hall hlow hvalue
    · have hlt : d < 10 ^ n :=
        (hl ▸ Binary64.lt_pow_decimalLength d).trans_le (Nat.pow_le_pow_right (by decide) hn)
      have hzeros : (-(-(n : Int) + l)).toNat = n - l := by omega
      have hwhole : IsDecimal (d / 10 ^ n) (String.ofList ['0']) := by
        rw [Nat.div_eq_of_lt hlt]
        exact isDecimal_toDigits 0
      rw [positional, if_pos (by omega), hzeros]
      refine writes_fraction style (by omega) hordinary hwhole ?_ ?_ ?_
      · intro c hc
        rcases List.mem_append.mp hc with hc | hc
        · rw [List.eq_of_mem_replicate hc]
          rfl
        · exact Nat.isDigit_of_mem_toDigits (by decide) (by decide) hc
      · rw [List.length_append, List.length_replicate, hlength]
        omega
      · rw [Nat.ofDigitChars_append, Nat.ofDigitChars_replicate_zero, Nat.mul_zero,
          Nat.ofDigitChars_ten_toDigits, Nat.mod_eq_of_lt hlt]

/-- Other magnitudes are written with an exponent. -/
theorem writes_scientific
    (style : Style)
    (hordinary : ¬ IsOrdinary (d * 10 ^ k)) :
    WritesDecimal style d k
      (String.ofList (mantissa (Nat.toDigits 10 d)) ++
        exponentText style (k + Binary64.decimalLength d - 1)) := by
  obtain ⟨c, cs, hdigits⟩ := List.exists_cons_of_ne_nil (Nat.toDigits_ne_nil (n := d) (b := 10))
  have hpoint : k + Binary64.decimalLength d - 1 = k + (String.ofList cs).length := by
    rw [Binary64.decimalLength, hdigits, List.length_cons, String.length_ofList]
    omega
  have htext : IsDecimal d (String.ofList [c] ++ String.ofList cs) := by
    rw [← String.ofList_append, List.singleton_append, ← hdigits]
    exact isDecimal_toDigits d
  have hmantissa : String.ofList (mantissa (c :: cs)) =
      String.ofList [c] ++ (if String.ofList cs = "" then "" else "." ++ String.ofList cs) := by
    cases cs with
    | nil =>
        rw [if_pos rfl, String.append_empty]
        rfl
    | cons c' cs =>
        rw [if_neg (by simp), mantissa, ← List.singleton_append, ofList_point, String.append_assoc]
  rw [hdigits, hmantissa, hpoint, exponentText, ← String.append_assoc, ← String.append_assoc]
  exact .scientific hordinary htext String.length_ofList (isInteger_toString _)

/-- A decimal has one text. -/
theorem WritesDecimal.unique
    {style : Style}
    {s t : String}
    (hs : WritesDecimal style d k s)
    (ht : WritesDecimal style d k t) :
    s = t := by
  cases hs with
  | @whole n text hk hordinary htext =>
      cases ht with
      | @whole n' text' hk' _ htext' =>
          obtain rfl : n = n' := by omega
          rw [htext.unique htext']
      | @fraction n' _ _ hk' hpos _ _ _ _ _ => omega
      | scientific hordinary' _ _ _ => exact absurd hordinary hordinary'
  | @fraction n whole low hk hpos hordinary hwhole hdigits hlength hvalue =>
      cases ht with
      | @whole n' _ hk' _ _ => omega
      | @fraction n' whole' low' hk' _ _ hwhole' hdigits' hlength' hvalue' =>
          obtain rfl : n = n' := by omega
          have hlow : low = low' := by
            apply String.toList_inj.mp
            refine eq_of_ofDigitChars_eq hdigits hdigits' ?_ (hvalue.trans hvalue'.symm)
            rw [String.length_toList, String.length_toList, hlength, hlength']
          rw [hwhole.unique hwhole', hlow]
      | scientific hordinary' _ _ _ => exact absurd hordinary hordinary'
  | @scientific first rest power hordinary htext hfirst hpower =>
      cases ht with
      | whole _ hordinary' _ => exact absurd hordinary' hordinary
      | fraction _ _ hordinary' _ _ _ _ => exact absurd hordinary' hordinary
      | @scientific first' rest' power' _ htext' hfirst' hpower' =>
          have happend := congrArg String.toList (htext.unique htext')
          rw [String.toList_append, String.toList_append] at happend
          obtain ⟨hf, hr⟩ := List.append_inj happend (by
            rw [String.length_toList, String.length_toList, hfirst, hfirst'])
          obtain rfl := String.toList_inj.mp hf
          obtain rfl := String.toList_inj.mp hr
          rw [hpower.unique hpower']

end Layouts

section Numbers

/-- The texts of a floating-point number. -/
inductive IsFloatText
    (style : Style)
    (x : Binary64) :
    String → Prop
  | zero
      (hx : x.units = 0) :
      IsFloatText style x ((if x.negative then "-" else "") ++ "0.0")
  | other
      {digits : Nat}
      {exponent : Int}
      {text : String}
      (hx : x.units ≠ 0)
      (hshortest : x.IsShortest digits exponent)
      (htext : WritesDecimal style digits exponent text) :
      IsFloatText style x ((if x.negative then "-" else "") ++ text)

/-- The texts of a number. -/
inductive IsText (style : Style) : Number → String → Prop
  | integer
      {w : Word}
      {text : String}
      (h : IsInteger w.val text) :
      IsText style (.integer w) text
  | float
      {x : Binary64}
      {text : String}
      (h : IsFloatText style x text) :
      IsText style (.float x) text

/-- A floating-point number is written by its shortest decimal. -/
theorem isFloatText_magnitudeText
    (style : Style)
    (x : Binary64) :
    IsFloatText style x ((if x.negative then "-" else "") ++ magnitudeText style x.units) := by
  by_cases hx : x.units = 0
  · rw [hx]
    exact .zero hx
  · have hshortest := Binary64.isShortest_shortest hx
    obtain ⟨s, hs⟩ : ∃ s, Binary64.shortest x.units = s := ⟨_, rfl⟩
    rw [hs] at hshortest
    have hreads := ((Binary64.ofDecimal?_eq_some_iff hx).mp hshortest.reads).2
    have hordinary := isOrdinary_iff (hreads.digits_pos x.grain_dvd hx) s.exponent
    refine .other hx hshortest ?_
    rw [magnitudeText, if_neg hx, hs]
    by_cases h : IsOrdinary (s.digits * 10 ^ s.exponent)
    · exact (if_pos (hordinary.mp h)).symm ▸ writes_positional style
        (hreads.digits_pos x.grain_dvd hx) h
    · exact (if_neg (mt hordinary.mpr h)).symm ▸ writes_scientific style h

theorem IsFloatText.unique
    {style : Style}
    {x : Binary64}
    {s t : String}
    (hs : IsFloatText style x s)
    (ht : IsFloatText style x t) :
    s = t := by
  cases hs with
  | zero hx =>
      cases ht with
      | zero _ => rfl
      | other hx' _ _ => exact absurd hx hx'
  | other hx hshortest htext =>
      cases ht with
      | zero hx' => exact absurd hx' hx
      | other _ hshortest' htext' =>
          obtain ⟨rfl, rfl⟩ := hshortest.unique hx hshortest'
          rw [htext.unique htext']

/-- A number has one text. -/
theorem IsText.unique
    {style : Style}
    {n : Number}
    {s t : String}
    (hs : n.IsText style s)
    (ht : n.IsText style t) :
    s = t := by
  cases hs with
  | integer h =>
      cases ht with
      | integer h' => exact h.unique h'
  | float h =>
      cases ht with
      | float h' => exact h.unique h'

/-- A number is written with its text. -/
theorem isText_text
    (style : Style)
    (n : Number) :
    n.IsText style (n.text style) := by
  cases n with
  | integer w => exact .integer (isInteger_toString w.val)
  | float x => exact .float (isFloatText_magnitudeText style x)

end Numbers

end Number

namespace Document

/-- The texts of a number of a document. -/
inductive ExtendedNumber.IsText : ExtendedNumber → String → Prop
  | finite
      {n : Number}
      {text : String}
      (h : n.IsText .document text) :
      IsText (.finite n) text
  | infinite : IsText (.infinite false) ".inf"
  | negativeInfinite : IsText (.infinite true) "-.inf"
  | notANumber : IsText .notANumber ".nan"

theorem ExtendedNumber.isText_text (n : ExtendedNumber) : n.IsText n.text := by
  cases n with
  | finite n => exact .finite (n.isText_text .document)
  | infinite negative =>
      cases negative with
      | false => exact .infinite
      | true => exact .negativeInfinite
  | notANumber => exact .notANumber

theorem ExtendedNumber.IsText.unique
    {n : ExtendedNumber}
    {s t : String}
    (hs : n.IsText s)
    (ht : n.IsText t) :
    s = t := by
  cases hs with
  | finite h =>
      cases ht with
      | finite h' => exact h.unique h'
  | infinite =>
      cases ht
      rfl
  | negativeInfinite =>
      cases ht
      rfl
  | notANumber =>
      cases ht
      rfl

/-- The text of a number is the only one that it has. -/
theorem ExtendedNumber.text_eq_iff
    {n : ExtendedNumber}
    {text : String} :
    n.text = text ↔ n.IsText text := by
  constructor
  · rintro rfl
    exact n.isText_text
  · exact n.isText_text.unique

end Document

end ChannelHeaders
