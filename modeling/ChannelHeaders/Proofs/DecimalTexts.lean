/-!
# Decimal texts

The decimal digits of a natural number, and of an integer behind its sign.  A number has
one such text only, since no zero may stand in front.

**Results.**
* `eq_zero_of_head?_toDigits`: only zero is written with a zero in front.
* `isDecimal_toString`, `isInteger_toString`: numbers are written with their digits.
-/

namespace ChannelHeaders

section Digits

/-- Only zero is written with a zero in front. -/
theorem eq_zero_of_head?_toDigits (n : Nat) :
    (Nat.toDigits 10 n).head? = some '0' → n = 0 := by
  induction n using Nat.strongRecOn with
  | ind n ih =>
      intro h
      rw [Nat.toDigits_eq_if (by decide)] at h
      split at h
      · simpa using h
      · rw [List.head?_append, Option.or_eq_some_iff] at h
        have hhead := h.resolve_right fun h => Nat.toDigits_ne_nil (List.head?_eq_none_iff.mp h.1)
        have hzero := ih (n / 10) (by omega) hhead
        omega

/-- The decimal digits of a number, without zeros in front. -/
structure IsDecimal
    (n : Nat)
    (text : String) :
    Prop where
  ne_empty : text.toList ≠ []
  digits : ∀ c ∈ text.toList, c.isDigit = true
  value : Nat.ofDigitChars 10 text.toList 0 = n
  shortest : text.toList.head? = some '0' → text = "0"

/-- The decimal digits of an integer, behind a minus sign when it is negative. -/
inductive IsInteger (i : Int) : String → Prop
  | nonnegative
      {text : String}
      (hi : 0 ≤ i)
      (h : IsDecimal i.natAbs text) :
      IsInteger i text
  | negative
      {text : String}
      (hi : i < 0)
      (h : IsDecimal i.natAbs text) :
      IsInteger i ("-" ++ text)

theorem isDecimal_toDigits (n : Nat) : IsDecimal n (String.ofList (Nat.toDigits 10 n)) := by
  constructor
  · rw [String.toList_ofList]
    exact Nat.toDigits_ne_nil
  · rw [String.toList_ofList]
    exact fun c hc => Nat.isDigit_of_mem_toDigits (by decide) (by decide) hc
  · rw [String.toList_ofList]
    exact Nat.ofDigitChars_ten_toDigits
  · intro h
    rw [String.toList_ofList] at h
    rw [eq_zero_of_head?_toDigits n h]
    rfl

theorem isDecimal_toString (n : Nat) : IsDecimal n (toString n) :=
  isDecimal_toDigits n

/-- An integer is written with its digits, behind its sign. -/
theorem isInteger_toString (i : Int) : IsInteger i (toString i) := by
  cases i with
  | ofNat n => exact .nonnegative (Int.natCast_nonneg n) (isDecimal_toString n)
  | negSucc n => exact .negative (Int.negSucc_lt_zero n) (isDecimal_toString (n + 1))

end Digits

end ChannelHeaders
