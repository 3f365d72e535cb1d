/-!
# Digits

Hexadecimal digits and their values.  Letters of both cases are read, and lower-case ones
are written.

**Results.**
* `hexValue?_hexChar`: a digit that is written is read back.
-/

namespace ChannelHeaders
namespace Text

/-- The value of a hexadecimal digit. -/
def hexValue? (c : Char) : Option Nat :=
  if '0' ≤ c ∧ c ≤ '9' then some (c.toNat - '0'.toNat)
  else if 'a' ≤ c ∧ c ≤ 'f' then some (c.toNat - 'a'.toNat + 10)
  else if 'A' ≤ c ∧ c ≤ 'F' then some (c.toNat - 'A'.toNat + 10)
  else none

/-- The lower-case hexadecimal digit of a value. -/
def hexChar (d : Nat) : Char :=
  Char.ofNat (if d < 10 then d + 0x30 else d + 0x57)

/-- The value of a digit to a base of at most sixteen. -/
def digitValue?
    (base : Nat)
    (c : Char) :
    Option Nat :=
  (hexValue? c).filter (· < base)

/-- The value of a decimal digit. -/
def decimalValue (c : Char) : Nat :=
  c.toNat - '0'.toNat

/-- The character of a hexadecimal digit has its value. -/
theorem hexValue?_hexChar
    {d : Nat}
    (h : d < 16) :
    hexValue? (hexChar d) = some d := by
  have hall : ∀ d : Fin 16, hexValue? (hexChar d.val) = some d.val := by decide
  exact hall ⟨d, h⟩

end Text
end ChannelHeaders
