import ChannelHeaders.Text.Digit

/-!
# Identifiers

An identifier is a number of 128 bits.  It is written as 32 lower-case hexadecimal digits
in groups of 8, 4, 4, 4 and 12 with hyphens between them.  A random identifier carries
the version 4 in its thirteenth digit and the bits `10` at the start of its seventeenth.

**Results.**
* `length_digits`: an identifier has 32 digits.
-/

namespace ChannelHeaders

/-- An identifier. -/
structure Identifier where
  /-- The bits as a number. -/
  bits : BitVec 128
deriving DecidableEq, Inhabited

namespace Identifier

/-- The hexadecimal digits, the most significant first. -/
def digits (i : Identifier) : List Nat :=
  (List.range 32).map fun k => i.bits.toNat / Nat.pow 16 (31 - k) % 16

/-- The lengths of the groups of digits. -/
def groups : List Nat :=
  [8, 4, 4, 4, 12]

/-- Cuts digits into groups with hyphens between them. -/
def hyphenate : List Nat → List Char → List Char
  | [], cs => cs
  | [_], cs => cs
  | n :: ns, cs => cs.take n ++ '-' :: hyphenate ns (cs.drop n)

/-- The text of an identifier. -/
def text (i : Identifier) : String :=
  String.ofList (hyphenate groups (i.digits.map Text.hexChar))

/-- The version of an identifier. -/
def version (i : Identifier) : Nat :=
  i.bits.toNat / Nat.pow 16 19 % 16

/-- The identifier with the digits of a text, hyphens left out. -/
def ofText? (s : String) : Option Identifier :=
  let ds := s.toList.filter (· != '-')
  if ds.length = 32 then
    (ds.mapM Text.hexValue?).map fun ds => ⟨BitVec.ofNat 128 (ds.foldl (fun n d => 16 * n + d) 0)⟩
  else none

/-- An identifier has 32 hexadecimal digits. -/
theorem length_digits (i : Identifier) : i.digits.length = 32 := by
  simp [digits]

end Identifier
end ChannelHeaders
