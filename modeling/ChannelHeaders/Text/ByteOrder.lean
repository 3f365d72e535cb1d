/-!
# The order of texts by their bytes

Names are listed in the order of their UTF-8 bytes.  This file turns a text into its
list of bytes and orders texts by the lexicographic order of these lists.

**Results.**
* `bytes_injective`: a text is determined by its bytes.
* `Precedes.trans`, `Precedes.irrefl`, `Precedes.trichotomy`: the order is strict and
  total.
-/

namespace ChannelHeaders
namespace Text

/-- The UTF-8 bytes of a text. -/
def bytes (s : String) : List UInt8 :=
  s.toUTF8.data.toList

/-- The text `s` stands before the text `t` in byte order. -/
def Precedes (s t : String) : Prop :=
  bytes s < bytes t

instance (s t : String) : Decidable (Precedes s t) :=
  inferInstanceAs (Decidable (bytes s < bytes t))

/-- Texts with equal bytes are equal. -/
theorem bytes_injective
    {s t : String}
    (h : bytes s = bytes t) :
    s = t := by
  have h₁ : s.toUTF8.data = t.toUTF8.data := Array.toList_inj.mp h
  have h₂ : s.toUTF8 = t.toUTF8 := by
    cases hs : s.toUTF8
    cases ht : t.toUTF8
    simp_all
  exact String.toByteArray_inj.mp h₂

theorem Precedes.irrefl (s : String) : ¬ Precedes s s :=
  List.lt_irrefl (bytes s)

theorem Precedes.trans
    {s t u : String}
    (h₁ : Precedes s t)
    (h₂ : Precedes t u) :
    Precedes s u :=
  List.lt_trans h₁ h₂

theorem Precedes.ne
    {s t : String}
    (h : Precedes s t) :
    s ≠ t :=
  fun e => Precedes.irrefl t (e ▸ h)

/-- Of two different texts one precedes the other. -/
theorem Precedes.trichotomy
    {s t : String}
    (hne : s ≠ t)
    (h : ¬ Precedes s t) :
    Precedes t s := by
  by_cases hts : bytes t < bytes s
  · exact hts
  · exact absurd (bytes_injective (List.le_antisymm (List.not_lt.mp hts) (List.not_lt.mp h))) hne

/-- How `s` stands to `t` in byte order. -/
def compare (s t : String) : Ordering :=
  if Precedes s t then .lt else if s = t then .eq else .gt

end Text
end ChannelHeaders
