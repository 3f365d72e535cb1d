/-!
# Starts and ends of texts

Removing a given start or a given end from a text, when the text has it.

**Results.**
* `dropStart?_eq_some_iff`, `after?_eq_some_iff`, `before?_eq_some_iff`: removal succeeds
  exactly on the texts that have the part, and returns the rest of them.
-/

namespace ChannelHeaders
namespace Text

/-- The characters behind a given start. -/
def dropStart? : List Char → List Char → Option (List Char)
  | [], cs => some cs
  | _ :: _, [] => none
  | w :: ws, c :: cs => if w = c then dropStart? ws cs else none

/-- The text behind a given start. -/
def after? (start s : String) : Option String :=
  (dropStart? start.toList s.toList).map String.ofList

/-- The text in front of a given end. -/
def before? (stop s : String) : Option String :=
  (dropStart? stop.toList.reverse s.toList.reverse).map fun cs => String.ofList cs.reverse

theorem dropStart?_eq_some_iff {ws cs rest : List Char} :
    dropStart? ws cs = some rest ↔ cs = ws ++ rest := by
  fun_induction dropStart? ws cs with
  | case1 cs => simp [eq_comm]
  | case2 => simp
  | case3 w ws cs ih => simp [ih]
  | case4 w ws c cs h => simp [Ne.symm h]

theorem length_dropStart?
    {ws cs rest : List Char}
    (h : dropStart? ws cs = some rest) :
    rest.length ≤ cs.length := by
  rw [dropStart?_eq_some_iff.mp h, List.length_append]
  exact Nat.le_add_left _ _

/-- What stands behind a start completes it to the whole text. -/
theorem after?_eq_some_iff {start s t : String} : after? start s = some t ↔ s = start ++ t := by
  rw [after?, Option.map_eq_some_iff]
  constructor
  · rintro ⟨cs, h, rfl⟩
    have := dropStart?_eq_some_iff.mp h
    apply String.toList_inj.mp
    rw [String.toList_append, String.toList_ofList, this]
  · rintro rfl
    exact ⟨t.toList, dropStart?_eq_some_iff.mpr String.toList_append, String.ofList_toList⟩

/-- What stands in front of an end completes it to the whole text. -/
theorem before?_eq_some_iff {stop s t : String} : before? stop s = some t ↔ s = t ++ stop := by
  rw [before?, Option.map_eq_some_iff]
  constructor
  · rintro ⟨cs, h, rfl⟩
    have := congrArg List.reverse (dropStart?_eq_some_iff.mp h)
    rw [List.reverse_append, List.reverse_reverse, List.reverse_reverse] at this
    apply String.toList_inj.mp
    rw [String.toList_append, String.toList_ofList, this]
  · rintro rfl
    refine ⟨t.toList.reverse, dropStart?_eq_some_iff.mpr ?_, ?_⟩
    · rw [String.toList_append, List.reverse_append]
    · rw [List.reverse_reverse, String.ofList_toList]

end Text
end ChannelHeaders
