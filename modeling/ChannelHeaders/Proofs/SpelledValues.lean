import Mathlib.Logic.Basic
import ChannelHeaders.Json.Text
import ChannelHeaders.Proofs.SpelledTokens

/-!
# Spellings of JSON values

A value is spelled by its tokens.  The machine that reads the tokens gives the value back
when its arrays and objects fit into those that may be open at once, and refuses it
otherwise.  Whatever the nesting, the tokens determine the value.

The machine is followed part by part.  A value is read on top of the arrays and objects
that are open, and the rest of an array or object on top of what is complete in it.

**Results.**
* `run_tokens`: what the machine makes of the tokens of a value.
* `decode?_spelled`: what is read of any spelling of a value.
* `tokens_inj`: values with the same tokens are equal.
* `spells_compact`: the compact text of a value spells it, floating-point numbers apart.
-/

namespace ChannelHeaders
namespace Json

section Running

variable {α β : Type}

theorem bind_ite_some
    {p : Prop}
    [Decidable p]
    (x : α)
    (f : α → Option β) :
    (if p then some x else none).bind f = if p then f x else none := by
  split <;> rfl

theorem run_beginArray
    (frames : List Frame)
    (ts : List Token) :
    run ⟨frames, .value⟩ (.beginArray :: ts) =
      if frames.length < maxOpen then run ⟨.items [] :: frames, .firstItem⟩ ts else none :=
  bind_ite_some _ _

theorem run_beginObject
    (frames : List Frame)
    (ts : List Token) :
    run ⟨frames, .value⟩ (.beginObject :: ts) =
      if frames.length < maxOpen then run ⟨frames, .firstName⟩ ts else none :=
  bind_ite_some _ _

/-- The tokens of a value never start with the end of an array. -/
theorem run_firstItem
    (j : Json)
    (frames : List Frame)
    (ts : List Token) :
    run ⟨frames, .firstItem⟩ (j.tokens ++ ts) = run ⟨frames, .value⟩ (j.tokens ++ ts) := by
  cases j with
  | array items => cases items <;> rfl
  | object members => cases members <;> rfl
  | _ => rfl

mutual

/-- The tokens of a value are read as the value, if it fits on top of what is open. -/
theorem run_tokens
    (j : Json)
    (frames : List Frame)
    (hopen : frames.length ≤ maxOpen) :
    run ⟨frames, .value⟩ j.tokens =
      if frames.length + j.nesting ≤ maxOpen then some ⟨frames, .after j⟩ else none := by
  cases j with
  | array items =>
      cases items with
      | nil =>
          rw [tokens, run_beginArray]
          rfl
      | cons x xs =>
          rw [tokens, run_beginArray]
          split
          · rename_i hframes
            -- The first item and the rest of the array are read with one more array open.
            rw [run_firstItem, run_append, run_tokens x (.items [] :: frames) hframes,
              bind_ite_some, run_tokensOfItems xs frames [] x hframes, ← ite_and]
            refine if_congr ?_ rfl rfl
            rw [List.length_cons, nesting, nestingItems]
            omega
          · rename_i hframes
            rw [if_neg]
            rw [nesting]
            omega
  | object members =>
      cases members with
      | nil =>
          rw [tokens, run_beginObject]
          rfl
      | cons m ms =>
          rw [tokens, run_beginObject]
          split
          · rename_i hframes
            -- Nothing can fail before the value of the first member.
            have hname :
                run ⟨frames, .firstName⟩
                    (.text m.1 :: .colon :: (m.2.tokens ++ tokensOfMembers ms)) =
                  run ⟨.members [] m.1 :: frames, .value⟩ (m.2.tokens ++ tokensOfMembers ms) := by
              rfl
            rw [hname, run_append, run_tokens m.2 (.members [] m.1 :: frames) hframes,
              bind_ite_some, run_tokensOfMembers ms frames [] m.1 m.2 hframes, ← ite_and]
            refine if_congr ?_ rfl rfl
            rw [List.length_cons, nesting, nestingMembers]
            omega
          · rename_i hframes
            rw [if_neg]
            rw [nesting]
            omega
  | _ => exact (if_pos hopen).symm

/-- The rest of an array is read behind a complete item. -/
theorem run_tokensOfItems
    (xs : List Json)
    (frames : List Frame)
    (done : List Json)
    (x : Json)
    (hopen : frames.length < maxOpen) :
    run ⟨.items done :: frames, .after x⟩ (tokensOfItems xs) =
      if frames.length + 1 + nestingItems xs ≤ maxOpen then
        some ⟨frames, .after (array (done.reverse ++ x :: xs))⟩
      else none := by
  cases xs with
  | nil =>
      rw [nestingItems, Nat.add_zero, if_pos (Nat.succ_le_of_lt hopen), ← List.reverse_cons]
      rfl
  | cons y ys =>
      have hcomma :
          run ⟨.items done :: frames, .after x⟩ (.comma :: (y.tokens ++ tokensOfItems ys)) =
            run ⟨.items (x :: done) :: frames, .value⟩ (y.tokens ++ tokensOfItems ys) := by
        rfl
      rw [tokensOfItems, hcomma, run_append, run_tokens y (.items (x :: done) :: frames) hopen,
        bind_ite_some, run_tokensOfItems ys frames (x :: done) y hopen, ← ite_and,
        List.reverse_cons, List.append_assoc, List.singleton_append]
      refine if_congr ?_ rfl rfl
      rw [List.length_cons, nestingItems]
      omega

/-- The rest of an object is read behind a complete member. -/
theorem run_tokensOfMembers
    (ms : List (String × Json))
    (frames : List Frame)
    (done : List (String × Json))
    (name : String)
    (value : Json)
    (hopen : frames.length < maxOpen) :
    run ⟨.members done name :: frames, .after value⟩ (tokensOfMembers ms) =
      if frames.length + 1 + nestingMembers ms ≤ maxOpen then
        some ⟨frames, .after (object (done.reverse ++ (name, value) :: ms))⟩
      else none := by
  cases ms with
  | nil =>
      rw [nestingMembers, Nat.add_zero, if_pos (Nat.succ_le_of_lt hopen), ← List.reverse_cons]
      rfl
  | cons m ms =>
      have hname :
          run ⟨.members done name :: frames, .after value⟩
              (.comma :: .text m.1 :: .colon :: (m.2.tokens ++ tokensOfMembers ms)) =
            run ⟨.members ((name, value) :: done) m.1 :: frames, .value⟩
              (m.2.tokens ++ tokensOfMembers ms) := by
        rfl
      rw [tokensOfMembers, hname, run_append,
        run_tokens m.2 (.members ((name, value) :: done) m.1 :: frames) hopen, bind_ite_some,
        run_tokensOfMembers ms frames ((name, value) :: done) m.1 m.2 hopen, ← ite_and,
        List.reverse_cons, List.append_assoc, List.singleton_append]
      refine if_congr ?_ rfl rfl
      rw [List.length_cons, nestingMembers]
      omega

end

end Running

section Decoding

theorem ofTokens?_tokens (j : Json) :
    ofTokens? j.tokens = if j.nesting ≤ maxOpen then some j else none := by
  rw [ofTokens?, run_tokens j [] (Nat.zero_le _), bind_ite_some, List.length_nil, Nat.zero_add]
  rfl

theorem fromUTF8?_toUTF8 (s : String) : String.fromUTF8? s.toUTF8 = some s :=
  dif_pos s.isValidUTF8

/-- Any spelling of a value is read as the value, unless too much of it is open at once. -/
theorem decode?_spelled
    {j : Json}
    {text : String}
    (h : SpellsTokens j.tokens text.toList) :
    decode? text.toUTF8 = if j.nesting ≤ maxOpen then some j else none := by
  rw [decode?, fromUTF8?_toUTF8, Option.bind_some, parse?, tokens?_spelled h, Option.bind_some,
    ofTokens?_tokens]

end Decoding

section Injectivity

theorem tokens_ne_endArray
    (j : Json)
    (ts us : List Token) :
    j.tokens ++ ts ≠ .endArray :: us := by
  intro h
  cases j with
  | array items => cases items <;> cases h
  | object members => cases members <;> cases h
  | _ => cases h

mutual

/-- The tokens of a value show where they end, and which value they spell. -/
theorem tokens_append_inj
    (j j' : Json)
    {ts ts' : List Token}
    (h : j.tokens ++ ts = j'.tokens ++ ts') :
    j = j' ∧ ts = ts' := by
  cases j with
  | array xs =>
      cases j' with
      | array ys =>
          obtain ⟨rfl, hts⟩ := tokens_array_append_inj xs ys h
          exact ⟨rfl, hts⟩
      | object ns => cases xs <;> cases ns <;> cases h
      | _ => cases xs <;> cases h
  | object ms =>
      cases j' with
      | array ys => cases ms <;> cases ys <;> cases h
      | object ns =>
          obtain ⟨rfl, hts⟩ := tokens_object_append_inj ms ns h
          exact ⟨rfl, hts⟩
      | _ => cases ms <;> cases h
  | _ =>
      cases j' with
      | array ys => cases ys <;> cases h
      | object ns => cases ns <;> cases h
      | _ =>
          cases h <;>
          exact ⟨rfl, rfl⟩
termination_by structural j

theorem tokens_array_append_inj
    (xs ys : List Json)
    {ts ts' : List Token}
    (h : (array xs).tokens ++ ts = (array ys).tokens ++ ts') :
    xs = ys ∧ ts = ts' := by
  cases xs with
  | nil =>
      cases ys with
      | nil => exact ⟨rfl, List.append_cancel_left h⟩
      | cons y ys =>
          simp only [tokens, List.cons_append, List.nil_append, List.append_assoc,
            List.cons.injEq, true_and] at h
          exact absurd h.symm (tokens_ne_endArray y _ _)
  | cons x xs =>
      cases ys with
      | nil =>
          simp only [tokens, List.cons_append, List.nil_append, List.append_assoc,
            List.cons.injEq, true_and] at h
          exact absurd h (tokens_ne_endArray x _ _)
      | cons y ys =>
          simp only [tokens, List.cons_append, List.append_assoc, List.cons.injEq, true_and] at h
          obtain ⟨rfl, hrest⟩ := tokens_append_inj x y h
          obtain ⟨rfl, hts⟩ := tokensOfItems_append_inj xs ys hrest
          exact ⟨rfl, hts⟩
termination_by structural xs

theorem tokens_object_append_inj
    (ms ns : List (String × Json))
    {ts ts' : List Token}
    (h : (object ms).tokens ++ ts = (object ns).tokens ++ ts') :
    ms = ns ∧ ts = ts' := by
  cases ms with
  | nil =>
      cases ns with
      | nil => exact ⟨rfl, List.append_cancel_left h⟩
      | cons n ns => cases h
  | cons m ms =>
      cases ns with
      | nil => cases h
      | cons n ns =>
          simp only [tokens, List.cons_append, List.append_assoc, List.cons.injEq,
            Token.text.injEq, true_and] at h
          obtain ⟨hvalue, hrest⟩ := tokens_append_inj m.2 n.2 h.2
          obtain ⟨rfl, hts⟩ := tokensOfMembers_append_inj ms ns hrest
          exact ⟨congrArg (· :: ms) (Prod.ext h.1 hvalue), hts⟩
termination_by structural ms

theorem tokensOfItems_append_inj
    (xs ys : List Json)
    {ts ts' : List Token}
    (h : tokensOfItems xs ++ ts = tokensOfItems ys ++ ts') :
    xs = ys ∧ ts = ts' := by
  cases xs with
  | nil =>
      cases ys with
      | nil => exact ⟨rfl, List.append_cancel_left h⟩
      | cons y ys => cases h
  | cons x xs =>
      cases ys with
      | nil => cases h
      | cons y ys =>
          simp only [tokensOfItems, List.cons_append, List.append_assoc, List.cons.injEq,
            true_and] at h
          obtain ⟨rfl, hrest⟩ := tokens_append_inj x y h
          obtain ⟨rfl, hts⟩ := tokensOfItems_append_inj xs ys hrest
          exact ⟨rfl, hts⟩
termination_by structural xs

theorem tokensOfMembers_append_inj
    (ms ns : List (String × Json))
    {ts ts' : List Token}
    (h : tokensOfMembers ms ++ ts = tokensOfMembers ns ++ ts') :
    ms = ns ∧ ts = ts' := by
  cases ms with
  | nil =>
      cases ns with
      | nil => exact ⟨rfl, List.append_cancel_left h⟩
      | cons n ns => cases h
  | cons m ms =>
      cases ns with
      | nil => cases h
      | cons n ns =>
          simp only [tokensOfMembers, List.cons_append, List.append_assoc, List.cons.injEq,
            Token.text.injEq, true_and] at h
          obtain ⟨hvalue, hrest⟩ := tokens_append_inj m.2 n.2 h.2
          obtain ⟨rfl, hts⟩ := tokensOfMembers_append_inj ms ns hrest
          exact ⟨congrArg (· :: ms) (Prod.ext h.1 hvalue), hts⟩
termination_by structural ms

end

/-- Values with the same tokens are equal. -/
theorem tokens_inj
    {j j' : Json}
    (h : j.tokens = j'.tokens) :
    j = j' := by
  have happend : j.tokens ++ [] = j'.tokens ++ [] := by
    rw [h]
  exact (tokens_append_inj j j' happend).1

end Injectivity

section Writing

mutual

/-- No part of a value is a floating-point number. -/
def WithoutFloats : Json → Prop
  | number (.float _) => False
  | array items => WithoutFloatsItems items
  | object members => WithoutFloatsMembers members
  | _ => True

/-- No part of an item is a floating-point number. -/
def WithoutFloatsItems : List Json → Prop
  | [] => True
  | x :: xs => WithoutFloats x ∧ WithoutFloatsItems xs

/-- No part of a member is a floating-point number. -/
def WithoutFloatsMembers : List (String × Json) → Prop
  | [] => True
  | (_, v) :: ms => WithoutFloats v ∧ WithoutFloatsMembers ms

end

/-- The text of tokens as it is written. -/
def written (ts : List Token) : List Char :=
  ts.flatMap Token.spell

theorem written_append (ts us : List Token) : written (ts ++ us) = written ts ++ written us :=
  List.flatMap_append

theorem toList_compact (j : Json) : j.compact.toList = written j.tokens :=
  String.toList_ofList

theorem endsNumber_tokensOfItems
    (xs : List Json)
    (cs : List Char) :
    EndsNumber (written (tokensOfItems xs) ++ cs) := by
  cases xs with
  | nil =>
      rintro c ⟨⟩
      decide
  | cons x xs =>
      rintro c ⟨⟩
      decide

theorem endsNumber_tokensOfMembers
    (ms : List (String × Json))
    (cs : List Char) :
    EndsNumber (written (tokensOfMembers ms) ++ cs) := by
  cases ms with
  | nil =>
      rintro c ⟨⟩
      decide
  | cons m ms =>
      rintro c ⟨⟩
      decide

theorem SpellsTokens.written_assoc
    {ts us vs : List Token}
    {cs : List Char}
    (h : SpellsTokens (us ++ (vs ++ ts)) (written us ++ (written vs ++ cs))) :
    SpellsTokens (us ++ vs ++ ts) (written (us ++ vs) ++ cs) := by
  rwa [written_append, List.append_assoc, List.append_assoc]

/-- Tokens that are no numbers may be followed by anything. -/
theorem SpellsTokens.prepend
    {ts : List Token}
    {cs : List Char}
    (h : SpellsTokens ts cs)
    (us : List Token)
    (hus : ∀ t ∈ us, ∀ n, t ≠ .number n) :
    SpellsTokens (us ++ ts) (written us ++ cs) := by
  induction us with
  | nil => exact h
  | cons t us ih =>
      have hwritten : written (t :: us) = t.spell ++ written us := List.flatMap_cons
      rw [List.forall_mem_cons] at hus
      rw [hwritten, List.append_assoc]
      exact .token (spells_spell fun x => hus.1 (.float x)) (fun n hn => absurd hn (hus.1 n))
        (ih hus.2)

mutual

/-- A value without floating-point numbers is spelled the way it is written. -/
theorem spells_tokens
    (j : Json)
    (h : j.WithoutFloats)
    {ts : List Token}
    {cs : List Char}
    (hcs : SpellsTokens ts cs)
    (hend : EndsNumber cs) :
    SpellsTokens (j.tokens ++ ts) (written j.tokens ++ cs) := by
  cases j with
  | null => exact hcs.prepend [.null] (by simp)
  | bool b => exact hcs.prepend [.bool b] (by simp)
  | text s => exact hcs.prepend [.text s] (by simp)
  | number n =>
      cases n with
      | integer w =>
          have hwritten : written [.number (.integer w)] = (toString w.val).toList :=
            List.append_nil _
          rw [tokens, hwritten]
          exact .token (.integer w) (fun _ _ => hend) hcs
      | float x => exact h.elim
  | array items =>
      cases items with
      | nil => exact hcs.prepend [.beginArray, .endArray] (by simp)
      | cons x xs =>
          have hx := spells_tokens x h.1 (spells_tokensOfItems xs h.2 hcs)
            (endsNumber_tokensOfItems xs cs)
          exact (hx.written_assoc.prepend [.beginArray] (by simp)).written_assoc
  | object members =>
      cases members with
      | nil => exact hcs.prepend [.beginObject, .endObject] (by simp)
      | cons m ms =>
          have hm := spells_tokens m.2 h.1 (spells_tokensOfMembers ms h.2 hcs)
            (endsNumber_tokensOfMembers ms cs)
          exact (hm.written_assoc.prepend [.beginObject, .text m.1, .colon] (by simp)).written_assoc
termination_by structural j

theorem spells_tokensOfItems
    (xs : List Json)
    (h : WithoutFloatsItems xs)
    {ts : List Token}
    {cs : List Char}
    (hcs : SpellsTokens ts cs) :
    SpellsTokens (tokensOfItems xs ++ ts) (written (tokensOfItems xs) ++ cs) := by
  cases xs with
  | nil => exact hcs.prepend [.endArray] (by simp)
  | cons x xs =>
      have hx := spells_tokens x h.1 (spells_tokensOfItems xs h.2 hcs)
        (endsNumber_tokensOfItems xs cs)
      exact (hx.written_assoc.prepend [.comma] (by simp)).written_assoc
termination_by structural xs

theorem spells_tokensOfMembers
    (ms : List (String × Json))
    (h : WithoutFloatsMembers ms)
    {ts : List Token}
    {cs : List Char}
    (hcs : SpellsTokens ts cs) :
    SpellsTokens (tokensOfMembers ms ++ ts) (written (tokensOfMembers ms) ++ cs) := by
  cases ms with
  | nil => exact hcs.prepend [.endObject] (by simp)
  | cons m ms =>
      have hm := spells_tokens m.2 h.1 (spells_tokensOfMembers ms h.2 hcs)
        (endsNumber_tokensOfMembers ms cs)
      exact (hm.written_assoc.prepend [.comma, .text m.1, .colon] (by simp)).written_assoc
termination_by structural ms

end

/-- The compact text of a value without floating-point numbers spells the value. -/
theorem spells_compact
    {j : Json}
    (h : j.WithoutFloats) :
    SpellsTokens j.tokens j.compact.toList := by
  have hspells := spells_tokens j h .nil fun _ hc => nomatch hc
  rwa [List.append_nil, List.append_nil, ← toList_compact] at hspells

/-- Values without floating-point numbers are equal when they are written alike. -/
theorem compact_inj
    {j j' : Json}
    (h : j.WithoutFloats)
    (h' : j'.WithoutFloats)
    (hcompact : j.compact = j'.compact) :
    j = j' := by
  have htokens := tokens?_spelled (spells_compact h)
  rw [hcompact, tokens?_spelled (spells_compact h')] at htokens
  exact tokens_inj (Option.some.inj htokens).symm

end Writing

end Json
end ChannelHeaders
