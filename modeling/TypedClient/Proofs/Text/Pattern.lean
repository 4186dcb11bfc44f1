import TypedClient.Text.Pattern

/-
  This file says which texts a pattern matches, and shows that
  matching by derivatives finds exactly those.

  Key definitions include:
    * `Text.Pattern.Matches`

  Key theorems include:
    * `Text.Pattern.matches_derivative_iff`
    * `Text.Pattern.accepts_iff`
-/

namespace TypedClient

namespace Text

namespace Pattern

/- The texts that a pattern matches. -/
inductive Matches : Pattern → List Char → Prop
  | empty : Matches empty []
  | one {p : Char → Bool} {c : Char} (h : p c = true) :
      Matches (one p) [c]
  | seq {a b : Pattern} {xs ys : List Char}
      (hFirst : Matches a xs) (hNext : Matches b ys) :
      Matches (seq a b) (xs ++ ys)
  | left {a b : Pattern} {xs : List Char}
      (h : Matches a xs) : Matches (alt a b) xs
  | right {a b : Pattern} {xs : List Char}
      (h : Matches b xs) : Matches (alt a b) xs
  | nil {a : Pattern} : Matches (star a) []
  | more {a : Pattern} {xs ys : List Char}
      (hFirst : Matches a xs) (hNext : Matches (star a) ys) :
      Matches (star a) (xs ++ ys)

variable {a b : Pattern}
variable {c : Char}
variable {cs : List Char}

------------------------------------------------------------
-- Matching by derivatives
------------------------------------------------------------

theorem not_matches_never : ¬ never.Matches cs := by
  intro h
  cases h

theorem matches_seq_iff :
    (seq a b).Matches cs ↔
      ∃ xs ys, cs = xs ++ ys ∧ a.Matches xs ∧ b.Matches ys := by
  constructor
  · intro h
    cases h with
    | seq hFirst hNext => exact ⟨_, _, rfl, hFirst, hNext⟩
  · rintro ⟨xs, ys, rfl, hFirst, hNext⟩
    exact .seq hFirst hNext

/- A choice matches what one of the two patterns matches. -/
theorem matches_alt_iff :
    (alt a b).Matches cs ↔ a.Matches cs ∨ b.Matches cs := by
  constructor
  · intro h
    cases h with
    | left hA => exact Or.inl hA
    | right hB => exact Or.inr hB
  · rintro (hA | hB)
    · exact .left hA
    · exact .right hB

/- A nullable pattern is one that matches the empty text. -/
theorem nullable_iff (a : Pattern) :
    a.nullable = true ↔ a.Matches [] := by
  induction a with
  | never => exact ⟨fun h => (nomatch h), fun h => (nomatch h)⟩
  | empty => exact ⟨fun _ => .empty, fun _ => rfl⟩
  | one p => exact ⟨fun h => (nomatch h), fun h => (nomatch h)⟩
  | seq a b ihA ihB =>
      rw [nullable, Bool.and_eq_true, ihA, ihB, matches_seq_iff]
      constructor
      · rintro ⟨hA, hB⟩
        exact ⟨[], [], rfl, hA, hB⟩
      · rintro ⟨xs, ys, hNil, hA, hB⟩
        rcases List.nil_eq_append_iff.1 hNil with ⟨rfl, rfl⟩
        exact ⟨hA, hB⟩
  | alt a b ihA ihB =>
      rw [nullable, Bool.or_eq_true, ihA, ihB, matches_alt_iff]
  | star a ih => exact ⟨fun _ => .nil, fun _ => rfl⟩

/- Sequences match the same without patterns that do nothing. -/
theorem matches_joinSeq_iff :
    (joinSeq a b).Matches cs ↔ (seq a b).Matches cs := by
  unfold joinSeq
  split
  next =>
    refine iff_of_false not_matches_never fun h => ?_
    rcases matches_seq_iff.1 h with ⟨_, _, -, hFirst, -⟩
    exact not_matches_never hFirst
  next =>
    constructor
    · intro h
      exact .seq .empty h
    · intro h
      cases h with
      | seq hFirst hNext =>
          cases hFirst
          exact hNext
  next => exact Iff.rfl

theorem matches_joinAlt_iff :
    (joinAlt a b).Matches cs ↔ (alt a b).Matches cs := by
  unfold joinAlt
  split
  next => rw [matches_alt_iff, or_iff_right not_matches_never]
  next => rw [matches_alt_iff, or_iff_left not_matches_never]
  next => exact Iff.rfl

/-
  A sequence matches a character and a text if its first pattern
  takes the character, or takes nothing and leaves it to the
  second one.
-/
theorem matches_seq_cons_iff :
    (seq a b).Matches (c :: cs) ↔
      (∃ xs ys, cs = xs ++ ys ∧ a.Matches (c :: xs) ∧
        b.Matches ys) ∨
      (a.Matches [] ∧ b.Matches (c :: cs)) := by
  constructor
  · intro h
    rcases matches_seq_iff.1 h with ⟨xs, ys, hText, hFirst, hNext⟩
    rcases List.cons_eq_append_iff.1 hText with
      ⟨rfl, rfl⟩ | ⟨zs, rfl, rfl⟩
    · exact Or.inr ⟨hFirst, hNext⟩
    · exact Or.inl ⟨zs, ys, rfl, hFirst, hNext⟩
  · rintro (⟨xs, ys, rfl, hFirst, hNext⟩ | ⟨hFirst, hNext⟩)
    · exact .seq hFirst hNext
    · exact .seq hFirst hNext

/- A repetition takes a character with one of its matches. -/
theorem matches_star_cons_iff :
    (star a).Matches (c :: cs) ↔
      ∃ xs ys, cs = xs ++ ys ∧ a.Matches (c :: xs) ∧
        (star a).Matches ys := by
  constructor
  · intro h
    generalize hText : c :: cs = text at h
    generalize hStar : star a = b at h
    -- empty matches in front do not take the character
    induction h with
    | nil => cases hText
    | @more d xs ys hFirst hNext _ ih =>
        cases hStar
        rcases List.cons_eq_append_iff.1 hText with
          ⟨rfl, hYs⟩ | ⟨zs, rfl, rfl⟩
        · exact ih hYs.symm rfl
        · exact ⟨zs, ys, rfl, hFirst, hNext⟩
    | empty => cases hStar
    | one => cases hStar
    | seq => cases hStar
    | left => cases hStar
    | right => cases hStar
  · rintro ⟨xs, ys, rfl, hFirst, hNext⟩
    exact .more hFirst hNext

/-
  What a sequence matches whose first pattern is a derivative, if
  that one matches what it should.
-/
theorem matches_joinSeq_derivative_iff
    (ih : ∀ {cs : List Char},
      (a.derivative c).Matches cs ↔ a.Matches (c :: cs)) :
    (joinSeq (a.derivative c) b).Matches cs ↔
      ∃ xs ys, cs = xs ++ ys ∧ a.Matches (c :: xs) ∧
        b.Matches ys := by
  rw [matches_joinSeq_iff, matches_seq_iff]
  simp only [ih]

/-
  The derivative at a character matches what the pattern matches
  behind that character.
-/
theorem matches_derivative_iff :
    (a.derivative c).Matches cs ↔ a.Matches (c :: cs) := by
  induction a generalizing cs with
  | never => exact iff_of_false not_matches_never not_matches_never
  | empty => exact iff_of_false not_matches_never fun h => nomatch h
  | one p =>
      unfold derivative
      split
      next hP =>
        constructor
        · intro h
          cases h
          exact .one hP
        · intro h
          cases h
          exact .empty
      next hP =>
        refine iff_of_false not_matches_never fun h => ?_
        cases h with
        | one hC => exact hP hC
  | seq a b ihA ihB =>
      rw [matches_seq_cons_iff, derivative]
      split
      next hNull =>
        rw [matches_joinAlt_iff, matches_alt_iff,
          matches_joinSeq_derivative_iff ihA, ihB]
        have hEmpty : a.Matches [] := (nullable_iff a).1 hNull
        exact or_congr_right ⟨fun h => ⟨hEmpty, h⟩, And.right⟩
      next hNull =>
        rw [matches_joinSeq_derivative_iff ihA]
        have hEmpty : ¬ a.Matches [] := fun h =>
          hNull ((nullable_iff a).2 h)
        exact ⟨Or.inl, fun h => h.resolve_right fun hBoth =>
          hEmpty hBoth.1⟩
  | alt a b ihA ihB =>
      rw [derivative, matches_joinAlt_iff, matches_alt_iff,
        matches_alt_iff, ihA, ihB]
  | star a ih =>
      rw [derivative, matches_joinSeq_derivative_iff ih,
        matches_star_cons_iff]

/- Exactly the texts that a pattern matches are accepted. -/
theorem accepts_iff (a : Pattern) (cs : List Char) :
    a.accepts cs = true ↔ a.Matches cs := by
  induction cs generalizing a with
  | nil => exact nullable_iff a
  | cons c cs ih => exact (ih _).trans matches_derivative_iff

------------------------------------------------------------
-- Patterns in a row
------------------------------------------------------------

theorem matches_char (c : Char) : (char c).Matches [c] :=
  .one (beq_self_eq_true c)

/- A character that is in the row is in all that it matches. -/
theorem mem_of_matches_all
    {as : List Pattern}
    (hMem : char c ∈ as)
    (h : (all as).Matches cs) : c ∈ cs := by
  induction as generalizing cs with
  | nil => cases hMem
  | cons a as ih =>
      cases as with
      | nil =>
          cases List.mem_singleton.1 hMem
          cases h with
          | one hC => exact List.mem_singleton.2 (eq_of_beq hC).symm
      | cons b as =>
          cases h with
          | seq hFirst hNext =>
              rcases List.mem_cons.1 hMem with rfl | hMem
              · cases hFirst with
                | one hC =>
                    cases eq_of_beq hC
                    exact List.mem_append_left _
                      (List.mem_singleton.2 rfl)
              · exact List.mem_append_right _ (ih hMem hNext)

/- One of several patterns matches what one of them matches. -/
theorem matches_any_iff (as : List Pattern) (cs : List Char) :
    (any as).Matches cs ↔ ∃ a ∈ as, a.Matches cs := by
  induction as with
  | nil => exact iff_of_false not_matches_never (by simp)
  | cons a as ih =>
      cases as with
      | nil => simp [any]
      | cons b as =>
          change (alt a (any (b :: as))).Matches cs ↔ _
          rw [matches_alt_iff, ih]
          simp

/- Characters in a row match themselves only. -/
theorem eq_of_matches_chars
    {ds : List Char}
    (h : (all (ds.map char)).Matches cs) : cs = ds := by
  induction ds generalizing cs with
  | nil =>
      cases h
      rfl
  | cons d ds ih =>
      cases ds with
      | nil =>
          cases h with
          | one hC => rw [eq_of_beq hC]
      | cons e ds =>
          cases h with
          | seq hFirst hNext =>
              cases hFirst with
              | one hC =>
                  rw [eq_of_beq hC, ih hNext]
                  rfl

theorem eq_of_matches_word
    {w : String}
    (h : (word w).Matches cs) : cs = w.toList :=
  eq_of_matches_chars h

theorem matches_star_of_forall
    {p : Char → Bool}
    (h : ∀ c ∈ cs, p c = true) : (star (one p)).Matches cs := by
  induction cs with
  | nil => exact .nil
  | cons c cs ih =>
      have hMore := Matches.more (.one (h c List.mem_cons_self))
        (ih fun d hD => h d (List.mem_cons_of_mem c hD))
      exact hMore

end Pattern

end Text

end TypedClient
