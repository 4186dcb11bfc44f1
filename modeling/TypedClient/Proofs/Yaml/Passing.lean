import TypedClient.Proofs.Yaml.Ahead

/-
  This file keeps account of the characters that a cursor passes:
  where it is behind them, and that it stays on its line if no
  line breaks among them.

  Key definitions include:
    * `Yaml.Cursor.Passes`
    * `Yaml.Cursor.IsSound`

  Key theorems include:
    * `Yaml.Cursor.passes_advance`
    * `Yaml.Cursor.passes_span`
-/

namespace TypedClient

namespace Yaml

namespace Cursor

/- Whether the index of a cursor fits the text that is left. -/
def IsSound (c : Cursor) : Prop :=
  c.length = c.index + c.rest.length

/-
  The way from a cursor to another one over some characters.  The
  line stays the same if none of them breaks it.
-/
structure Passes (c : Cursor) (cs : List Char) (d : Cursor) : Prop
  where
  rest : c.rest = cs ++ d.rest
  length : d.length = c.length
  index : d.index = c.index + cs.length
  line : (∀ ch ∈ cs, isBreak ch = false) → d.line = c.line

variable {c d e : Cursor}

theorem isSound_start (text : List Char) : (start text).IsSound :=
  (Nat.zero_add _).symm

theorem IsSound.passes
    {cs : List Char}
    (h : c.IsSound)
    (hPasses : c.Passes cs d) : d.IsSound := by
  unfold IsSound at h ⊢
  rw [hPasses.length, hPasses.index, h, hPasses.rest,
    List.length_append, Nat.add_assoc]

/- As many characters are left as the text has. -/
theorem IsSound.left (h : c.IsSound) : c.left = c.rest.length := by
  unfold IsSound at h
  unfold Cursor.left
  omega

theorem Passes.refl (c : Cursor) : c.Passes [] c :=
  ⟨rfl, rfl, rfl, fun _ => rfl⟩

/- Ways add up. -/
theorem Passes.trans
    {cs ds : List Char}
    (h : c.Passes cs d)
    (hNext : d.Passes ds e) : c.Passes (cs ++ ds) e where
  rest := by rw [h.rest, hNext.rest, List.append_assoc]
  length := by rw [hNext.length, h.length]
  index := by
    rw [hNext.index, h.index, List.length_append, Nat.add_assoc]
  line hLine := by
    rw [hNext.line fun ch hCh => hLine ch (List.mem_append_right _ hCh),
      h.line fun ch hCh => hLine ch (List.mem_append_left _ hCh)]

theorem Passes.rest_of_append
    {cs r : List Char}
    (h : c.Passes cs d)
    (hRest : c.rest = cs ++ r) : d.rest = r :=
  List.append_cancel_left (h.rest.symm.trans hRest)

/- The next character is passed. -/
theorem passes_next
    {ch : Char}
    {r : List Char}
    (h : c.rest = ch :: r) : c.Passes [ch] c.next := by
  have hRest : c.next.rest = r := by rw [rest_next, h]; rfl
  refine ⟨by rw [h, hRest]; rfl, ?_, ?_, fun hLine => ?_⟩
  · unfold next
    rw [h]
    dsimp only
    split
    · rfl
    · split
      · rfl
      · rfl
  · unfold next
    rw [h]
    dsimp only
    split
    · rfl
    · split
      · rfl
      · rfl
  · have hCh : isBreak ch = false := hLine ch List.mem_cons_self
    unfold next
    rw [h]
    dsimp only
    rw [hCh, Bool.false_and, if_neg Bool.false_ne_true]
    split
    · rfl
    · rfl

/- Characters are passed one by one. -/
theorem passes_advance
    {cs r : List Char}
    (h : c.rest = cs ++ r) : c.Passes cs (c.advance cs.length) := by
  induction cs generalizing c with
  | nil => exact .refl c
  | cons ch cs ih =>
      have hNext := passes_next h
      have hTail : c.next.rest = cs ++ r :=
        (List.cons.inj (hNext.rest.symm.trans h)).2
      exact hNext.trans (ih hTail)

/- A text is taken up to the first character of another class. -/
theorem passes_span
    {p : Char → Bool}
    {cs r : List Char}
    (h : c.rest = cs ++ r)
    (hAll : ∀ ch ∈ cs, p ch = true)
    (hStop : ∀ ch ∈ r.head?, p ch = false) :
    (c.span p).1 = cs ∧ c.Passes cs (c.span p).2 := by
  have hTake : c.rest.takeWhile p = cs := by
    rw [h, List.takeWhile_append_of_pos hAll]
    cases r with
    | nil => exact List.append_nil cs
    | cons ch r =>
        rw [List.takeWhile_cons_of_neg
          (by simp [hStop ch rfl]), List.append_nil]
  unfold span
  dsimp only
  rw [hTake]
  exact ⟨rfl, passes_advance h⟩

theorem head_of_rest
    {ch : Char}
    {r : List Char}
    (h : c.rest = ch :: r) : c.head = ch := by
  rw [head, h]
  rfl

theorem peek_of_rest
    {ch : Char}
    {r : List Char}
    (h : c.rest = ch :: r) : c.peek 1 = r.headD endMark := by
  rw [peek, h]
  cases r with
  | nil => rfl
  | cons d r => rfl

theorem atEnd_of_rest
    {ch : Char}
    {r : List Char}
    (h : c.rest = ch :: r) : c.atEnd = false := by
  rw [atEnd, h]
  rfl

end Cursor

end Yaml

end TypedClient
