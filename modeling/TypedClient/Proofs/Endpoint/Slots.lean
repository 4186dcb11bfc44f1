import TypedClient.Endpoint.Path

/-
  This file says where the slots of a path are, without the
  reader that looks for them: a slot is a name in braces or a
  group, the first slot of a text is the shortest one that starts
  further left than any other, and the next one is the first of
  what is left.  The reader finds exactly these.

  Key definitions include:
    * `Path.IsSlot`
    * `Path.FirstSlot`
    * `Path.Divided`

  Key theorems include:
    * `Path.isPlain_of_isVariable`
    * `Path.exists_divided`
    * `Path.Divided.unique`
    * `Path.pieces_of_divided`
-/

namespace TypedClient

namespace Path

------------------------------------------------------------
-- Slots
------------------------------------------------------------

/-
  Text that may be filled in: a name of word characters in
  braces, or a group of anything on one line in parentheses.
-/
inductive IsSlot : RawText → Prop where
  | placeholder {name : RawText}
      (hNonempty : name ≠ [])
      (hWord : ∀ c ∈ name, isNamePoint c = true) :
      IsSlot (.scalar '{' :: (name ++ [.scalar '}']))
  | group {inside : RawText}
      (hLine : ∀ c ∈ inside, c ≠ .scalar '\n') :
      IsSlot (.scalar '(' :: (inside ++ [.scalar ')']))

/- Whether no part of a text is a slot. -/
def IsPlain (cs : RawText) : Prop :=
  ∀ before slot after, cs = before ++ (slot ++ after) →
    ¬ IsSlot slot

/-
  The first slot of a text.  No slot starts further left, and no
  slot that starts at the same place is shorter.
-/
structure FirstSlot
    (cs before slot after : RawText) : Prop where
  text : cs = before ++ (slot ++ after)
  isSlot : IsSlot slot
  leftmost : ∀ b s a, cs = b ++ (s ++ a) → IsSlot s →
    before.length ≤ b.length
  shortest : ∀ s a, cs = before ++ (s ++ a) → IsSlot s →
    slot.length ≤ s.length

/-
  A text divided at its slots, each with the text in front of it,
  and the text behind the last slot.
-/
inductive Divided :
    RawText → List (RawText × RawText) → RawText → Prop
  where
  | last {cs : RawText} (h : IsPlain cs) : Divided cs [] cs
  | slot {cs before slot after last : RawText}
      {parts : List (RawText × RawText)}
      (hFirst : FirstSlot cs before slot after)
      (hAfter : Divided after parts last) :
      Divided cs ((before, slot) :: parts) last

theorem IsSlot.ne_nil {cs : RawText} (h : IsSlot cs) : cs ≠ [] := by
  cases h with
  | placeholder => exact List.cons_ne_nil _ _
  | group => exact List.cons_ne_nil _ _

/- A text has one first slot at most. -/
theorem FirstSlot.unique
    {cs b s a b' s' a' : RawText}
    (h : FirstSlot cs b s a)
    (h' : FirstSlot cs b' s' a') : b = b' ∧ s = s' ∧ a = a' := by
  have hText := h.text.symm.trans h'.text
  have hLength : b.length = b'.length :=
    Nat.le_antisymm (h.leftmost _ _ _ h'.text h'.isSlot)
      (h'.leftmost _ _ _ h.text h.isSlot)
  rcases List.append_inj hText hLength with ⟨rfl, hRest⟩
  have hSlot : s.length = s'.length :=
    Nat.le_antisymm (h.shortest _ _ h'.text h'.isSlot)
      (h'.shortest _ _ h.text h.isSlot)
  rcases List.append_inj hRest hSlot with ⟨rfl, rfl⟩
  exact ⟨rfl, rfl, rfl⟩

/- A text is divided in one way only. -/
theorem Divided.unique
    {cs last last' : RawText}
    {parts parts' : List (RawText × RawText)}
    (h : Divided cs parts last)
    (h' : Divided cs parts' last') :
    parts = parts' ∧ last = last' := by
  induction h generalizing parts' with
  | last hPlain =>
      cases h' with
      | last => exact ⟨rfl, rfl⟩
      | slot hFirst =>
          exact (hPlain _ _ _ hFirst.text hFirst.isSlot).elim
  | slot hFirst _ ih =>
      cases h' with
      | last hPlain =>
          exact (hPlain _ _ _ hFirst.text hFirst.isSlot).elim
      | slot hFirst' hAfter' =>
          rcases hFirst.unique hFirst' with ⟨rfl, rfl, rfl⟩
          rcases ih hAfter' with ⟨rfl, rfl⟩
          exact ⟨rfl, rfl⟩

/- The parts of a divided text make up the text. -/
theorem Divided.text
    {cs last : RawText}
    {parts : List (RawText × RawText)}
    (h : Divided cs parts last) :
    cs = parts.flatMap (fun p => p.1 ++ p.2) ++ last := by
  induction h with
  | last => rfl
  | slot hFirst _ ih =>
      rw [hFirst.text, List.flatMap_cons]
      simp only [List.append_assoc, ← ih]

theorem Divided.isSlot
    {cs last : RawText}
    {parts : List (RawText × RawText)}
    (h : Divided cs parts last) : ∀ p ∈ parts, IsSlot p.2 := by
  induction h with
  | last => exact fun p hp => by cases hp
  | slot hFirst _ ih =>
      exact List.forall_mem_cons.2 ⟨hFirst.isSlot, ih⟩

------------------------------------------------------------
-- Where a slot starts
------------------------------------------------------------

/- The length of a group is that of the text up to its end. -/
theorem groupLength?_eq_some_iff
    {cs : RawText}
    {n : Nat} :
    groupLength? cs = some n ↔
      ∃ inside after, cs = inside ++ .scalar ')' :: after ∧
        (∀ c ∈ inside, c ≠ .scalar ')' ∧ c ≠ .scalar '\n') ∧
          n = inside.length + 1 := by
  induction cs generalizing n with
  | nil => simp [groupLength?]
  | cons c cs ih =>
      constructor
      · intro h
        rw [groupLength?] at h
        split at h
        next hEnd =>
          cases h
          exact ⟨[], cs, by rw [hEnd]; rfl, by simp, rfl⟩
        next hEnd =>
          split at h
          next => cases h
          next hLine =>
            rcases Option.map_eq_some_iff.1 h with ⟨m, hM, rfl⟩
            rcases ih.1 hM with ⟨inside, after, rfl, hAll, rfl⟩
            refine ⟨c :: inside, after, rfl, ?_, rfl⟩
            intro d hD
            rcases List.mem_cons.1 hD with rfl | hD
            · exact ⟨hEnd, hLine⟩
            · exact hAll d hD
      · rintro ⟨inside, after, hText, hAll, rfl⟩
        cases inside with
        | nil =>
            cases hText
            rfl
        | cons d inside =>
            cases hText
            have hC := hAll c List.mem_cons_self
            have hRest := ih.2 ⟨inside, after, rfl,
              fun d hD => hAll d (List.mem_cons_of_mem c hD), rfl⟩
            rw [groupLength?, if_neg hC.1, if_neg hC.2, hRest]
            rfl

/- A group is found if it ends on the line it starts on. -/
theorem groupLength?_isSome
    {inside : RawText}
    (h : ∀ c ∈ inside, c ≠ .scalar '\n')
    (after : RawText) :
    ∃ n, groupLength? (inside ++ .scalar ')' :: after) = some n ∧
      n ≤ inside.length + 1 := by
  induction inside with
  | nil => exact ⟨1, rfl, Nat.le_refl 1⟩
  | cons c inside ih =>
      by_cases hEnd : c = ')'
      · refine ⟨1, ?_, Nat.le_add_left 1 _⟩
        rw [List.cons_append, groupLength?, if_pos hEnd]
      · rcases ih fun d hD => h d (List.mem_cons_of_mem c hD) with
          ⟨n, hN, hLe⟩
        refine ⟨n + 1, ?_, Nat.succ_le_succ hLe⟩
        rw [List.cons_append, groupLength?, if_neg hEnd,
          if_neg (h c List.mem_cons_self), hN]
        rfl

theorem isNamePoint_closing :
    isNamePoint (.scalar '}') = false := by
  decide

theorem takeWhile_name
    {name : RawText}
    (h : ∀ c ∈ name, isNamePoint c = true)
    (after : RawText) :
    (name ++ .scalar '}' :: after).takeWhile isNamePoint = name := by
  rw [List.takeWhile_append_of_pos h,
    List.takeWhile_cons_of_neg (by simp [isNamePoint_closing]),
    List.append_nil]

theorem exists_takeWhile (cs : RawText) :
    ∃ name rest, cs = name ++ rest ∧
      (name ++ rest).takeWhile isNamePoint = name ∧
        ∀ c ∈ name, isNamePoint c = true := by
  refine ⟨cs.takeWhile isNamePoint, cs.dropWhile isNamePoint,
    List.takeWhile_append_dropWhile.symm, ?_,
    List.all_eq_true.1 List.all_takeWhile⟩
  rw [List.takeWhile_append_dropWhile]

/- The length of a placeholder is that of its name and its end. -/
theorem placeholderLength?_eq_some_iff
    {cs : RawText}
    {n : Nat} :
    placeholderLength? cs = some n ↔
      ∃ name after, cs = name ++ .scalar '}' :: after ∧
        name ≠ [] ∧ (∀ c ∈ name, isNamePoint c = true) ∧
          n = name.length + 1 := by
  constructor
  · intro h
    rcases exists_takeWhile cs with ⟨name, rest, rfl, hName, hWord⟩
    unfold placeholderLength? at h
    dsimp only at h
    rw [hName, List.drop_left] at h
    split at h
    next => cases h
    next hNonempty =>
      split at h
      next hEnd =>
        cases h
        cases rest with
        | nil => cases hEnd
        | cons c after =>
            cases hEnd
            exact ⟨name, after, rfl, by simpa using hNonempty,
              hWord, rfl⟩
      next => cases h
  · rintro ⟨name, after, rfl, hNonempty, hWord, rfl⟩
    unfold placeholderLength?
    dsimp only
    rw [takeWhile_name hWord, if_neg (by simpa using hNonempty),
      List.drop_left]
    rfl

/- A placeholder ends at its first closing brace. -/
theorem placeholder_unique
    {name name' after after' : RawText}
    (hWord : ∀ c ∈ name, isNamePoint c = true)
    (hWord' : ∀ c ∈ name', isNamePoint c = true)
    (h : name ++ .scalar '}' :: after =
      name' ++ .scalar '}' :: after') :
    name = name' := by
  rw [← takeWhile_name hWord after, h, takeWhile_name hWord']

/- What the length of a slot says about the text behind it. -/
theorem exists_slot
    {c : CodePoint}
    {cs : RawText}
    {n : Nat}
    (h : slotLength? c cs = some n) :
    ∃ slot after, c :: cs = slot ++ after ∧
      slot.length = n + 1 ∧ FirstSlot (c :: cs) [] slot after := by
  unfold slotLength? at h
  split at h
  next hBrace =>
    rcases placeholderLength?_eq_some_iff.1 h with
      ⟨name, after, rfl, hNonempty, hWord, rfl⟩
    have hText : c :: (name ++ .scalar '}' :: after) =
        .scalar '{' :: (name ++ [.scalar '}']) ++ after := by
      simp [hBrace]
    refine ⟨_, after, hText, by simp, hText,
      .placeholder hNonempty hWord,
      fun _ _ _ _ _ => Nat.zero_le _, ?_⟩
    intro s a hOther hSlot
    rw [hBrace] at hOther
    cases hSlot with
    | @placeholder name' _ hWord' =>
        have hTail : name ++ .scalar '}' :: after =
            name' ++ .scalar '}' :: a := by
          simpa using hOther
        rcases placeholder_unique hWord hWord' hTail with rfl
        exact Nat.le_refl _
    | group => cases hOther
  next hBrace =>
    split at h
    next hGroup =>
      rcases groupLength?_eq_some_iff.1 h with
        ⟨inside, after, rfl, hAll, rfl⟩
      have hText : c :: (inside ++ .scalar ')' :: after) =
          .scalar '(' :: (inside ++ [.scalar ')']) ++ after := by
        simp [hGroup]
      refine ⟨_, after, hText, by simp, hText,
        .group fun d hD => (hAll d hD).2,
        fun _ _ _ _ _ => Nat.zero_le _, ?_⟩
      intro s a hOther hSlot
      rw [hGroup] at hOther
      cases hSlot with
      | placeholder => cases hOther
      | @group inside' hLine =>
          have hTail : inside ++ .scalar ')' :: after =
              inside' ++ .scalar ')' :: a := by
            simpa using hOther
          rcases groupLength?_isSome hLine a with ⟨n, hN, hLe⟩
          rw [← hTail, h] at hN
          cases hN
          simpa using hLe
    next => cases h

/- Where no length is found, no slot starts. -/
theorem not_isSlot_of_slotLength?
    {c : CodePoint}
    {cs : RawText}
    (h : slotLength? c cs = none)
    {slot after : RawText}
    (hText : c :: cs = slot ++ after) : ¬ IsSlot slot := by
  intro hSlot
  cases hSlot with
  | @placeholder name hNonempty hWord =>
      have hCs : c = '{' ∧ cs = name ++ .scalar '}' :: after := by
        simpa using hText
      rcases hCs with ⟨rfl, rfl⟩
      have hSome := placeholderLength?_eq_some_iff.2
        ⟨name, after, rfl, hNonempty, hWord, rfl⟩
      exact absurd (h.symm.trans hSome) (by simp)
  | @group inside hLine =>
      have hCs : c = '(' ∧ cs = inside ++ .scalar ')' :: after := by
        simpa using hText
      rcases hCs with ⟨rfl, rfl⟩
      rcases groupLength?_isSome hLine after with ⟨n, hN, -⟩
      exact absurd (h.symm.trans hN) (by simp)

------------------------------------------------------------
-- The reader finds the slots
------------------------------------------------------------

/- The pieces of a divided text. -/
def piecesOf (last : RawText) :
    List (RawText × RawText) → List Piece
  | [] => [.text last]
  | p :: ps => .text p.1 :: .slot p.2 :: piecesOf last ps

/- The rest of an open slot is read to its end. -/
theorem piecesFrom_open
    (read slot after : RawText) :
    piecesFrom read (some slot.length) (slot ++ after) =
      .slot (read.reverse ++ slot) :: piecesFrom [] none after := by
  induction slot generalizing read with
  | nil =>
      rw [List.append_nil]
      cases after with
      | nil => rfl
      | cons c cs =>
          rw [List.nil_append, List.length_nil, piecesFrom,
            piecesFrom]
          cases slotLength? c cs with
          | none => rfl
          | some n => rfl
  | cons c slot ih =>
      rw [List.cons_append, List.length_cons, piecesFrom, ih]
      simp

/- A text in front of another one keeps its first slot. -/
theorem FirstSlot.cons
    {c : CodePoint}
    {cs b s a : RawText}
    (h : slotLength? c cs = none)
    (hFirst : FirstSlot cs b s a) :
    FirstSlot (c :: cs) (c :: b) s a := by
  refine ⟨by rw [hFirst.text]; rfl, hFirst.isSlot, ?_, ?_⟩
  · intro b' s' a' hText hSlot
    cases b' with
    | nil =>
        rw [List.nil_append] at hText
        exact (not_isSlot_of_slotLength? h hText hSlot).elim
    | cons d b' =>
        have hTail := (List.cons.inj hText).2
        exact Nat.succ_le_succ
          (hFirst.leftmost b' s' a' hTail hSlot)
  · intro s' a' hText hSlot
    exact hFirst.shortest s' a' (List.cons.inj hText).2 hSlot

theorem isPlain_nil : IsPlain [] := by
  intro before slot after hText hSlot
  have hBehind := (List.append_eq_nil_iff.1 hText.symm).2
  exact hSlot.ne_nil (List.append_eq_nil_iff.1 hBehind).1

/- A text in front of a plain one is plain. -/
theorem IsPlain.cons
    {c : CodePoint}
    {cs : RawText}
    (h : slotLength? c cs = none)
    (hPlain : IsPlain cs) : IsPlain (c :: cs) := by
  intro b s a hText hSlot
  cases b with
  | nil =>
      rw [List.nil_append] at hText
      exact not_isSlot_of_slotLength? h hText hSlot
  | cons d b => exact hPlain b s a (List.cons.inj hText).2 hSlot

/-
  No part of a path is a slot if the path has no opening brace and
  no group.  The induction is on the path: a slot that starts with
  its first character is a placeholder or a group there.
-/
theorem isPlain_of_isVariable
    {path : RawText}
    (h : isVariable path = false) : IsPlain path := by
  induction path with
  | nil => exact isPlain_nil
  | cons c cs ih =>
      rcases Bool.or_eq_false_iff.1 h with ⟨hBrace, hGroup⟩
      have hNoBrace : .scalar '{' ∉ c :: cs :=
        of_decide_eq_false hBrace
      rcases Bool.or_eq_false_iff.1 hGroup with ⟨hFirst, hRest⟩
      have hc : c ≠ '{' := fun hEq =>
        hNoBrace (hEq ▸ List.mem_cons_self)
      have hLength : slotLength? c cs = none := by
        rw [slotLength?, if_neg hc]
        split
        next hOpen => simpa [hOpen] using hFirst
        next => rfl
      refine (ih ?_).cons hLength
      rw [isVariable, hRest, Bool.or_false]
      exact decide_eq_false fun hMem =>
        hNoBrace (List.mem_cons_of_mem c hMem)

/- The reader goes on to the first slot, or to the end. -/
theorem piecesFrom_first (read cs : RawText) :
    (IsPlain cs ∧
      piecesFrom read none cs = [.text (read.reverse ++ cs)]) ∨
    ∃ b s a, FirstSlot cs b s a ∧
      piecesFrom read none cs =
        .text (read.reverse ++ b) :: .slot s ::
          piecesFrom [] none a := by
  induction cs generalizing read with
  | nil =>
      left
      exact ⟨isPlain_nil, by rw [List.append_nil]; rfl⟩
  | cons c cs ih =>
      cases hLength : slotLength? c cs with
      | some n =>
          right
          rcases exists_slot hLength with
            ⟨slot, after, hText, hN, hFirst⟩
          cases slot with
          | nil => cases hN
          | cons d slot =>
              rw [List.cons_append] at hText
              rcases List.cons.inj hText with ⟨rfl, rfl⟩
              have hOpen := piecesFrom_open [c] slot after
              rw [Nat.succ.inj hN] at hOpen
              refine ⟨[], c :: slot, after, hFirst, ?_⟩
              rw [piecesFrom, hLength, List.append_nil]
              dsimp only
              rw [hOpen]
              rfl
      | none =>
          have hStep : piecesFrom read none (c :: cs) =
              piecesFrom (c :: read) none cs := by
            rw [piecesFrom, hLength]
          rw [hStep]
          rcases ih (c :: read) with ⟨hPlain, hRead⟩ |
            ⟨b, s, a, hFirst, hRead⟩
          · left
            exact ⟨hPlain.cons hLength, by rw [hRead]; simp⟩
          · right
            exact ⟨c :: b, s, a, hFirst.cons hLength,
              by rw [hRead]; simp⟩

/-
  Every text is divided, and its pieces are read accordingly.  The
  induction is on the length of the text, which a slot shortens.
-/
theorem exists_divided (cs : RawText) :
    ∃ parts last, Divided cs parts last ∧
      pieces cs = piecesOf last parts := by
  rcases piecesFrom_first [] cs with ⟨hPlain, hRead⟩ |
    ⟨b, s, a, hFirst, hRead⟩
  · exact ⟨[], cs, .last hPlain, hRead⟩
  · have hShorter : a.length < cs.length := by
      have hS := List.length_pos_iff.2 hFirst.isSlot.ne_nil
      rw [hFirst.text, List.length_append, List.length_append]
      omega
    rcases exists_divided a with ⟨parts, last, hAfter, hPieces⟩
    refine ⟨(b, s) :: parts, last, .slot hFirst hAfter, ?_⟩
    rw [pieces, hRead, piecesOf, ← hPieces]
    rfl
termination_by cs.length

/- The pieces of a divided text are its parts. -/
theorem pieces_of_divided
    {cs last : RawText}
    {parts : List (RawText × RawText)}
    (h : Divided cs parts last) :
    pieces cs = piecesOf last parts := by
  rcases exists_divided cs with ⟨parts', last', h', hPieces⟩
  rcases h.unique h' with ⟨rfl, rfl⟩
  exact hPieces

end Path

end TypedClient
