import TypedClient.Emit.Text
import TypedClient.Proofs.Name.Form
import TypedClient.Proofs.Text.Raw

/-
  This file reads the lines of an emitted unit back from its
  text, and from the lines the names of the classes that the unit
  defines.

  Key definitions include:
    * `Emit.OneLine`
    * `Emit.linesOf`
    * `Emit.className?`
    * `Emit.classNames`

  Key theorems include:
    * `Emit.linesOf_unitText`
    * `Emit.linesOf_unitText_append`
    * `Emit.className?_class`
-/

namespace TypedClient

namespace Emit

------------------------------------------------------------
-- Lines
------------------------------------------------------------

/- Text without a line feed. -/
def OneLine (line : RawText) : Prop :=
  .scalar '\n' ∉ line

instance (line : RawText) : Decidable (OneLine line) := by
  unfold OneLine
  infer_instance

/- The lines of a unit, the empty one at its end included. -/
def linesOf (unit : RawText) : List RawText :=
  unit.splitOn (.scalar '\n')

theorem oneLine_ofString
    {s : String} : OneLine (.ofString s) ↔ '\n' ∉ s.toList := by
  rw [OneLine, RawText.scalar_mem_ofString]

theorem plain_append (front behind : List String) :
    plain (front ++ behind) = plain front ++ plain behind :=
  List.map_append

theorem plain_cons (line : String) (lines : List String) :
    plain (line :: lines) = RawText.ofString line :: plain lines :=
  rfl

theorem mem_plain
    {s : String}
    {lines : List String} :
    RawText.ofString s ∈ plain lines ↔ s ∈ lines := by
  constructor
  · intro h
    rcases List.mem_map.1 h with ⟨t, ht, hEq⟩
    exact RawText.ofString_injective hEq ▸ ht
  · exact List.mem_map_of_mem

theorem OneLine.append
    {s t : String}
    (hs : OneLine (.ofString s))
    (ht : OneLine (.ofString t)) :
    OneLine (.ofString (s ++ t)) := by
  unfold OneLine at hs ht ⊢
  rw [RawText.ofString_append, List.mem_append]
  exact not_or.2 ⟨hs, ht⟩

/- The text of lines is the first one and that of the others. -/
theorem unitText_cons
    (line : RawText)
    {lines : List RawText}
    (h : lines ≠ []) :
    unitText (line :: lines) =
      line ++ .scalar '\n' :: unitText lines := by
  cases lines with
  | nil => exact (h rfl).elim
  | cons l ls =>
      simp [unitText, lineFeed, List.intercalate_cons_cons]

theorem unitText_singleton (line : RawText) :
    unitText [line] = line ++ .scalar '\n' :: [] := by
  simp [unitText, lineFeed]

theorem linesOf_unitText_cons
    {line : RawText}
    {lines : List RawText}
    (hLine : OneLine line)
    (h : lines ≠ []) :
    linesOf (unitText (line :: lines)) =
      line :: linesOf (unitText lines) := by
  rw [linesOf, unitText_cons line h,
    List.splitOn_append_cons_self_of_not_mem hLine, linesOf]

theorem linesOf_unitText_singleton
    {line : RawText}
    (h : OneLine line) :
    linesOf (unitText [line]) = [line, []] := by
  rw [linesOf, unitText_singleton,
    List.splitOn_append_cons_self_of_not_mem h]
  rfl

/- The lines at the start of a unit are read back. -/
theorem linesOf_unitText_append
    {front behind : List RawText}
    (hFront : ∀ line ∈ front, OneLine line)
    (hBehind : behind ≠ []) :
    linesOf (unitText (front ++ behind)) =
      front ++ linesOf (unitText behind) := by
  induction front with
  | nil => rfl
  | cons line lines ih =>
      have hNe : lines ++ behind ≠ [] :=
        List.append_ne_nil_of_right_ne_nil lines hBehind
      rw [List.cons_append,
        linesOf_unitText_cons (hFront line List.mem_cons_self)
          hNe,
        ih fun l hl => hFront l (List.mem_cons_of_mem line hl),
        List.cons_append]

/- All lines of a unit are read back. -/
theorem linesOf_unitText
    {lines : List RawText}
    (hNe : lines ≠ [])
    (h : ∀ line ∈ lines, OneLine line) :
    linesOf (unitText lines) = lines ++ [[]] := by
  induction lines with
  | nil => exact (hNe rfl).elim
  | cons line lines ih =>
      have hLine := h line List.mem_cons_self
      cases lines with
      | nil => exact linesOf_unitText_singleton hLine
      | cons l ls =>
          rw [linesOf_unitText_cons hLine (List.cons_ne_nil l ls),
            ih (List.cons_ne_nil l ls) fun k hk =>
              h k (List.mem_cons_of_mem line hk)]
          rfl

/- The first line of a unit comes first. -/
theorem exists_linesOf_unitText
    {line : RawText}
    (h : OneLine line)
    (lines : List RawText) :
    ∃ others, linesOf (unitText (line :: lines)) =
      line :: others := by
  cases lines with
  | nil => exact ⟨_, linesOf_unitText_singleton h⟩
  | cons l ls =>
      exact ⟨_, linesOf_unitText_cons h (List.cons_ne_nil l ls)⟩

------------------------------------------------------------
-- Words
------------------------------------------------------------

/- The letters and digits at the start of a text. -/
def leadingLetters (t : RawText) : String :=
  RawText.blanked (t.takeWhile fun p => p.isChar Char.isAlphanum)

/- Letters and digits are read back up to anything else. -/
theorem leadingLetters_append
    {name : String}
    (h : ∀ c ∈ name.toList, c.isAlphanum = true)
    {c : Char}
    (hc : c.isAlphanum = false)
    (rest : RawText) :
    leadingLetters (.ofString name ++ .scalar c :: rest) =
      name := by
  have hName : ∀ p ∈ RawText.ofString name,
      p.isChar Char.isAlphanum = true := by
    intro p hp
    rcases RawText.mem_ofString.1 hp with ⟨d, hd, rfl⟩
    exact h d hd
  rw [leadingLetters, List.takeWhile_append_of_pos hName,
    List.takeWhile_cons_of_neg (by simp [CodePoint.isChar, hc]),
    List.append_nil, RawText.blanked_ofString]

------------------------------------------------------------
-- Classes
------------------------------------------------------------

/- The start of a line that defines a class. -/
def classMark : RawText :=
  "class "

/- The name of the class that a line starts to define. -/
def className? (line : RawText) : Option String :=
  if classMark.isPrefixOf line then
    some (leadingLetters (line.drop classMark.length))
  else none

/- The names of the classes of a unit, in order. -/
def classNames (unit : RawText) : List String :=
  (linesOf unit).filterMap className?

/- A line with another first letter defines no class. -/
theorem className?_eq_none
    {line : RawText}
    (h : line.head? ≠ some (.scalar 'c')) :
    className? line = none := by
  rw [className?, if_neg]
  intro hStart
  cases line with
  | nil => exact absurd hStart (by decide)
  | cons p ps =>
      have hFirst : .scalar 'c' = p :=
        beq_iff_eq.1 (Bool.and_eq_true_iff.1 hStart).1
      exact h (congrArg some hFirst.symm)

/- The line that starts a class of a name defines that class. -/
theorem className?_class
    {name : String}
    (h : ∀ c ∈ name.toList, c.isAlphanum = true)
    {c : Char}
    (hc : c.isAlphanum = false)
    (rest : RawText) :
    className?
        (classMark ++ (.ofString name ++ .scalar c :: rest)) =
      some name := by
  have hStart : classMark.isPrefixOf
      (classMark ++ (RawText.ofString name ++
        .scalar c :: rest)) = true := by
    rw [List.isPrefixOf_iff_prefix]
    exact List.prefix_append _ _
  rw [className?, if_pos hStart, List.drop_left,
    leadingLetters_append h hc]

end Emit

end TypedClient
