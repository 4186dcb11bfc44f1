import TypedClient.Yaml.Graph

/-
  This file follows the faults of form through the small steps
  of building a graph: tokens in a wrong order, and collections
  that are nested too deeply.

  Key definitions include:
    * `Yaml.Graph.IsForm`
    * `Yaml.Graph.OnlyForm`

  Key theorems include:
    * `Yaml.Graph.OnlyForm.bind`
-/

namespace TypedClient

namespace Yaml

namespace Graph

------------------------------------------------------------
-- Faults of form
------------------------------------------------------------

/- The faults that the form of a document may have. -/
def IsForm (e : Document.Fault) : Prop :=
  e = .malformed ∨ e = .tooDeep

/- A step of building that has only faults of form. -/
def OnlyForm {α : Type} (x : Building α) : Prop :=
  ∀ s e, x.run s = .error e → IsForm e

section

variable {α β : Type}
variable {x : Building α}

theorem OnlyForm.pure
    (a : α) : OnlyForm (pure a : Building α) := by
  intro _ _ h
  cases h

theorem OnlyForm.modify
    (f : Stream → Stream) : OnlyForm (modify f) := by
  intro _ _ h
  cases h

theorem OnlyForm.get : OnlyForm (get : Building Stream) := by
  intro _ _ h
  cases h

theorem OnlyForm.malformed :
    OnlyForm (throw .malformed : Building α) := by
  intro _ _ h
  cases h
  exact Or.inl rfl

theorem OnlyForm.tooDeep :
    OnlyForm (throw .tooDeep : Building α) := by
  intro _ _ h
  cases h
  exact Or.inr rfl

/- Steps in a row have the faults of each. -/
theorem OnlyForm.bind
    {f : α → Building β}
    (hFirst : OnlyForm x)
    (hNext : ∀ a, OnlyForm (f a)) : OnlyForm (x >>= f) := by
  intro s e h
  rw [StateT.run_bind] at h
  cases hRun : x.run s with
  | error e' =>
      rw [hRun] at h
      cases h
      exact hFirst s e hRun
  | ok r =>
      rw [hRun] at h
      exact hNext r.1 r.2 e h

/- A step that is made on a condition is one of them. -/
theorem OnlyForm.onCondition
    {c : Prop}
    [Decidable c]
    {y : Building Unit}
    {f : Unit → Building β}
    (hFirst : OnlyForm y)
    (hNext : ∀ a, OnlyForm (f a)) :
    OnlyForm (if c then y >>= f else f ()) := by
  split
  · exact hFirst.bind hNext
  · exact hNext ()

end

------------------------------------------------------------
-- Tokens and properties
------------------------------------------------------------

theorem onlyForm_peek : OnlyForm peek :=
  OnlyForm.get.bind fun _ => OnlyForm.pure _

theorem onlyForm_skip : OnlyForm skip :=
  OnlyForm.modify _

theorem onlyForm_nextIn (ts : List Token) :
    OnlyForm (nextIn ts) := by
  refine onlyForm_peek.bind fun t => ?_
  cases t with
  | none => exact OnlyForm.pure _
  | some t => exact OnlyForm.pure _

theorem onlyForm_expect (t : Token) : OnlyForm (expect t) := by
  refine (onlyForm_nextIn [t]).bind fun isNext => ?_
  split
  · exact onlyForm_skip
  · exact OnlyForm.malformed

theorem onlyForm_takeAnchor : OnlyForm takeAnchor := by
  refine onlyForm_peek.bind fun t => ?_
  split
  · exact onlyForm_skip.bind fun _ => OnlyForm.pure _
  · exact OnlyForm.pure _

/- A tag may come next; its handle has to be known. -/
theorem onlyForm_takeTag : OnlyForm takeTag := by
  refine onlyForm_peek.bind fun t => ?_
  split
  · refine onlyForm_skip.bind fun _ => ?_
    split
    · exact OnlyForm.pure _
    · refine OnlyForm.get.bind fun _ => ?_
      split
      · exact OnlyForm.pure _
      · exact OnlyForm.malformed
  · exact OnlyForm.pure _

/- Properties may come next. -/
theorem onlyForm_takeProperties : OnlyForm takeProperties := by
  refine onlyForm_takeAnchor.bind fun anchor => ?_
  cases anchor with
  | some name =>
      exact onlyForm_takeTag.bind fun _ => OnlyForm.pure _
  | none =>
      refine onlyForm_takeTag.bind fun tag => ?_
      cases tag with
      | none => exact OnlyForm.pure _
      | some uri =>
          exact onlyForm_takeAnchor.bind fun _ => OnlyForm.pure _

theorem onlyForm_define
    (anchor : Option (List Char))
    (place : Place) : OnlyForm (define anchor place) := by
  cases anchor with
  | none => exact OnlyForm.pure _
  | some name => exact OnlyForm.modify _

/- An anchor has to be free. -/
theorem onlyForm_checkAnchor
    (anchor : Option (List Char)) :
    OnlyForm (checkAnchor anchor) := by
  cases anchor with
  | none => exact OnlyForm.pure _
  | some name =>
      refine OnlyForm.get.bind fun s => ?_
      split
      · exact OnlyForm.malformed
      · exact OnlyForm.pure _

theorem onlyForm_resolve (name : List Char) :
    OnlyForm (resolve name) := by
  refine OnlyForm.get.bind fun s => ?_
  split
  · exact OnlyForm.pure _
  · exact OnlyForm.malformed

------------------------------------------------------------
-- Nodes
------------------------------------------------------------

theorem onlyForm_allot (n : Node) : OnlyForm (allot n) :=
  OnlyForm.get.bind fun _ =>
    (OnlyForm.modify _).bind fun _ => OnlyForm.pure _

theorem onlyForm_settle (place : Place) (n : Node) :
    OnlyForm (settle place n) :=
  OnlyForm.modify _

theorem onlyForm_add (n : Node) : OnlyForm (add n) :=
  (onlyForm_allot n).bind fun place =>
    (onlyForm_settle place n).bind fun _ => OnlyForm.pure _

theorem onlyForm_absent : OnlyForm absent :=
  onlyForm_add _

/- A collection may open. -/
theorem onlyForm_takeForm (inBlock belowKey : Bool) :
    OnlyForm (takeForm inBlock belowKey) := by
  have hSkip (form : Option Form) :
      OnlyForm (do skip; return form) :=
    onlyForm_skip.bind fun _ => OnlyForm.pure _
  refine onlyForm_peek.bind fun t => ?_
  split
  · exact OnlyForm.pure _
  · exact hSkip _
  · exact hSkip _
  · split
    · exact hSkip _
    · exact OnlyForm.pure _
  · split
    · exact hSkip _
    · exact OnlyForm.pure _
  · exact OnlyForm.pure _

theorem onlyForm_scalarFrom (p : Properties) :
    OnlyForm (scalarFrom p) := by
  refine onlyForm_peek.bind fun t => ?_
  split
  · exact onlyForm_skip.bind fun _ => OnlyForm.pure _
  · split
    · exact OnlyForm.pure _
    · exact OnlyForm.malformed

end Graph

end Yaml

end TypedClient
