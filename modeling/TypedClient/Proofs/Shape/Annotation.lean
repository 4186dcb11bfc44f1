import TypedClient.Proofs.Shape.Reference
import Mathlib.Data.Set.Function

/-
  This file shows that annotations tell shapes apart, as long as
  the records have identifiers for names and none is called like
  a scalar.  An annotation starts with a word, which says what
  kind of shape it is of, and a bracket opens behind that word
  just if the shape has others in it; so it is read in one way,
  whatever stands behind it.

  Key definitions include:
    * `Shape.IsIdentifier`
    * `Shape.IsRecordName`
    * `Shape.IsNamed`

  Key theorems include:
    * `Shape.render_append_inj`
    * `Shape.injOn_render`
    * `Shape.forall_mem_render`
    * `Shape.isNamed_of_infer`
-/

namespace TypedClient

namespace Shape

------------------------------------------------------------
-- Names of records
------------------------------------------------------------

/- Whether a character may stand in an identifier. -/
def isWordChar (c : Char) : Bool :=
  c.isAlphanum || c = '_'

/- An ASCII letter or underscore, then digits as well. -/
def IdentifierChars : List Char → Prop
  | [] => False
  | c :: cs =>
      (c.isAlpha = true ∨ c = '_') ∧
        ∀ d ∈ cs, isWordChar d = true

/- A text that is an identifier. -/
structure IsIdentifier (name : String) : Prop where
  chars : IdentifierChars name.toList

/- A name that is told apart from the words for scalars. -/
structure IsRecordName (name : String) : Prop where
  identifier : IsIdentifier name
  noScalar : name ∉ ["bool", "int", "float", "str", "Any"]

/- A shape whose records have such names, at any depth. -/
def IsNamed (s : Shape) : Prop :=
  ∀ n ∈ s.references, IsRecordName n

theorem isWordChar_of_isAlphanum
    {c : Char}
    (h : c.isAlphanum = true) : isWordChar c = true := by
  simp [isWordChar, h]

/- The characters of an identifier may stand in it. -/
theorem IsIdentifier.forall_mem
    {name : String}
    (h : IsIdentifier name) :
    ∀ c ∈ name.toList, isWordChar c = true := by
  have hForm := h.chars
  cases hChars : name.toList with
  | nil => exact List.forall_mem_nil _
  | cons c cs =>
      rw [hChars] at hForm
      refine List.forall_mem_cons.2 ⟨?_, hForm.2⟩
      rcases hForm.1 with hAlpha | rfl
      · apply isWordChar_of_isAlphanum
        exact Bool.or_eq_true_iff.2 (Or.inl hAlpha)
      · decide

theorem IsRecordName.ne_render
    {name : String}
    (h : IsRecordName name)
    (p : Primitive) : name ≠ p.render := by
  rintro rfl
  apply h.noScalar
  cases p <;> decide

------------------------------------------------------------
-- Words
------------------------------------------------------------

/- Two texts with words in front have the same word there. -/
theorem append_inj_of_forall
    {α : Type}
    {p : α → Bool}
    {u v a b : List α}
    (hu : ∀ c ∈ u, p c = true)
    (hv : ∀ c ∈ v, p c = true)
    (ha : ∀ c, a.head? = some c → p c = false)
    (hb : ∀ c, b.head? = some c → p c = false)
    (h : u ++ a = v ++ b) : u = v ∧ a = b := by
  have hNone (cs : List α)
      (hcs : ∀ c, cs.head? = some c → p c = false) :
      cs.takeWhile p = [] := by
    cases cs with
    | nil => rfl
    | cons c cs =>
        exact List.takeWhile_cons_of_neg (by simp [hcs c rfl])
  have hFront := congrArg (List.takeWhile p) h
  rw [List.takeWhile_append_of_pos hu,
    List.takeWhile_append_of_pos hv, hNone a ha, hNone b hb,
    List.append_nil, List.append_nil] at hFront
  exact ⟨hFront, List.append_cancel_left (hFront ▸ h)⟩

/- The word that the annotation of a shape starts with. -/
def leadingWord : Shape → String
  | primitive p => p.render
  | list _ => "list"
  | map _ => "dict"
  | record name => name

/- What stands behind that word. -/
def bracketed : Shape → String
  | primitive _ => ""
  | list item => "[" ++ item.render ++ "]"
  | map value => "[str, " ++ value.render ++ "]"
  | record _ => ""

/- Whether a bracket opens behind that word. -/
def opens : Shape → Bool
  | primitive _ => false
  | list _ => true
  | map _ => true
  | record _ => false

/- An annotation is its word and what stands behind it. -/
theorem render_eq_append (s : Shape) :
    s.render = s.leadingWord ++ s.bracketed := by
  cases s with
  | primitive p => exact String.append_empty.symm
  | list item =>
      rw [leadingWord, bracketed, String.append_assoc,
        ← String.append_assoc]
      rfl
  | map value =>
      rw [leadingWord, bracketed, String.append_assoc,
        ← String.append_assoc]
      rfl
  | record name => exact String.append_empty.symm

theorem bracketed_list_append
    (item : Shape)
    (cs : List Char) :
    (list item).bracketed.toList ++ cs =
      "[".toList ++ (item.render.toList ++ ']' :: cs) := by
  rw [bracketed, String.toList_append, String.toList_append,
    List.append_assoc, List.append_assoc]
  rfl

theorem bracketed_map_append
    (value : Shape)
    (cs : List Char) :
    (map value).bracketed.toList ++ cs =
      "[str, ".toList ++ (value.render.toList ++ ']' :: cs) := by
  rw [bracketed, String.toList_append, String.toList_append,
    List.append_assoc, List.append_assoc]
  rfl

/- The word of a named shape is one. -/
theorem forall_mem_leadingWord
    {s : Shape}
    (h : s.IsNamed) :
    ∀ c ∈ s.leadingWord.toList, isWordChar c = true := by
  cases s with
  | primitive p =>
      exact List.all_eq_true.1 (by cases p <;> decide)
  | list item =>
      have hAll : "list".toList.all isWordChar = true := by
        decide
      exact List.all_eq_true.1 hAll
  | map value =>
      have hAll : "dict".toList.all isWordChar = true := by
        decide
      exact List.all_eq_true.1 hAll
  | record name =>
      exact (h name (List.mem_singleton.2 rfl)).identifier.forall_mem

/-
  Text that does not go on with an annotation: its first character
  is none of a word and no bracket that opens.
-/
def EndsShape (cs : List Char) : Prop :=
  ∀ c, cs.head? = some c → isWordChar c = false ∧ c ≠ '['

theorem endsShape_close (cs : List Char) :
    EndsShape (']' :: cs) := by
  rintro c ⟨⟩
  exact ⟨by decide, by decide⟩

theorem endsShape_nil : EndsShape [] := by
  rintro c ⟨⟩

/- What stands behind the word of a shape is no word. -/
theorem head?_bracketed
    (s : Shape)
    {a : List Char}
    (ha : EndsShape a)
    (c : Char)
    (h : (s.bracketed.toList ++ a).head? = some c) :
    isWordChar c = false := by
  cases s with
  | primitive p => exact (ha c h).1
  | list item =>
      rw [bracketed_list_append] at h
      cases h
      decide
  | map value =>
      rw [bracketed_map_append] at h
      cases h
      decide
  | record name => exact (ha c h).1

/- A bracket stands behind the word of a shape if it opens one. -/
theorem head?_bracketed_eq_open
    (s : Shape)
    {a : List Char}
    (ha : EndsShape a) :
    (s.bracketed.toList ++ a).head? = some '[' ↔
      s.opens = true := by
  have hNone : a.head? ≠ some '[' :=
    fun h => (ha '[' h).2 rfl
  cases s with
  | primitive p => exact iff_of_false hNone Bool.false_ne_true
  | list item =>
      rw [bracketed_list_append]
      exact iff_of_true rfl rfl
  | map value =>
      rw [bracketed_map_append]
      exact iff_of_true rfl rfl
  | record name => exact iff_of_false hNone Bool.false_ne_true

------------------------------------------------------------
-- Annotations
------------------------------------------------------------

theorem Primitive.render_injective :
    Function.Injective Primitive.render := by
  intro p q h
  cases p <;> cases q <;> first | rfl | exact absurd h (by decide)

/-
  Two annotations with one text start with one word, and either
  both open a bracket behind it or none does.
-/
theorem leadingWord_inj
    {s t : Shape}
    {a b : List Char}
    (hs : s.IsNamed)
    (ht : t.IsNamed)
    (ha : EndsShape a)
    (hb : EndsShape b)
    (h : s.render.toList ++ a = t.render.toList ++ b) :
    s.leadingWord = t.leadingWord ∧
      s.opens = t.opens ∧
      s.bracketed.toList ++ a = t.bracketed.toList ++ b := by
  rw [render_eq_append s, render_eq_append t,
    String.toList_append, String.toList_append,
    List.append_assoc, List.append_assoc] at h
  rcases append_inj_of_forall (forall_mem_leadingWord hs)
      (forall_mem_leadingWord ht) (head?_bracketed s ha)
      (head?_bracketed t hb) h with ⟨hWord, hRest⟩
  refine ⟨String.toList_injective hWord, ?_, hRest⟩
  rw [Bool.eq_iff_iff, ← head?_bracketed_eq_open s ha, hRest,
    head?_bracketed_eq_open t hb]

/-
  An annotation is read in one way, whatever ends it: the word at
  its start and the bracket behind it tell the kind of shape, and
  the shape in the bracket is ended by the bracket that closes.
-/
theorem render_append_inj
    {s t : Shape}
    {a b : List Char}
    (hs : s.IsNamed)
    (ht : t.IsNamed)
    (ha : EndsShape a)
    (hb : EndsShape b)
    (h : s.render.toList ++ a = t.render.toList ++ b) :
    s = t ∧ a = b := by
  have hKinds : "list" ≠ "dict" := by
    decide
  induction s generalizing t a b
  all_goals
    rcases leadingWord_inj hs ht ha hb h with
      ⟨hWord, hOpens, hRest⟩
  case primitive p =>
    cases t with
    | primitive q =>
        have hSame := Primitive.render_injective hWord
        exact ⟨congrArg primitive hSame, hRest⟩
    | list item => exact (Bool.false_ne_true hOpens).elim
    | map value => exact (Bool.false_ne_true hOpens).elim
    | record name =>
        have hName := ht name (List.mem_singleton.2 rfl)
        exact (hName.ne_render p hWord.symm).elim
  case list item ih =>
    have hItem : item.IsNamed := hs
    cases t with
    | primitive q => exact (Bool.false_ne_true hOpens.symm).elim
    | list other =>
        have hOther : other.IsNamed := ht
        rw [bracketed_list_append, bracketed_list_append] at hRest
        have hInner := List.append_cancel_left hRest
        rcases ih hItem hOther (endsShape_close a)
            (endsShape_close b) hInner with ⟨hSame, hBehind⟩
        exact ⟨congrArg list hSame,
          List.tail_eq_of_cons_eq hBehind⟩
    | map value => exact (hKinds hWord).elim
    | record name => exact (Bool.false_ne_true hOpens.symm).elim
  case map value ih =>
    have hValue : value.IsNamed := hs
    cases t with
    | primitive q => exact (Bool.false_ne_true hOpens.symm).elim
    | list item => exact (hKinds hWord.symm).elim
    | map other =>
        have hOther : other.IsNamed := ht
        rw [bracketed_map_append, bracketed_map_append] at hRest
        have hInner := List.append_cancel_left hRest
        rcases ih hValue hOther (endsShape_close a)
            (endsShape_close b) hInner with ⟨hSame, hBehind⟩
        exact ⟨congrArg map hSame,
          List.tail_eq_of_cons_eq hBehind⟩
    | record name => exact (Bool.false_ne_true hOpens.symm).elim
  case record name =>
    have hName := hs name (List.mem_singleton.2 rfl)
    cases t with
    | primitive q => exact (hName.ne_render q hWord).elim
    | list item => exact (Bool.false_ne_true hOpens).elim
    | map value => exact (Bool.false_ne_true hOpens).elim
    | record other => exact ⟨congrArg record hWord, hRest⟩

/- Annotations tell named shapes apart. -/
theorem injOn_render :
    Set.InjOn Shape.render {s | s.IsNamed} := by
  intro s hs t ht h
  exact (render_append_inj hs ht endsShape_nil
    endsShape_nil (by rw [h])).1

/- Whether a character may stand in an annotation. -/
def isAnnotationChar (c : Char) : Bool :=
  isWordChar c || c ∈ ['[', ']', ',', ' ']

/- The annotation of a named shape is made of such characters. -/
theorem forall_mem_render
    {s : Shape}
    (h : s.IsNamed) :
    ∀ c ∈ s.render.toList, isAnnotationChar c = true := by
  have hClose := List.all_eq_true.1
    (show "]".toList.all isAnnotationChar = true by decide)
  induction s with
  | primitive p =>
      exact List.all_eq_true.1 (by cases p <;> decide)
  | list item ih =>
      rw [render, String.toList_append, String.toList_append]
      refine List.forall_mem_append.2 ⟨?_, hClose⟩
      refine List.forall_mem_append.2 ⟨?_, ih h⟩
      exact List.all_eq_true.1 (by decide)
  | map value ih =>
      rw [render, String.toList_append, String.toList_append]
      refine List.forall_mem_append.2 ⟨?_, hClose⟩
      refine List.forall_mem_append.2 ⟨?_, ih h⟩
      exact List.all_eq_true.1 (by decide)
  | record name =>
      intro c hc
      have hName := h name (List.mem_singleton.2 rfl)
      exact Bool.or_eq_true_iff.2
        (Or.inl (hName.identifier.forall_mem c hc))

------------------------------------------------------------
-- Inferred shapes
------------------------------------------------------------

/- The name of a well-formed record is an identifier apart. -/
theorem Record.WellFormed.isRecordName
    {r : Record}
    (h : r.WellFormed) : IsRecordName r.name := by
  rcases h.name.exists_cons with ⟨c, cs, hChars, hFirst, hRest⟩
  refine ⟨⟨?_⟩, fun hMem => ?_⟩
  · rw [hChars]
    exact ⟨Or.inl (Bool.or_eq_true_iff.2 (Or.inl hFirst)),
      fun d hd => isWordChar_of_isAlphanum (hRest d hd)⟩
  · have hSmall : ∀ w ∈ ["bool", "int", "float", "str"],
        ¬ Name.IsPascal w := by
      decide
    rcases List.mem_append.1
        (show r.name ∈ ["bool", "int", "float", "str"] ++ ["Any"]
          from hMem) with hScalar | hAny
    · exact hSmall r.name hScalar h.name
    · apply h.own
      rw [List.mem_singleton.1 hAny]
      exact List.mem_cons_self

theorem isNamed_of_forall
    {s : Shape}
    {records : List Record}
    (hRecords : ∀ r ∈ records, r.WellFormed)
    (h : ∀ n ∈ s.references, n ∈ records.map Record.name) :
    s.IsNamed := by
  intro n hn
  rcases List.mem_map.1 (h n hn) with ⟨r, hr, rfl⟩
  exact (hRecords r hr).isRecordName

/-
  Whatever value is inferred below the name of a response, at any
  depth, its shape is a named one.
-/
theorem isNamed_of_infer
    {budget : Nat}
    {name : String}
    {value : Json}
    {table : Table}
    {s : Shape}
    (hValue : value.WellFormed)
    (hName : Name.IsPascal name)
    (hResponse : IsOfResponse name)
    (h : (infer budget name value table).result = some s) :
    s.IsNamed := by
  rw [infer_eq_onto] at h
  have hClosed := (closed_find budget name value).result s h
  exact isNamed_of_forall
    (wellFormed_of_mem_find budget name hValue hName hResponse)
    fun n hn => (hClosed n hn).1

theorem Reachable.isNamed
    {table : Table}
    (h : Reachable table)
    {r : Record}
    (hr : r ∈ table.records)
    {f : Field}
    (hf : f ∈ r.fields) : f.shape.IsNamed :=
  isNamed_of_forall h.wellFormed fun n hn =>
    (h.closed r hr f hf n hn).1

end Shape

end TypedClient
