import TypedClient.Proofs.Emit.Classes
import TypedClient.Proofs.Emit.Literals
import TypedClient.Proofs.Name.Registry
import TypedClient.Proofs.Source.Docstring

/-
  This file shows that text of a schema or of a sample stays in
  the place where it is emitted.  The docstring of a method ends
  at its own quotes and says which endpoint the method is of;
  paths, names of parameters and keys are printable literals that
  end at their own quotes; and the comment that names the schema
  is one line, whatever ends a line.

  Key definitions include:
    * `Emit.Documents`
    * `Emit.HoldsLiteral`
    * `Emit.KeepsToItself`

  Key theorems include:
    * `Emit.undo?_docstring`
    * `Emit.holdsLiteral_of_toList`
    * `Emit.texts_stay_in_place`
-/

namespace TypedClient

namespace Emit

open Schema (Parameter)
open Shape (Field)
open Source (TakenWhole threeQuotes undo?)

------------------------------------------------------------
-- Docstrings
------------------------------------------------------------

theorem undo?_docstringPoint (p : CodePoint) (t : RawText) :
    undo? (docstringPoint p ++ t) = (undo? t).map (p :: ·) := by
  unfold docstringPoint
  split_ifs with hSlash hQuote
  · rw [hSlash]
    rfl
  · rw [hQuote]
    rfl
  · exact Source.undo?_cons hSlash hQuote t

/- The docstring of an endpoint stands for its key. -/
theorem undo?_docstring (e : Endpoint) :
    undo? (docstring e) = some e.key := by
  rw [docstring]
  induction e.key with
  | nil => rfl
  | cons p t ih =>
      rw [List.flatMap_cons, undo?_docstringPoint, ih]
      rfl

/-
  A line with a docstring that stands for a text: its escapes are
  undone to the text, no quote in it stands without a backslash,
  and a scan takes it as one string, whatever is behind it, unless
  it has surrogates, which no scan takes.
-/
structure Documents (line body text : RawText) : Prop where
  line_eq : line =
    RawText.ofString "        " ++
      (docstringQuotes ++ body ++ docstringQuotes)
  undone : undo? body = some text
  quotable : Text.IsQuotable body
  whole : ∀ cs, body = .ofChars cs → ∀ behind,
    TakenWhole (threeQuotes ++ cs ++ threeQuotes) cs behind

/- The docstring of a method stands for the endpoint's key. -/
theorem documents_docstringLine (e : Endpoint) :
    Documents (docstringLine e) (docstring e) e.key := by
  have hUndone := undo?_docstring e
  have hQuotable : Text.IsQuotable (docstring e) := by
    apply Source.isQuotable_of_undo?
    rw [hUndone]
    rfl
  refine
    { line_eq := ?_
      undone := hUndone
      quotable := hQuotable
      whole := fun cs hBody =>
        Source.takenWhole_docstring (hBody ▸ hQuotable) }
  rw [docstringLine, List.append_assoc, List.append_assoc,
    List.append_assoc]

------------------------------------------------------------
-- Literals
------------------------------------------------------------

/-
  Code with the literal of a text between other code.  The literal
  is printable, no quote between its quotes stands without a
  backslash, and a scan takes it as one string, whatever is behind
  the code.
-/
structure Encloses
    (code : String)
    (front inner behind : List Char)
    (t : RawText) : Prop where
  literal_eq : (rawLiteral t).toList = '"' :: (inner ++ ['"'])
  code_eq : code.toList =
    front ++ ((rawLiteral t).toList ++ behind)
  printable : ∀ c ∈ (rawLiteral t).toList, Text.IsPrintable c
  quotable : Text.IsQuotable (.ofChars inner)
  whole : ∀ after,
    TakenWhole (rawLiteral t).toList inner (behind ++ after)

/- Code with the literal of a text behind other code. -/
def HoldsLiteral
    (code : String)
    (front : List Char)
    (t : RawText) : Prop :=
  ∃ inner behind, Encloses code front inner behind t

/- A literal with something behind it that is no quote. -/
theorem holdsLiteral_of_toList
    {code : String}
    {front behind : List Char}
    {t : RawText}
    {b : Char}
    (hNe : b ≠ '"')
    (hCode : code.toList =
      front ++ ((rawLiteral t).toList ++ b :: behind)) :
    HoldsLiteral code front t := by
  have hLiteral : (rawLiteral t).toList = Text.literal t := by
    rw [rawLiteral, String.toList_ofList]
  refine ⟨t.flatMap Text.escapePoint, b :: behind, ?_⟩
  refine
    { literal_eq := hLiteral
      code_eq := hCode
      printable := fun c hc => isPrintable_of_mem_rawLiteral hc
      quotable := (Text.isEnclosed_literal t).quotable
      whole := fun after => ?_ }
  rw [hLiteral]
  apply Source.takenWhole_literal
  intro hEq
  exact hNe (Option.some.inj hEq)

/- Code in front of a literal is put behind other code. -/
theorem HoldsLiteral.behind
    {code : String}
    {front : List Char}
    {t : RawText}
    (h : HoldsLiteral code front t)
    (start : String) :
    HoldsLiteral (start ++ code) (start.toList ++ front) t := by
  rcases h with ⟨inner, behind, hEncloses⟩
  refine ⟨inner, behind, { hEncloses with code_eq := ?_ }⟩
  rw [String.toList_append, hEncloses.code_eq, List.append_assoc]

theorem holdsLiteral_fieldLine (f : Field) :
    HoldsLiteral (fieldLine f) (aliasFront f) f.key :=
  holdsLiteral_of_toList (by decide) (toList_fieldLine f)

theorem holdsLiteral_path (e : Endpoint) (s : Signature) :
    HoldsLiteral (requestCall e s) (pathFront e)
      (pathText e.path s.path.length) := by
  rcases exists_requestCall_path e s with
    ⟨b, behind, hNe, hCode⟩
  exact holdsLiteral_of_toList hNe hCode

/- A request holds the names of its query as literals. -/
theorem holdsLiteral_name
    (e : Endpoint)
    {s : Signature}
    {before after : List Argument}
    {a : Argument}
    (h : s.query = before ++ a :: after) :
    HoldsLiteral (requestCall e s) (queryFront e s before)
      a.parameter.name := by
  rcases exists_requestCall_name e h with ⟨behind, hCode⟩
  exact holdsLiteral_of_toList (by decide) hCode

------------------------------------------------------------
-- Methods
------------------------------------------------------------

/- Arguments stand for the parameters that they are made for. -/
theorem parameter_arguments
    (names : Name.Registry)
    (parameters : List Parameter) :
    (Signature.arguments names parameters).1.map
      Argument.parameter = parameters := by
  have hLength := names.length_claimAll
    (parameters.map fun p => Name.ofParameter p.name.blanked)
  rw [List.length_map] at hLength
  rw [Signature.arguments, ← List.map_uncurry_zip_eq_zipWith,
    List.map_map]
  exact List.map_fst_zip (Nat.le_of_eq hLength.symm)

theorem length_path_ofEndpoint (e : Endpoint) :
    (Signature.ofEndpoint e).path.length =
      (e.parametersIn "path").length := by
  have hPath := parameter_arguments .empty (e.parametersIn "path")
  exact (List.length_map _).symm.trans (congrArg _ hPath)

/- The query of a signature, split as its parameters are. -/
theorem exists_query_ofEndpoint
    {e : Endpoint}
    {before after : List Parameter}
    {p : Parameter}
    (h : e.parametersIn "query" = before ++ p :: after) :
    ∃ front a back,
      (Signature.ofEndpoint e).query = front ++ a :: back ∧
        front.map Argument.parameter = before ∧
        a.parameter = p := by
  have hQuery : (Signature.ofEndpoint e).query.map
      Argument.parameter = e.parametersIn "query" :=
    parameter_arguments _ _
  rw [h] at hQuery
  rcases List.map_eq_append_iff.1 hQuery with
    ⟨front, others, hSplit, hFront, hOthers⟩
  rcases List.map_eq_cons_iff.1 hOthers with
    ⟨a, back, hCons, hParameter, _⟩
  rw [hCons] at hSplit
  exact ⟨front, a, back, hSplit, hFront, hParameter⟩

/- The third line of a method ends with its request. -/
theorem exists_requestLine
    (e : Endpoint)
    (name : String)
    (record : Option String) :
    ∃ start : String,
      (methodLines e name record)[2]? =
        some (RawText.ofString
          (start ++ requestCall e (.ofEndpoint e))) := by
  cases record with
  | none => exact ⟨"        return ", rfl⟩
  | some record => exact ⟨"        data = ", rfl⟩

/-
  The lines of the method of an endpoint, with the texts of the
  endpoint where they belong: the second one documents the key,
  the third one holds the path and, behind the parameters before
  it, the name of each parameter of the query.
-/
structure KeepsToItself
    (e : Endpoint)
    (lines : List RawText) : Prop where
  documented : ∃ line body,
    lines[1]? = some line ∧ Documents line body e.key
  path : ∃ line start,
    lines[2]? = some (.ofString line) ∧
      HoldsLiteral line (start ++ pathFront e)
        (pathText e.path (e.parametersIn "path").length)
  names : ∀ before p after,
    e.parametersIn "query" = before ++ p :: after →
      ∃ line start args,
        lines[2]? = some (.ofString line) ∧
          args.map Argument.parameter = before ∧
          HoldsLiteral line
            (start ++ queryFront e (.ofEndpoint e) args) p.name

/- The texts of an endpoint stay where they are in its method. -/
theorem keepsToItself_methodLines
    (e : Endpoint)
    (name : String)
    (record : Option String) :
    KeepsToItself e (methodLines e name record) := by
  rcases exists_requestLine e name record with ⟨start, hLine⟩
  refine
    { documented := ?_
      path := ?_
      names := ?_ }
  · exact ⟨docstringLine e, docstring e, rfl,
      documents_docstringLine e⟩
  · have hPath := holdsLiteral_path e (.ofEndpoint e)
    rw [length_path_ofEndpoint] at hPath
    exact ⟨_, start.toList, hLine, hPath.behind start⟩
  · intro before p after hParameters
    rcases exists_query_ofEndpoint hParameters with
      ⟨front, a, back, hQuery, hFront, hParameter⟩
    have hName := holdsLiteral_name e hQuery
    rw [hParameter] at hName
    exact ⟨_, start.toList, front, hLine, hFront,
      hName.behind start⟩

/-
  Text of a schema or of a sample stays in the place where it is
  emitted: in the method of an endpoint, as the key of a field,
  and in the comment that names the schema.
-/
theorem texts_stay_in_place :
    (∀ (e : Endpoint) (name : String) (record : Option String),
        KeepsToItself e (methodLines e name record)) ∧
      (∀ f : Field,
        HoldsLiteral (fieldLine f) (aliasFront f) f.key) ∧
      ∀ title version : RawText,
        IsUnbroken (sourceLine title version) := by
  refine ⟨?_, ?_, ?_⟩
  · exact keepsToItself_methodLines
  · exact holdsLiteral_fieldLine
  · exact isUnbroken_sourceLine

/- A path of quotes and backslashes stays in its docstring. -/
example :
    docstringLine (.ofOperation "/\\\"\"\"\\" .get ⟨[], []⟩) =
      "        \"\"\"GET /\\\\\\\"\\\"\\\"\\\\\"\"\"" := by
  decide

end Emit

end TypedClient
