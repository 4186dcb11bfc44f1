import TypedClient.Emit.Client
import TypedClient.Emit.Models
import TypedClient.Proofs.Source.Literal

/-
  This file says what is read from the literals of emitted code:
  the keys of fields, the names of parameters in a query, and the
  path of a request.  Each is read as the text that was written,
  unless the text has a character above U+FFFF.

  Key definitions include:
    * `Emit.ReadsApart`
    * `Emit.KeepsLiterals`

  Key theorems include:
    * `Emit.toList_commaList`
    * `Emit.readsApart_literal`
    * `Emit.literals_read_apart`
-/

namespace TypedClient

namespace Emit

open Shape (Field)
open Source (StringAt)

------------------------------------------------------------
-- Literals
------------------------------------------------------------

/-
  Code with a literal of a text behind other code.  It reads as
  the text with characters above U+FFFF taken apart, hence as the
  text itself if and only if there are no such characters.
-/
structure ReadsApart
    (code : String)
    (front : List Char)
    (t : RawText) : Prop where
  value : StringAt code.toList front t.apart
  keeps : StringAt code.toList front t ↔ t.IsBasic

/- A literal reads apart wherever it stands. -/
theorem readsApart_literal
    {code : String}
    {front behind : List Char}
    {t : RawText}
    (hBehind : behind.head? ≠ some '"')
    (hCode : code.toList =
      front ++ ((rawLiteral t).toList ++ behind)) :
    ReadsApart code front t := by
  rw [rawLiteral, String.toList_ofList] at hCode
  have hValue := Source.stringAt_literal hBehind hCode
  refine ⟨hValue, ?_⟩
  rw [← RawText.apart_eq_self_iff]
  constructor
  · exact fun hSame => hValue.unique hSame
  · exact fun hSame => hSame ▸ hValue

------------------------------------------------------------
-- Lists
------------------------------------------------------------

/- A list of arguments is the first one and the others. -/
theorem toList_commaList_cons
    (s : String)
    {ts : List String}
    (h : ts ≠ []) :
    (commaList (s :: ts)).toList =
      (s ++ ", ").toList ++ (commaList ts).toList := by
  cases ts with
  | nil => exact (h rfl).elim
  | cons t ts =>
      simp [commaList, separated, String.toList_append,
        List.intercalate_cons_cons]

/- A list of arguments from its first one on. -/
theorem toList_commaList_head
    (s : String)
    (after : List String) :
    (commaList (s :: after)).toList =
      s.toList ++ after.flatMap fun t => (", " ++ t).toList := by
  induction after generalizing s with
  | nil => simp [commaList, separated]
  | cons t ts ih =>
      rw [toList_commaList_cons s (List.cons_ne_nil t ts), ih,
        List.flatMap_cons]
      simp only [String.toList_append, List.append_assoc]

/- A list of arguments, split at one of them. -/
theorem toList_commaList
    (before : List String)
    (s : String)
    (after : List String) :
    (commaList (before ++ s :: after)).toList =
      (before.flatMap fun t => (t ++ ", ").toList) ++
        (s.toList ++
          after.flatMap fun t => (", " ++ t).toList) := by
  induction before with
  | nil => exact toList_commaList_head s after
  | cons t ts ih =>
      have hNe : ts ++ s :: after ≠ [] :=
        List.append_ne_nil_of_right_ne_nil ts
          (List.cons_ne_nil s after)
      rw [List.cons_append, toList_commaList_cons t hNe, ih,
        List.flatMap_cons, List.append_assoc]

------------------------------------------------------------
-- Emitted code
------------------------------------------------------------

/- What stands in front of the key of a field. -/
def aliasFront (f : Field) : List Char :=
  ("    " ++ f.attr ++ ": " ++ fieldType f.shape ++
    " = Field(default=None, alias=").toList

/- What stands in front of the path of a request. -/
def pathFront (e : Endpoint) : List Char :=
  ("self._request(" ++ literal e.method ++ ", ").toList

/-
  What stands in front of the name of a parameter in the query of
  a request, behind the parameters before it.
-/
def queryFront
    (e : Endpoint)
    (s : Signature)
    (before : List Argument) : List Char :=
  pathFront e ++
    (pathExpression e.path (s.path.map Argument.name) ++
      ", params=\x7b").toList ++
    before.flatMap fun a => (queryPair a ++ ", ").toList

theorem toList_fieldLine (f : Field) :
    (fieldLine f).toList =
      aliasFront f ++ ((rawLiteral f.key).toList ++ [')']) := by
  simp [fieldLine, aliasFront]

theorem readsApart_fieldLine (f : Field) :
    ReadsApart (fieldLine f) (aliasFront f) f.key :=
  readsApart_literal (by decide) (toList_fieldLine f)

theorem toList_requestCall (e : Endpoint) (s : Signature) :
    (requestCall e s).toList =
      "self._request(".toList ++
        ((commaList (requestArgs e s)).toList ++ [')']) := by
  unfold requestCall
  simp

/-
  The text whose literal builds a path: the path itself if nothing
  is filled in, else its template.
-/
def pathText (path : RawText) (count : Nat) : RawText :=
  let template := Template.ofPath path count
  if template.slots = 0 then path else template.text

/- A path is built from a literal, perhaps with a call on it. -/
theorem exists_pathExpression
    (path : RawText)
    (args : List String) :
    ∃ call : String, call.toList.head? ≠ some '"' ∧
      pathExpression path args =
        rawLiteral (pathText path args.length) ++ call := by
  unfold pathExpression pathText
  by_cases hSlots : (Template.ofPath path args.length).slots = 0
  · refine ⟨"", by simp, ?_⟩
    simp only [if_pos hSlots]
    exact (String.append_empty).symm
  · refine ⟨".format(" ++ commaList (args.take
      (Template.ofPath path args.length).slots) ++ ")", ?_, ?_⟩
    · simp [String.toList_append]
    · simp only [if_neg hSlots, String.append_assoc]

/- Behind an argument there is something, and no quote. -/
theorem exists_behind_argument
    {call : String}
    (h : call.toList.head? ≠ some '"')
    (after : List String) :
    ∃ b behind, b ≠ '"' ∧
      call.toList ++
          ((after.flatMap fun t => (", " ++ t).toList) ++ [')']) =
        b :: behind := by
  cases hCall : call.toList with
  | nil =>
      cases after with
      | nil => exact ⟨')', [], by decide, rfl⟩
      | cons t ts =>
          have hFirst : (", " ++ t).toList =
              ',' :: ' ' :: t.toList := by
            rw [String.toList_append]
            rfl
          rw [List.flatMap_cons, hFirst]
          exact ⟨',', _, by decide, rfl⟩
  | cons b bs =>
      rw [hCall] at h
      exact ⟨b, _, fun hEq => h (congrArg some hEq), rfl⟩

/- A request holds a literal that its path is built from. -/
theorem exists_requestCall_path (e : Endpoint) (s : Signature) :
    ∃ b behind, b ≠ '"' ∧
      (requestCall e s).toList =
        pathFront e ++
          ((rawLiteral (pathText e.path s.path.length)).toList ++
            b :: behind) := by
  have hArgs : ∃ others, requestArgs e s =
      [literal e.method] ++
        pathExpression e.path (s.path.map Argument.name) ::
          others :=
    ⟨_, rfl⟩
  rcases hArgs with ⟨others, hArgs⟩
  rcases exists_pathExpression e.path (s.path.map Argument.name)
    with ⟨call, hCall, hPath⟩
  rcases exists_behind_argument hCall others with
    ⟨b, behind, hNe, hBehind⟩
  refine ⟨b, behind, hNe, ?_⟩
  rw [toList_requestCall, hArgs, toList_commaList, hPath,
    List.length_map, ← hBehind]
  simp [pathFront]

/- The path of a request reads apart if nothing is filled in. -/
theorem readsApart_path
    (e : Endpoint)
    (s : Signature)
    (h : (Template.ofPath e.path s.path.length).slots = 0) :
    ReadsApart (requestCall e s) (pathFront e) e.path := by
  rcases exists_requestCall_path e s with
    ⟨b, behind, hNe, hCode⟩
  have hText : pathText e.path s.path.length = e.path :=
    if_pos h
  rw [hText] at hCode
  have hBehind : (b :: behind).head? ≠ some '"' :=
    fun hEq => hNe (Option.some.inj hEq)
  exact readsApart_literal hBehind hCode

/- A query, from the name of one of its parameters on. -/
theorem toList_queryDict
    (before : List Argument)
    (a : Argument)
    (after : List Argument) :
    ∃ others,
      (queryDict (before ++ a :: after)).toList =
        '\x7b' :: (before.flatMap fun b =>
            (queryPair b ++ ", ").toList) ++
          ((rawLiteral a.parameter.name).toList ++ ':' :: others) := by
  have hPairs := toList_commaList (before.map queryPair)
    (queryPair a) (after.map queryPair)
  rw [← List.map_cons, ← List.map_append, List.flatMap_map,
    List.flatMap_map] at hPairs
  rw [queryDict, String.toList_append, String.toList_append,
    hPairs]
  simp [queryPair]

/- A request with a query, from the query on. -/
theorem toList_requestCall_query
    (e : Endpoint)
    {s : Signature}
    (h : s.query ≠ []) :
    ∃ others,
      (requestCall e s).toList =
        pathFront e ++
          ((pathExpression e.path (s.path.map Argument.name) ++
              ", params=").toList ++
            ((queryDict s.query).toList ++ others)) := by
  have hArgs : requestArgs e s =
      [literal e.method,
          pathExpression e.path (s.path.map Argument.name)] ++
        ("params=" ++ queryDict s.query) ::
          (if s.hasBody then ["body=body"] else []) := by
    rw [requestArgs, List.isEmpty_eq_false_iff.2 h]
    rfl
  rw [toList_requestCall, hArgs, toList_commaList]
  simp [pathFront]

/- A request holds the names of its query as literals. -/
theorem exists_requestCall_name
    (e : Endpoint)
    {s : Signature}
    {before after : List Argument}
    {a : Argument}
    (h : s.query = before ++ a :: after) :
    ∃ behind,
      (requestCall e s).toList =
        queryFront e s before ++
          ((rawLiteral a.parameter.name).toList ++
            ':' :: behind) := by
  have hNonempty : s.query ≠ [] := by
    rw [h]
    exact List.append_ne_nil_of_right_ne_nil before
      (List.cons_ne_nil a after)
  rcases toList_requestCall_query e hNonempty with ⟨rest, hRest⟩
  rcases toList_queryDict before a after with ⟨others, hDict⟩
  rw [h, hDict] at hRest
  refine ⟨others ++ rest, ?_⟩
  rw [hRest]
  simp [queryFront]

/- The names of the parameters of a query read apart. -/
theorem readsApart_query
    (e : Endpoint)
    (s : Signature)
    {before after : List Argument}
    {a : Argument}
    (h : s.query = before ++ a :: after) :
    ReadsApart (requestCall e s) (queryFront e s before)
      a.parameter.name := by
  rcases exists_requestCall_name e h with ⟨behind, hCode⟩
  exact readsApart_literal (by simp) hCode

------------------------------------------------------------
-- Emitted texts
------------------------------------------------------------

/-
  Emitted code whose literals are all read as the strings that
  were written: the keys of fields, the names of the parameters of
  a query, and the paths in which nothing is filled in.
-/
structure KeepsLiterals : Prop where
  keys : ∀ (f : Field) (key : String), f.key = .ofString key →
    StringAt (fieldLine f).toList (aliasFront f) f.key
  names : ∀ (e : Endpoint) (s : Signature) (name : String),
    ∀ before a after, s.query = before ++ a :: after →
      a.parameter.name = .ofString name →
        StringAt (requestCall e s).toList (queryFront e s before)
          a.parameter.name
  paths : ∀ (e : Endpoint) (s : Signature) (path : String),
    (Template.ofPath e.path s.path.length).slots = 0 →
      e.path = .ofString path →
        StringAt (requestCall e s).toList (pathFront e) e.path

/- A field whose key is a character above U+FFFF. -/
def smileField : Field :=
  ⟨"X", "x", .primitive .int, .ofString "😀"⟩

/- A key with a character above U+FFFF is not kept. -/
theorem not_keepsLiterals : ¬ KeepsLiterals := by
  intro hKeeps
  have hKey := hKeeps.keys smileField "😀" rfl
  have hBasic := (readsApart_fieldLine smileField).keeps.1 hKey
  exact absurd hBasic (by decide)

/-
  The keys of fields, the names of the parameters of a query, and
  the paths in which nothing is filled in read apart: they are
  kept if and only if they have no character above U+FFFF.
-/
theorem literals_read_apart
    (f : Field)
    (e : Endpoint)
    (s : Signature) :
    ReadsApart (fieldLine f) (aliasFront f) f.key ∧
      (∀ before a after, s.query = before ++ a :: after →
        ReadsApart (requestCall e s) (queryFront e s before)
          a.parameter.name) ∧
      ((Template.ofPath e.path s.path.length).slots = 0 →
        ReadsApart (requestCall e s) (pathFront e) e.path) :=
  ⟨readsApart_fieldLine f,
    fun _ _ _ hQuery => readsApart_query e s hQuery,
    fun hSlots => readsApart_path e s hSlots⟩

/- An endpoint with a path and a parameter outside ASCII. -/
def streetEndpoint : Endpoint :=
  .ofOperation "/straße" .get
    ⟨[⟨"größe", "query", "string"⟩], []⟩

/- A field whose key is outside ASCII and half of a pair. -/
def streetField : Field :=
  ⟨"X", "x", .primitive .int,
    [.scalar 'ß', .surrogate ⟨0x3D, by decide⟩]⟩

/- The key, the name of the parameter and the path are kept. -/
theorem literals_read_apart_street :
    let e := streetEndpoint
    let s := Signature.ofEndpoint e
    StringAt (fieldLine streetField).toList
        (aliasFront streetField) streetField.key ∧
      StringAt (requestCall e s).toList (queryFront e s [])
        (.ofString "größe") ∧
      StringAt (requestCall e s).toList (pathFront e)
        (.ofString "/straße") := by
  intro e s
  have hSlots :
      (Template.ofPath e.path s.path.length).slots = 0 := by
    decide
  have hQuery : s.query =
      [] ++ ⟨⟨"größe", "query", "string"⟩, "gr_e"⟩ :: [] := by
    decide
  rcases literals_read_apart streetField e s with
    ⟨hKey, hName, hPath⟩
  exact ⟨hKey.keeps.2 (by decide),
    (hName _ _ _ hQuery).keeps.2 (by decide),
    (hPath hSlots).keeps.2 (by decide)⟩

end Emit

end TypedClient
