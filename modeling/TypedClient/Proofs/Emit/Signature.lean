import TypedClient.Proofs.Emit.Containment
import TypedClient.Proofs.Emit.Printable
import TypedClient.Proofs.Emit.TypeNames
import TypedClient.Proofs.Name.Field

/-
  This file says which arguments a method takes and what it does
  with them.  The arguments are read from the head of the method:
  those of the path, those of the query, and perhaps a body.
  Their names are distinct and fit for arguments, whatever the
  names of the parameters are, and each one stands in the request
  for the parameter that it was made for.

  Key definitions include:
    * `Emit.argumentsOf`
    * `Emit.pathNames`
    * `Emit.queryNames`
    * `Emit.TakesArguments`

  Key theorems include:
    * `Emit.argumentsOf_headLine`
    * `Emit.nodup_allNames`
    * `Emit.fit_of_mem_allNames`
    * `Emit.exists_takesArguments`
-/

namespace TypedClient

namespace Emit

open Schema (Parameter)

------------------------------------------------------------
-- Lists of arguments
------------------------------------------------------------

/- The items between commas, without the blanks before them. -/
def listed (cs : List Char) : List String :=
  (cs.splitOn ',').map fun item =>
    String.ofList (item.dropWhile (· = ' '))

/- The head of a method of a name, up to its arguments. -/
def headStart (name : String) : String :=
  "    def " ++ name ++ "("

/- The arguments of a method of a name, read from its head. -/
def argumentsOf (name line : String) : List String :=
  listed ((line.toList.drop (headStart name).length).takeWhile
    (· ≠ ')'))

/- Text that neither parts nor ends a list of arguments. -/
def IsInside (text : String) : Prop :=
  ∀ c ∈ text.toList, c ≠ ',' ∧ c ≠ ')'

instance (text : String) : Decidable (IsInside text) :=
  decidable_of_iff
    (text.toList.all (fun c => c ≠ ',' ∧ c ≠ ')') = true)
    (by simp only [List.all_eq_true, decide_eq_true_eq, IsInside])

/- Text that is read back from a list of arguments. -/
structure IsItem (text : String) : Prop where
  inside : IsInside text
  start : text.toList.head?.any (· ≠ ' ') = true

instance (text : String) : Decidable (IsItem text) :=
  decidable_of_iff
    (IsInside text ∧ text.toList.head?.any (· ≠ ' ') = true)
    ⟨fun h => ⟨h.1, h.2⟩, fun h => ⟨h.inside, h.start⟩⟩

/- An item may go on with text that is inside. -/
theorem IsItem.append
    {text more : String}
    (h : IsItem text)
    (hMore : IsInside more) : IsItem (text ++ more) := by
  constructor
  · intro c hc
    rw [String.toList_append] at hc
    rcases List.mem_append.1 hc with hc | hc
    · exact h.inside c hc
    · exact hMore c hc
  · have hStart := h.start
    rw [String.toList_append, List.head?_append]
    cases hHead : text.toList.head? with
    | none =>
        rw [hHead] at hStart
        cases hStart
    | some c =>
        rw [hHead] at hStart
        exact hStart

/- An item is what is left behind the blanks before it. -/
theorem IsItem.dropWhile
    {front : List Char}
    {text : String}
    (hFront : ∀ c ∈ front, c = ' ')
    (h : IsItem text) :
    (front ++ text.toList).dropWhile (· = ' ') = text.toList := by
  rw [List.dropWhile_append_of_pos (by simpa using hFront)]
  have hStart := h.start
  cases hText : text.toList with
  | nil => rfl
  | cons c cs =>
      rw [hText] at hStart
      exact List.dropWhile_cons_of_neg (by simpa using hStart)

theorem IsItem.comma_not_mem
    {front : List Char}
    {text : String}
    (hFront : ∀ c ∈ front, c = ' ')
    (h : IsItem text) : ',' ∉ front ++ text.toList := by
  intro hMem
  rcases List.mem_append.1 hMem with hMem | hMem
  · exact absurd (hFront ',' hMem) (by decide)
  · exact (h.inside ',' hMem).1 rfl

/- Items are read back from their list, with blanks before it. -/
theorem listed_commaList
    (front : List Char)
    (hFront : ∀ c ∈ front, c = ' ')
    {text : String}
    {texts : List String}
    (hText : IsItem text)
    (hTexts : ∀ t ∈ texts, IsItem t) :
    listed (front ++ (commaList (text :: texts)).toList) =
      text :: texts := by
  induction texts generalizing front text with
  | nil =>
      have hOnly : (commaList [text]).toList = text.toList := by
        simp [commaList, separated]
      rw [hOnly, listed,
        List.splitOn_eq_singleton (hText.comma_not_mem hFront),
        List.map_singleton, hText.dropWhile hFront,
        String.ofList_toList]
  | cons next texts ih =>
      have hSplit : front ++
          (commaList (text :: next :: texts)).toList =
            (front ++ text.toList) ++ ',' ::
              ([' '] ++ (commaList (next :: texts)).toList) := by
        rw [toList_commaList_cons text (List.cons_ne_nil _ _)]
        simp [String.toList_append]
      have hRest := ih [' '] (by simp)
        (hTexts next List.mem_cons_self)
        fun t ht => hTexts t (List.mem_cons_of_mem next ht)
      rw [listed] at hRest ⊢
      rw [hSplit, List.splitOn_append_cons_self_of_not_mem
          (hText.comma_not_mem hFront), List.map_cons, hRest,
        hText.dropWhile hFront, String.ofList_toList]

/- Arguments that are items are read back from a head. -/
theorem argumentsOf_headLine
    (name : String)
    {text : String}
    {texts : List String}
    (h : ∀ t ∈ text :: texts, IsItem t)
    (behind : String) :
    argumentsOf name (headStart name ++
        commaList (text :: texts) ++ (")" ++ behind)) =
      text :: texts := by
  have hInside : ∀ c ∈ (commaList (text :: texts)).toList,
      decide (c ≠ ')') = true := by
    intro c hc
    refine decide_eq_true fun hEq => ?_
    rcases mem_separated (hEq ▸ hc) with hMem | ⟨t, ht, hMem⟩
    · exact absurd hMem (by decide)
    · exact ((h t ht).inside ')' hMem).2 rfl
  have hRead := listed_commaList [] (by simp)
    (h text List.mem_cons_self)
    fun t ht => h t (List.mem_cons_of_mem text ht)
  rw [argumentsOf, String.append_assoc, String.toList_append,
    List.drop_left' String.length_toList, String.toList_append,
    List.takeWhile_append_of_pos hInside, String.toList_append]
  simpa using hRead

------------------------------------------------------------
-- Texts of arguments
------------------------------------------------------------

/- A name in snake case is an item. -/
theorem isItem_of_isSnake
    {name : String}
    (h : Name.IsSnake name) : IsItem name := by
  constructor
  · intro c hc
    have hSnake := h.forall_mem c hc
    exact ⟨fun hEq => absurd hSnake (hEq ▸ by decide),
      fun hEq => absurd hSnake (hEq ▸ by decide)⟩
  · rcases h.exists_cons with ⟨c, cs, hChars, hFirst, _⟩
    have hVisible : c ≠ ' ' :=
      fun hEq => absurd hFirst (hEq ▸ by decide)
    simp [hChars, hVisible]

theorem isItem_typed
    {name : String}
    (h : Name.IsSnake name)
    (kind : String) :
    IsItem (name ++ ": " ++ kindType kind) := by
  have hTypes : ∀ type ∈ annotationTypes, IsInside type := by
    decide
  exact ((isItem_of_isSnake h).append (by decide)).append
    (hTypes _ (kindType_mem_annotationTypes kind))

------------------------------------------------------------
-- Names of arguments
------------------------------------------------------------

/- Whether a parameter has a place in a request. -/
def isSent (p : Parameter) : Bool :=
  ["path", "query", "body"].any fun location =>
    p.location = location

/- A text for the body, if an endpoint has a parameter there. -/
def ifBody (e : Endpoint) (text : String) : List String :=
  if ∃ p ∈ e.parameters, p.location = "body" then [text] else []

/- The names that are asked for parameters. -/
def askedNames (parameters : List Parameter) : List String :=
  parameters.map fun p => Name.ofParameter p.name.blanked

/- The names of the arguments of the path. -/
def pathNames (e : Endpoint) : List String :=
  (Signature.ofEndpoint e).path.map Argument.name

/- The names of the arguments of the query. -/
def queryNames (e : Endpoint) : List String :=
  (Signature.ofEndpoint e).query.map Argument.name

/- Arguments have the names that are claimed for them. -/
theorem name_arguments
    (names : Name.Registry)
    (parameters : List Parameter) :
    (Signature.arguments names parameters).1.map Argument.name =
      (names.claimAll (askedNames parameters)).1 := by
  have hLength := names.length_claimAll (askedNames parameters)
  rw [askedNames, List.length_map] at hLength
  rw [Signature.arguments, ← List.map_uncurry_zip_eq_zipWith,
    List.map_map]
  exact List.map_snd_zip (Nat.le_of_eq hLength)

theorem pathNames_append_queryNames (e : Endpoint) :
    pathNames e ++ queryNames e =
      (Name.Registry.empty.claimAll
        (askedNames (e.parametersIn "path") ++
          askedNames (e.parametersIn "query"))).1 := by
  rw [Name.Registry.claimAll_append]
  exact congrArg₂ (· ++ ·) (name_arguments _ _)
    (name_arguments _ _)

/- Each argument is named for its own parameter. -/
theorem forall₂_name_arguments
    (names : Name.Registry)
    (parameters : List Parameter) :
    List.Forall₂
      (fun p a => Name.IsGivenFor (Name.ofParameter p.name.blanked) a)
      parameters
      ((Signature.arguments names parameters).1.map
        Argument.name) := by
  rw [name_arguments]
  exact List.forall₂_map_left_iff.1
    (names.forall₂_isGivenFor_claimAll (askedNames parameters))

theorem nodup_pathNames_append_queryNames (e : Endpoint) :
    (pathNames e ++ queryNames e).Nodup := by
  rw [pathNames_append_queryNames]
  exact Name.Registry.nodup_claimAll _ _

/- The names of arguments are fit for arguments. -/
theorem fit_of_mem_names
    {e : Endpoint}
    {a : String}
    (h : a ∈ pathNames e ++ queryNames e) :
    Name.IsSnake a ∧ a ∉ Name.keywords ∧
      a ∉ Name.reservedParameters := by
  rw [pathNames_append_queryNames] at h
  rcases Name.Registry.exists_isGivenFor_of_mem_claimAll h with
    ⟨asked, hAsked, hGiven⟩
  rw [askedNames, askedNames, ← List.map_append] at hAsked
  rcases List.mem_map.1 hAsked with ⟨p, _, rfl⟩
  exact Name.isSnake_of_isGivenFor_ofParameter hGiven

theorem eq_of_mem_ifBody
    {e : Endpoint}
    {text t : String}
    (h : t ∈ ifBody e text) : t = text := by
  rw [ifBody] at h
  split at h
  · exact List.mem_singleton.1 h
  · cases h

theorem ne_of_mem_names
    {e : Endpoint}
    {a : String}
    (h : a ∈ pathNames e ++ queryNames e) :
    a ≠ "self" ∧ a ≠ "body" := by
  have hNot := (fit_of_mem_names h).2.2
  simpa [Name.reservedParameters] using hNot

/- The names of all arguments, the client and the body included. -/
def allNames (e : Endpoint) (path query : List String) :
    List String :=
  "self" :: (path ++ query ++ ifBody e "body")

/- The names of all arguments are pairwise distinct. -/
theorem nodup_allNames (e : Endpoint) :
    (allNames e (pathNames e) (queryNames e)).Nodup := by
  refine List.nodup_cons.2 ⟨fun hSelf => ?_, ?_⟩
  · rcases List.mem_append.1 hSelf with hSelf | hSelf
    · exact (ne_of_mem_names hSelf).1 rfl
    · exact absurd (eq_of_mem_ifBody hSelf) (by decide)
  · refine List.nodup_append.2
      ⟨nodup_pathNames_append_queryNames e, ?_, ?_⟩
    · rw [ifBody]
      split
      · simp
      · exact List.nodup_nil
    · intro a ha b hb hEq
      exact (ne_of_mem_names ha).2
        (hEq.trans (eq_of_mem_ifBody hb))

/- The names of all arguments are fit for arguments. -/
theorem fit_of_mem_allNames
    {e : Endpoint}
    {a : String}
    (h : a ∈ allNames e (pathNames e) (queryNames e)) :
    Name.IsSnake a ∧ a ∉ Name.keywords := by
  rcases List.mem_cons.1 h with rfl | h
  · decide
  · rcases List.mem_append.1 h with h | h
    · have hFit := fit_of_mem_names h
      exact ⟨hFit.1, hFit.2.1⟩
    · rw [eq_of_mem_ifBody h]
      decide

------------------------------------------------------------
-- Signatures
------------------------------------------------------------

theorem map_eq_zipWith
    {β : Type}
    (f : Argument → β)
    (arguments : List Argument) :
    arguments.map f =
      List.zipWith (fun p a => f ⟨p, a⟩)
        (arguments.map Argument.parameter)
        (arguments.map Argument.name) := by
  rw [List.zipWith_map, List.zipWith_self]

theorem ifBody_eq (e : Endpoint) (text : String) :
    (if (Signature.ofEndpoint e).hasBody then [text] else []) =
      ifBody e text := by
  have hBody : (Signature.ofEndpoint e).hasBody = true ↔
      ∃ p ∈ e.parameters, p.location = "body" := by
    simp [Signature.ofEndpoint, Endpoint.parametersIn,
      List.filter_eq_nil_iff]
  rw [ifBody]
  exact if_congr hBody rfl rfl

/- Arguments for parameters, annotated, with an ending each. -/
def argumentTexts
    (ending : String)
    (parameters : List Parameter)
    (names : List String) : List String :=
  List.zipWith
    (fun p a => a ++ ": " ++ kindType p.kind ++ ending)
    parameters names

/- The texts of the arguments of an endpoint. -/
theorem texts_ofEndpoint (e : Endpoint) :
    (Signature.ofEndpoint e).texts =
      "self" ::
        (argumentTexts "" (e.parametersIn "path") (pathNames e) ++
          argumentTexts " | None = None" (e.parametersIn "query")
            (queryNames e) ++
          ifBody e "body: Any = None") := by
  have hPath : (Signature.ofEndpoint e).path.map
      Argument.parameter = e.parametersIn "path" :=
    parameter_arguments _ _
  have hQuery : (Signature.ofEndpoint e).query.map
      Argument.parameter = e.parametersIn "query" :=
    parameter_arguments _ _
  rw [Signature.texts, ifBody_eq, map_eq_zipWith, hPath,
    map_eq_zipWith Signature.queryText, hQuery]
  simp only [Signature.pathText, Signature.queryText,
    argumentTexts, String.append_empty]
  rfl

/- The arguments of an endpoint are items of a list. -/
theorem isItem_of_mem_texts
    {e : Endpoint}
    {text : String}
    (h : text ∈ (Signature.ofEndpoint e).texts) :
    IsItem text := by
  have hSnake : ∀ a ∈ pathNames e ++ queryNames e,
      Name.IsSnake a :=
    fun a ha => (fit_of_mem_names ha).1
  rcases List.mem_append.1 h with h | hBody
  · rcases List.mem_append.1 h with hPath | hQuery
    · rcases List.mem_cons.1 hPath with rfl | hPath
      · decide
      · rcases List.mem_map.1 hPath with ⟨a, ha, rfl⟩
        exact isItem_typed (hSnake a.name
          (List.mem_append_left _ (List.mem_map_of_mem ha))) _
    · rcases List.mem_map.1 hQuery with ⟨a, ha, rfl⟩
      have hName := hSnake a.name
        (List.mem_append_right _ (List.mem_map_of_mem ha))
      exact (isItem_typed hName _).append (by decide)
  · split at hBody
    · rw [List.mem_singleton.1 hBody]
      decide
    · cases hBody

/- The arguments of a method are read from its head. -/
theorem argumentsOf_methodLines
    (e : Endpoint)
    (name : String)
    (record : Option String) :
    ∃ line : String,
      (methodLines e name record)[0]? = some (.ofString line) ∧
        argumentsOf name line =
          (Signature.ofEndpoint e).texts := by
  have hItems : ∀ t ∈ (Signature.ofEndpoint e).texts, IsItem t :=
    fun t ht => isItem_of_mem_texts ht
  have hSelf : ∃ others,
      (Signature.ofEndpoint e).texts = "self" :: others :=
    ⟨_, rfl⟩
  have hArrow : ") -> " = ")" ++ " -> " := by decide
  rcases hSelf with ⟨others, hTexts⟩
  rw [hTexts] at hItems
  have hRead := argumentsOf_headLine name hItems
    (" -> " ++ (returnType record ++ ":"))
  refine ⟨_, rfl, ?_⟩
  rw [headLine, hTexts, hArrow]
  simp only [headStart, String.append_assoc] at hRead ⊢
  exact hRead

------------------------------------------------------------
-- Requests
------------------------------------------------------------

/- The arguments of a query in a request, if there are any. -/
def queryTexts
    (parameters : List Parameter)
    (names : List String) : List String :=
  if names = [] then []
  else
    ["params=\x7b" ++
      commaList (List.zipWith
        (fun p a => rawLiteral p.name ++ ": " ++ a)
        parameters names) ++ "\x7d"]

/- What the request of an endpoint is called with. -/
theorem requestArgs_ofEndpoint (e : Endpoint) :
    requestArgs e (Signature.ofEndpoint e) =
      [literal e.method, pathExpression e.path (pathNames e)] ++
        queryTexts (e.parametersIn "query") (queryNames e) ++
        ifBody e "body=body" := by
  have hQuery : (Signature.ofEndpoint e).query.map
      Argument.parameter = e.parametersIn "query" :=
    parameter_arguments _ _
  have hPairs : (Signature.ofEndpoint e).query.map queryPair =
      List.zipWith (fun p a => rawLiteral p.name ++ ": " ++ a)
        (e.parametersIn "query") (queryNames e) := by
    rw [map_eq_zipWith, hQuery]
    rfl
  have hEmpty : (Signature.ofEndpoint e).query.isEmpty = true ↔
      queryNames e = [] := by
    rw [queryNames, List.map_eq_nil_iff, List.isEmpty_iff]
  have hOpen : "params=\x7b" = "params=" ++ "\x7b" := by decide
  have hTexts :
      (if (Signature.ofEndpoint e).query.isEmpty then []
        else ["params=" ++
          queryDict (Signature.ofEndpoint e).query]) =
        queryTexts (e.parametersIn "query") (queryNames e) := by
    rw [queryDict, hPairs, queryTexts, hOpen]
    simp only [String.append_assoc]
    exact if_congr hEmpty rfl rfl
  rw [requestArgs, ifBody_eq, hTexts]
  rfl

/- A parameter that is not sent adds nothing to a signature. -/
theorem ofEndpoint_filter_isSent (e : Endpoint) :
    Signature.ofEndpoint
        { e with parameters := e.parameters.filter isSent } =
      Signature.ofEndpoint e := by
  have hSame {location : String}
      (h : location ∈ ["path", "query", "body"]) :
      Endpoint.parametersIn
          { e with parameters := e.parameters.filter isSent }
          location =
        e.parametersIn location := by
    rw [Endpoint.parametersIn, Endpoint.parametersIn,
      List.filter_filter]
    refine List.filter_congr fun p _ => ?_
    by_cases hp : p.location = location
    · have hSent : isSent p = true :=
        List.any_eq_true.2 ⟨location, h, decide_eq_true hp⟩
      simp [hSent]
    · simp [hp]
  rw [Signature.ofEndpoint, hSame (by simp), hSame (by simp),
    hSame (by simp)]
  rfl

------------------------------------------------------------
-- Methods
------------------------------------------------------------

/-
  What the method of an endpoint does with its arguments, those of
  the path and those of the query under the given names.

    * `madeForPath`, `madeForQuery`: each argument is named for
      the parameter that it stands for, perhaps with a number
    * `distinct`: the names are pairwise distinct
    * `fit`: they are in snake case and no keywords
    * `free`: none that is made for a parameter is reserved
    * `head`: the arguments are those of the path, which have to
      be given, those of the query, which may be left out, and a
      body if there is a parameter for it, in this order
    * `request`: the arguments of the path go to the path, and
      those of the query to their parameters
    * `others`: parameters that are not sent add nothing
-/
structure TakesArguments
    (e : Endpoint)
    (name : String)
    (record : Option String)
    (path query : List String) : Prop where
  madeForPath : List.Forall₂
    (fun p a => Name.IsGivenFor (Name.ofParameter p.name.blanked) a)
    (e.parametersIn "path") path
  madeForQuery : List.Forall₂
    (fun p a => Name.IsGivenFor (Name.ofParameter p.name.blanked) a)
    (e.parametersIn "query") query
  distinct : (allNames e path query).Nodup
  fit : ∀ a ∈ allNames e path query,
    Name.IsSnake a ∧ a ∉ Name.keywords
  free : ∀ a ∈ path ++ query, a ≠ "self" ∧ a ≠ "body"
  head : ∃ line : String,
    (methodLines e name record)[0]? = some (.ofString line) ∧
      argumentsOf name line =
        "self" ::
          (argumentTexts "" (e.parametersIn "path") path ++
            argumentTexts " | None = None" (e.parametersIn "query")
              query ++
            ifBody e "body: Any = None")
  request : ∃ start : String,
    (methodLines e name record)[2]? =
      some (.ofString (start ++ ("self._request(" ++
        commaList
          ([literal e.method, pathExpression e.path path] ++
            queryTexts (e.parametersIn "query") query ++
            ifBody e "body=body") ++ ")")))
  others :
    methodLines
        { e with parameters := e.parameters.filter isSent } name
        record =
      methodLines e name record

/-
  The method of every endpoint takes arguments for the parameters
  of the path and of the query, whatever their names are.
-/
theorem exists_takesArguments
    (e : Endpoint)
    (name : String)
    (record : Option String) :
    ∃ path query, TakesArguments e name record path query := by
  refine ⟨pathNames e, queryNames e, ?_⟩
  constructor
  case madeForPath => exact forall₂_name_arguments _ _
  case madeForQuery => exact forall₂_name_arguments _ _
  case distinct => exact nodup_allNames e
  case fit => exact fun a ha => fit_of_mem_allNames ha
  case free => exact fun a ha => ne_of_mem_names ha
  case head =>
    rcases argumentsOf_methodLines e name record with
      ⟨line, hLine, hArguments⟩
    exact ⟨line, hLine, hArguments.trans (texts_ofEndpoint e)⟩
  case request =>
    rcases exists_requestLine e name record with ⟨start, hLine⟩
    refine ⟨start, hLine.trans ?_⟩
    unfold requestCall
    rw [requestArgs_ofEndpoint]
  case others =>
    unfold methodLines
    rw [ofEndpoint_filter_isSent]
    rfl

/- A keyword, no letters at all, and one name spelled twice. -/
example :
    let e : Endpoint := .ofOperation "/a" .get
      ⟨[⟨"class", "path", ""⟩, ⟨"?", "path", ""⟩,
        ⟨"Id", "query", ""⟩, ⟨"id", "query", ""⟩], []⟩
    pathNames e ++ queryNames e =
      ["class_param", "x", "id", "id2"] := by
  decide

end Emit

end TypedClient
