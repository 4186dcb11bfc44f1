import TypedClient.Proofs.Emit.Signature
import TypedClient.Proofs.Emit.Template
import TypedClient.Proofs.Sample.Run

/-
  This file compares the two requests of an endpoint that can be
  called without input: the one that samples it and the one that
  its method makes.  Which endpoints are sampled is told by their
  paths and parameters, and what is filled in by another reader of
  the path; the readers agree as far as they have to.

  Key definitions include:
    * `Emit.RequestsAlike`

  Key theorems include:
    * `Endpoint.isPlain_of_isCallable`
    * `Emit.pathExpression_of_isPlain`
    * `Emit.requestsAlike_of_mem_eligible`
-/

namespace TypedClient

------------------------------------------------------------
-- Paths without input
------------------------------------------------------------

namespace Endpoint

section Callable

variable {path : RawText}
variable {m : Schema.Method}
variable {operation : Schema.Operation}

theorem isDynamicPath_of_isCallable
    (h : (ofOperation path m operation).isCallable = true) :
    isDynamicPath path operation.parameters = false := by
  have hStatic := (Bool.and_eq_true_iff.1 h).2
  rwa [Bool.not_eq_true'] at hStatic

/- An endpoint that is called without input has a plain path. -/
theorem isPlain_of_isCallable
    (h : (ofOperation path m operation).isCallable = true) :
    Path.IsPlain path := by
  have hStatic := isDynamicPath_of_isCallable h
  exact Path.isPlain_of_isVariable
    (Bool.or_eq_false_iff.1 hStatic).1

theorem parametersIn_path_of_isCallable
    (h : (ofOperation path m operation).isCallable = true) :
    (ofOperation path m operation).parametersIn "path" = [] := by
  have hStatic := isDynamicPath_of_isCallable h
  have hNone := (Bool.or_eq_false_iff.1 hStatic).2
  exact List.filter_eq_nil_iff.2 (List.any_eq_false.1 hNone)

end Callable

end Endpoint

namespace Emit

/- The expression of a plain path is its literal. -/
theorem pathExpression_of_isPlain
    {path : RawText}
    (h : Path.IsPlain path)
    (args : List String) :
    pathExpression path args = rawLiteral path := by
  have hSlots : (Template.ofPath path args.length).slots = 0 := by
    rw [Template.ofPath, Path.pieces_of_divided (.last h),
      slots_ofPieces]
    exact Nat.zero_min _
  rw [pathExpression]
  exact if_pos hSlots

------------------------------------------------------------
-- Methods of sampled endpoints
------------------------------------------------------------

/-
  The method of an endpoint, and the request that samples it in a
  run over a schema.

    * `sampled`: the path is requested with GET below the base, and
      without a body
    * `requested`: this request is one of the run
    * `optional`: no argument of the method has to be given
    * `plain`: no part of the path can be filled in
    * `request`: the method requests the literal of that path with
      the literal of GET
-/
structure RequestsAlike
    (schema : Schema)
    (e : Endpoint)
    (name : String)
    (record : Option String) : Prop where
  sampled : ∀ base, Sample.request base e =
    ⟨"GET", .ofString (Request.trimBase base) ++ e.path, none⟩
  requested : ∀ server base, Sample.request base e ∈
    (Sample.takeAll server base
      (Endpoint.ofSchema schema)).requests
  optional : ∃ (line : String) (arguments : List String),
    (methodLines e name record)[0]? = some (.ofString line) ∧
      argumentsOf name line = "self" :: arguments ∧
        ∀ a ∈ arguments, " = None".toList <:+ a.toList
  plain : Path.IsPlain e.path
  request : ∃ (start : String) (more : List String),
    (methodLines e name record)[2]? =
      some (.ofString (start ++ ("self._request(" ++
        commaList (literal "GET" :: rawLiteral e.path :: more) ++
          ")")))

/- Without parameters in the path, all arguments are optional. -/
theorem texts_of_path_nil
    {e : Endpoint}
    (h : e.parametersIn "path" = []) :
    ∃ arguments, (Signature.ofEndpoint e).texts =
        "self" :: arguments ∧
      ∀ a ∈ arguments, " = None".toList <:+ a.toList := by
  have hEnding (text : String) :
      " = None".toList <:+ (text ++ " = None").toList := by
    rw [String.toList_append]
    exact List.suffix_append _ _
  have hPath : (Signature.ofEndpoint e).path = [] := by
    rw [← List.length_eq_zero_iff, length_path_ofEndpoint, h]
    rfl
  refine ⟨_, by rw [Signature.texts, hPath]; rfl, ?_⟩
  intro a ha
  rcases List.mem_append.1 ha with hQuery | hBody
  · rcases List.mem_map.1 hQuery with ⟨argument, _, rfl⟩
    have hOptional : " | None = None" = " | None" ++ " = None" := by
      decide
    rw [Signature.queryText, hOptional, ← String.append_assoc]
    exact hEnding _
  · split at hBody
    · rw [List.mem_singleton.1 hBody]
      exact hEnding "body: Any"
    · cases hBody

theorem exists_requestArgs
    {e : Endpoint}
    (hMethod : e.method = "GET")
    (hPlain : Path.IsPlain e.path) :
    ∃ more, requestArgs e (Signature.ofEndpoint e) =
      literal "GET" :: rawLiteral e.path :: more := by
  rw [requestArgs, hMethod, pathExpression_of_isPlain hPlain]
  exact ⟨_, rfl⟩

/-
  For every endpoint of a schema that is sampled, its method and
  the sample make the same request.
-/
theorem requestsAlike_of_mem_eligible
    {schema : Schema}
    {e : Endpoint}
    (h : e ∈ Sample.eligible (Endpoint.ofSchema schema))
    (name : String)
    (record : Option String) :
    RequestsAlike schema e name record := by
  rcases List.mem_filter.1 h with ⟨hMem, hCallable⟩
  rcases Endpoint.mem_ofSchema.1 hMem with
    ⟨item, _, operation, _, rfl⟩
  have hPlain := Endpoint.isPlain_of_isCallable hCallable
  have hMethod := of_decide_eq_true
    (Bool.and_eq_true_iff.1 hCallable).1
  constructor
  case sampled => exact fun base => rfl
  case requested =>
    intro server base
    rw [Sample.takeAll, Sample.requests_takeEach]
    exact List.mem_map_of_mem h
  case optional =>
    rcases texts_of_path_nil
      (Endpoint.parametersIn_path_of_isCallable hCallable) with
        ⟨arguments, hTexts, hOptional⟩
    rcases argumentsOf_methodLines _ name record with
      ⟨line, hLine, hArguments⟩
    exact ⟨line, arguments, hLine, hArguments.trans hTexts,
      hOptional⟩
  case plain => exact hPlain
  case request =>
    rcases exists_requestLine _ name record with ⟨start, hLine⟩
    rcases exists_requestArgs hMethod hPlain with ⟨more, hArgs⟩
    refine ⟨start, more, hLine.trans ?_⟩
    rw [requestCall, hArgs]

/-
  A schema with a path of brackets that is called without input,
  though it has parameters in the query and in the body.
-/
def bracketSchema : Schema :=
  ⟨"", "",
    [("/a)b\x7d(",
      [(.get, ⟨[⟨"q", "query", "string"⟩,
        ⟨"data", "body", "string"⟩], []⟩)])]⟩

/- The endpoint of the path of brackets. -/
def bracketEndpoint : Endpoint :=
  .ofOperation "/a)b\x7d(" .get
    ⟨[⟨"q", "query", "string"⟩, ⟨"data", "body", "string"⟩], []⟩

/- The path of brackets is sampled, and its method requests it. -/
theorem requestsAlike_bracketEndpoint :
    bracketEndpoint ∈
        Sample.eligible (Endpoint.ofSchema bracketSchema) ∧
      RequestsAlike bracketSchema bracketEndpoint "ab" none := by
  have hMem : bracketEndpoint ∈ Endpoint.ofSchema bracketSchema :=
    Endpoint.mem_ofSchema.2 ⟨_, List.mem_cons_self,
      _, List.mem_cons_self, rfl⟩
  have hSampled : bracketEndpoint ∈
      Sample.eligible (Endpoint.ofSchema bracketSchema) :=
    List.mem_filter.2 ⟨hMem, by decide⟩
  exact ⟨hSampled, requestsAlike_of_mem_eligible hSampled _ _⟩

end Emit

end TypedClient
