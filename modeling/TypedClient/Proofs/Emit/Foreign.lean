import TypedClient.Proofs.Emit.Containment
import TypedClient.Proofs.Emit.Imports
import TypedClient.Proofs.Emit.MethodNames
import TypedClient.Proofs.Emit.Printable
import TypedClient.Proofs.Emit.TypeNames
import TypedClient.Proofs.Name.Field

/-
  This file shows that a client is printable ASCII, but for the
  docstrings of its methods: names consist of letters, digits and
  underscores, and literals escape everything else.

  Key definitions include:
    * `Emit.Signature.HasNames`

  Key theorems include:
    * `Emit.printable_of_mem_methodLines`
    * `Emit.mem_docstringLine_iff`
    * `Emit.mem_client_iff`
-/

namespace TypedClient

namespace Emit

open Schema (Parameter)

------------------------------------------------------------
-- Signatures
------------------------------------------------------------

/- Arguments have the names that were given out for them. -/
theorem name_mem_of_mem_arguments
    {names : Name.Registry}
    {parameters : List Parameter}
    {a : Argument}
    (h : a ∈ (Signature.arguments names parameters).1) :
    a.name ∈ (names.claimAll
      (parameters.map fun p => Name.ofParameter p.name.blanked)).1 := by
  rw [Signature.arguments, ← List.map_uncurry_zip_eq_zipWith] at h
  rcases List.mem_map.1 h with ⟨⟨p, given⟩, hZip, rfl⟩
  exact (List.of_mem_zip hZip).2

/- The names of arguments are printable. -/
theorem printable_name_of_mem_arguments
    {names : Name.Registry}
    {parameters : List Parameter}
    {a : Argument}
    (h : a ∈ (Signature.arguments names parameters).1) :
    Printable a.name := by
  have hGiven := name_mem_of_mem_arguments h
  rcases Name.Registry.exists_isGivenFor_of_mem_claimAll hGiven
    with ⟨name, hName, hFor⟩
  rcases List.mem_map.1 hName with ⟨p, _, rfl⟩
  exact printable_of_isSnake
    ((Name.isSnake_ofParameter _).of_isGivenFor hFor)

/- A signature whose arguments have printable names. -/
structure Signature.HasNames (s : Signature) : Prop where
  path : ∀ a ∈ s.path, Printable a.name
  query : ∀ a ∈ s.query, Printable a.name

theorem hasNames_ofEndpoint (e : Endpoint) :
    (Signature.ofEndpoint e).HasNames where
  path _ := printable_name_of_mem_arguments
  query _ := printable_name_of_mem_arguments

theorem printable_kindType (kind : String) :
    Printable (kindType kind) := by
  have hAll : ∀ type ∈ annotationTypes, Printable type := by
    decide
  exact hAll _ (kindType_mem_annotationTypes kind)

section

variable {s : Signature}

/- The texts of arguments with printable names are printable. -/
theorem printable_of_mem_texts
    (h : s.HasNames)
    {t : String}
    (ht : t ∈ s.texts) : Printable t := by
  have hText : ∀ a : Argument, Printable a.name →
      Printable (Signature.pathText a) := fun a ha =>
    (ha.append (by decide)).append
      (printable_kindType a.parameter.kind)
  unfold Signature.texts at ht
  rcases List.mem_append.1 ht with ht | hBody
  · rcases List.mem_append.1 ht with ht | hQuery
    · rcases List.mem_cons.1 ht with rfl | hPath
      · decide
      · rcases List.mem_map.1 hPath with ⟨a, ha, rfl⟩
        exact hText a (h.path a ha)
    · rcases List.mem_map.1 hQuery with ⟨a, ha, rfl⟩
      exact (hText a (h.query a ha)).append (by decide)
  · split at hBody
    · rw [List.mem_singleton.1 hBody]
      decide
    · cases hBody

/- An expression for a path of such arguments is printable. -/
theorem printable_pathExpression
    (path : RawText)
    {args : List String}
    (h : ∀ a ∈ args, Printable a) :
    Printable (pathExpression path args) := by
  unfold pathExpression
  dsimp only
  split
  · exact printable_rawLiteral _
  · apply Printable.append _ (by decide)
    refine Printable.append ?_ (printable_commaList ?_)
    · exact (printable_rawLiteral _).append (by decide)
    · exact fun a ha => h a (List.mem_of_mem_take ha)

/- The request of such arguments is printable. -/
theorem printable_requestCall
    (e : Endpoint)
    (h : s.HasNames) : Printable (requestCall e s) := by
  have hQuery : Printable (queryDict s.query) := by
    apply Printable.append _ (by decide)
    refine Printable.append (by decide) (printable_commaList ?_)
    intro t ht
    rcases List.mem_map.1 ht with ⟨a, ha, rfl⟩
    exact ((printable_rawLiteral _).append (by decide)).append
      (h.query a ha)
  apply Printable.append _ (by decide)
  refine Printable.append (by decide) (printable_commaList ?_)
  intro t ht
  unfold requestArgs at ht
  rcases List.mem_append.1 ht with ht | hBody
  · rcases List.mem_append.1 ht with ht | hParams
    · rcases List.mem_cons.1 ht with rfl | ht
      · exact printable_rawLiteral _
      · rw [List.mem_singleton.1 ht]
        apply printable_pathExpression
        intro name hName
        rcases List.mem_map.1 hName with ⟨a, ha, rfl⟩
        exact h.path a ha
    · split at hParams
      · cases hParams
      · rw [List.mem_singleton.1 hParams]
        exact Printable.append (by decide) hQuery
  · split at hBody
    · rw [List.mem_singleton.1 hBody]
      decide
    · cases hBody

end

------------------------------------------------------------
-- Methods
------------------------------------------------------------

section

variable {e : Endpoint}
variable {name line : String}
variable {record : Option String}
variable {p : CodePoint}

/- What a method with a printable record returns is printable. -/
theorem printable_returned
    (h : ∀ r, record = some r → Printable r) :
    Printable (returnType record) := by
  cases record with
  | none => decide
  | some r =>
      unfold returnType
      rw [Option.filter_some]
      split
      · exact h r rfl
      · decide

/- The lines that decode a printable record are printable. -/
theorem printable_of_mem_decodingLines
    {request r : String}
    (hRequest : Printable request)
    (hRecord : Printable r)
    (h : line ∈ decodingLines request r) : Printable line := by
  simp only [decodingLines, List.mem_cons, List.not_mem_nil,
    or_false] at h
  rcases h with rfl | rfl | rfl | rfl | rfl
  · exact Printable.append (by decide) hRequest
  · decide
  · exact (Printable.append (by decide) hRecord).append
      (by decide)
  · decide
  · exact (Printable.append (by decide) hRecord).append
      (by decide)

/- The first line of a method with printable names is printable. -/
theorem printable_headLine
    {s : Signature}
    (hName : Printable name)
    (hNames : s.HasNames)
    (hRecord : ∀ r, record = some r → Printable r) :
    Printable (headLine name s record) := by
  have hTexts : Printable (commaList s.texts) :=
    printable_commaList fun t ht =>
      printable_of_mem_texts hNames ht
  apply Printable.append _ (by decide)
  refine Printable.append ?_ (printable_returned hRecord)
  apply Printable.append _ (by decide)
  refine Printable.append ?_ hTexts
  apply Printable.append _ (by decide)
  exact Printable.append (by decide) hName

/- The lines that make a printable request are printable. -/
theorem printable_of_mem_requestLines
    {request : String}
    (hRequest : Printable request)
    (hRecord : ∀ r, record = some r → Printable r)
    (h : line ∈ requestLines request record) :
    Printable line := by
  cases record with
  | none =>
      rw [List.mem_singleton.1 h]
      exact Printable.append (by decide) hRequest
  | some r =>
      exact printable_of_mem_decodingLines hRequest
        (hRecord r rfl) h

/-
  The lines of a method are printable, but for its docstring, if
  its name and its record are.
-/
theorem printable_of_mem_methodLines
    {line : RawText}
    (hName : Printable name)
    (hRecord : ∀ r, record = some r → Printable r)
    (h : line ∈ methodLines e name record) :
    (∃ s, Printable s ∧ line = RawText.ofString s) ∨
      line = docstringLine e := by
  have hNames := hasNames_ofEndpoint e
  rcases List.mem_cons.1 h with rfl | h
  · exact Or.inl
      ⟨_, printable_headLine hName hNames hRecord, rfl⟩
  · rcases List.mem_cons.1 h with rfl | h
    · exact Or.inr rfl
    · rcases List.mem_map.1 h with ⟨s, hs, rfl⟩
      exact Or.inl ⟨s, printable_of_mem_requestLines
        (printable_requestCall e hNames) hRecord hs, rfl⟩

/-
  What is not printable in the docstring of an endpoint comes from
  its path.
-/
theorem mem_docstringLine_iff
    (h : IsUnprintable p)
    (hMethod : Printable e.method) :
    p ∈ docstringLine e ↔ p ∈ e.path := by
  have hSlash : p ≠ .scalar '\\' := h _ (by decide)
  have hQuote : p ≠ .scalar '"' := h _ (by decide)
  have hPoint : ∀ q, p ∈ docstringPoint q ↔ p = q := by
    intro q
    unfold docstringPoint
    split_ifs with hQ hQ
    · simp [hQ, hSlash]
    · simp [hQ, hSlash, hQuote]
    · exact List.mem_singleton
  have hKey : p ∈ docstring e ↔ p ∈ e.path := by
    have hFront : p ∉ RawText.ofString (e.method ++ " ") :=
      h.not_mem (hMethod.append (by decide))
    rw [docstring, List.mem_flatMap]
    simp only [hPoint, exists_eq_right']
    rw [Endpoint.key, Endpoint.keyOf, List.mem_append,
      or_iff_right hFront]
  have hMargin : p ∉ RawText.ofString "        " :=
    h.not_mem (by decide)
  have hQuotes : p ∉ docstringQuotes := h.not_mem (by decide)
  rw [docstringLine, List.mem_append, List.mem_append,
    List.mem_append, or_iff_left hQuotes,
    or_iff_right (not_or.2 ⟨hMargin, hQuotes⟩), hKey]

end

------------------------------------------------------------
-- Clients
------------------------------------------------------------

theorem printable_clientBase :
    ∀ line ∈ clientBase, Printable line := by
  unfold clientBase
  repeat
    apply List.forall_mem_cons.2 ⟨printable_ofList (by decide), ?_⟩
  exact List.forall_mem_nil _

section

variable {endpoints : List Endpoint}
variable {shapes : List (RawText × Shape)}
variable {p : CodePoint}

theorem printable_of_mem_clientPreamble
    {records : List String}
    {line : String}
    (h : ∀ r ∈ records, Printable r)
    (hLine : line ∈ clientPreamble records) : Printable line := by
  refine forall_mem_clientPreamble (by decide) (by decide) ?_ hLine
  intro name hName
  exact (Printable.append (by decide) (h name hName)).append
    (by decide)

theorem clientLines_eq_append :
    clientLines endpoints shapes =
      plain (clientPreamble (decodedRecords endpoints shapes) ++
        clientBase) ++ (methodBlocks endpoints shapes).flatten := by
  rw [clientLines, methodBlocks, List.flatMap, List.map_zipWith]
  rfl

/- The lines for an endpoint are those of one of its methods. -/
theorem exists_of_mem_methodBlocks
    {block : List RawText}
    (h : block ∈ methodBlocks endpoints shapes) :
    ∃ e ∈ endpoints, ∃ name ∈ methodNames endpoints,
      ∃ d ∈ endpoints,
        block = [] :: methodLines e name
          (responseRecord? shapes d) := by
  rw [methodBlocks, ← List.map_uncurry_zip_eq_zipWith] at h
  rcases List.mem_map.1 h with ⟨⟨e, name, record⟩, hZip, rfl⟩
  have hE := List.of_mem_zip hZip
  have hName := List.of_mem_zip hE.2
  rcases List.mem_map.1 hName.2 with ⟨d, hD, rfl⟩
  exact ⟨e, hE.1, name, hName.1, d, hD, rfl⟩

/- A line of a method of a client is one of those of an endpoint. -/
theorem exists_of_mem_flatten_methodBlocks
    {line : RawText}
    (h : line ∈ (methodBlocks endpoints shapes).flatten) :
    line = [] ∨
      ∃ e ∈ endpoints, ∃ name ∈ methodNames endpoints,
        ∃ d ∈ endpoints,
          line ∈ methodLines e name
            (responseRecord? shapes d) := by
  rcases List.mem_flatten.1 h with ⟨block, hBlock, hLine⟩
  rcases exists_of_mem_methodBlocks hBlock with
    ⟨e, he, name, hName, d, hd, rfl⟩
  exact (List.mem_cons.1 hLine).imp_right fun hMethod =>
    ⟨e, he, name, hName, d, hd, hMethod⟩

/- A client holds the docstring of each endpoint. -/
theorem docstringLine_mem_clientLines
    {e : Endpoint}
    (h : e ∈ endpoints) :
    docstringLine e ∈ clientLines endpoints shapes := by
  rcases List.mem_iff_getElem?.1 h with ⟨i, hI⟩
  rcases @methodOf_methodBlocks endpoints shapes i e hI with
    ⟨name, block, _, hBlock, signature, rest, rfl⟩
  rw [clientLines_eq_append]
  refine List.mem_append_right _ (List.mem_flatten.2
    ⟨_, List.mem_of_getElem? hBlock, ?_⟩)
  exact List.mem_cons_of_mem _
    (List.mem_cons_of_mem _ List.mem_cons_self)

theorem printable_of_mem_decodedRecords
    (hRecords : ∀ e ∈ endpoints, ∀ r,
      responseRecord? shapes e = some r → Printable r)
    {r : String}
    (h : r ∈ decodedRecords endpoints shapes) : Printable r := by
  rcases mem_decodedRecords.1 h with ⟨_, e, he, hRecord⟩
  exact hRecords e he r hRecord

/-
  The foreign characters of a client are those of the paths of its
  endpoints.
-/
theorem mem_client_iff
    (hMethods : ∀ e ∈ endpoints, Printable e.method)
    (hNames : ∀ name ∈ methodNames endpoints, Printable name)
    (hRecords : ∀ e ∈ endpoints, ∀ r,
      responseRecord? shapes e = some r → Printable r)
    (h : IsForeign p) :
    p ∈ client endpoints shapes ↔ ∃ e ∈ endpoints, p ∈ e.path := by
  have hDecoded := fun r hr =>
    @printable_of_mem_decodedRecords endpoints shapes hRecords r hr
  rw [client, mem_unitText_iff h]
  constructor
  · rintro ⟨line, hLine, hMem⟩
    -- a line with the character is the docstring of an endpoint
    have hPlain {s : String}
        (hEq : line = RawText.ofString s) : ¬ Printable s :=
      fun hPrintable => h.not_mem hPrintable (hEq ▸ hMem)
    rw [clientLines_eq_append] at hLine
    rcases List.mem_append.1 hLine with hLine | hLine
    · rcases List.mem_map.1 hLine with ⟨s, hs, hEq⟩
      rcases List.mem_append.1 hs with hs | hs
      · exact absurd (printable_of_mem_clientPreamble hDecoded hs)
          (hPlain hEq.symm)
      · exact absurd (printable_clientBase s hs)
          (hPlain hEq.symm)
    · rcases exists_of_mem_flatten_methodBlocks hLine with
        rfl | ⟨e, he, name, hName, d, hd, hMethod⟩
      · cases hMem
      · rcases printable_of_mem_methodLines (hNames name hName)
          (hRecords d hd) hMethod with
          ⟨s, hPrintable, hEq⟩ | rfl
        · exact absurd hPrintable (hPlain hEq)
        · exact ⟨e, he,
            (mem_docstringLine_iff h.unprintable (hMethods e he)).1 hMem⟩
  · rintro ⟨e, he, hMem⟩
    exact ⟨docstringLine e, docstringLine_mem_clientLines he,
      (mem_docstringLine_iff h.unprintable (hMethods e he)).2 hMem⟩

end

/-
  The endpoints of a schema have printable methods, and so have
  the names that are given out for them.
-/
theorem printable_ofSchema (schema : Schema) :
    (∀ e ∈ Endpoint.ofSchema schema, Printable e.method) ∧
      ∀ name ∈ methodNames (Endpoint.ofSchema schema),
        Printable name := by
  constructor
  · intro e he
    rcases Endpoint.exists_method_of_mem_ofSchema he with
      ⟨m, hMethod, _⟩
    rw [hMethod]
    cases m <;> decide
  · intro name hName
    have hForm := isMethodName_of_mem_methodNamesFrom
      (fun _ => Endpoint.exists_method_of_mem_ofSchema) hName
    exact printable_of_isSnake hForm.isSnake

end Emit

end TypedClient
