import TypedClient.Emit.Client
import TypedClient.Proofs.Endpoint.Names
import TypedClient.Proofs.Name.Registry

/-
  This file shows that the methods of an emitted client have
  pairwise distinct names that may be used as such.  A name that
  an endpoint asks for may get an underscore, its request method
  and a number behind it, in this order; none of the three leads
  out of snake case or into a reserved word.

  Key definitions include:
    * `Emit.MethodOf`

  Key theorems include:
    * `Emit.claimMethod_eq_claim`
    * `Emit.nodup_methodNamesFrom`
    * `Emit.methodNames_ofSchema`
-/

namespace TypedClient

namespace Emit

------------------------------------------------------------
-- Free words
------------------------------------------------------------

/- A name that a method may have. -/
structure IsMethodName (name : String) : Prop where
  isSnake : Name.IsSnake name
  not_keyword : name ∉ Name.keywords
  not_member : name ∉ clientMembers

/- The members of the client end in small letters. -/
theorem endSmall_clientMembers : Name.EndSmall clientMembers := by
  decide

theorem IsMethodName.numbered
    {name : String}
    (h : IsMethodName name)
    (k : Nat) : IsMethodName (Name.numbered name k) :=
  ⟨h.isSnake.numbered k,
    Name.numbered_not_mem Name.endSmall_keywords name k,
    Name.numbered_not_mem endSmall_clientMembers name k⟩

theorem isMethodName_wantedName
    {e : Endpoint}
    (h : Name.IsPascal e.funcName) :
    IsMethodName (wantedName e) := by
  have hFree := Name.avoid_not_mem endSmall_clientMembers
    (Name.snake e.funcName)
  exact ⟨Name.isSnake_avoid (Name.isSnake_snake h) _,
    hFree.1, hFree.2⟩

theorem smallLetters_verb (m : Schema.Method) :
    smallLetters m.verb = m.text := by
  cases m <;> decide

/- No reserved word ends in the mark of a request method. -/
theorem not_isSuffix_methodMark (m : Schema.Method) :
    ∀ w ∈ Name.keywords ++ clientMembers,
      ¬ ('_' :: m.text.toList) <:+ w.toList := by
  cases m <;> decide

theorem isSnakeChar_methodMark (m : Schema.Method) :
    ∀ c ∈ '_' :: m.text.toList, Name.isSnakeChar c = true := by
  apply List.all_eq_true.1
  cases m <;> decide

/- A request method keeps a name fit for a method. -/
theorem IsMethodName.marked
    {name : String}
    (h : IsMethodName name)
    (m : Schema.Method) :
    IsMethodName (name ++ "_" ++ m.text) := by
  have hChars : (name ++ "_" ++ m.text).toList =
      name.toList ++ ('_' :: m.text.toList) := by
    rw [String.toList_append, String.toList_append,
      List.append_assoc]
    rfl
  have hFree : ∀ w ∈ Name.keywords ++ clientMembers,
      w ≠ name ++ "_" ++ m.text := by
    intro w hw hEq
    apply not_isSuffix_methodMark m w hw
    rw [hEq, hChars]
    exact List.suffix_append _ _
  have hMark := isSnakeChar_methodMark m
  refine ⟨?_, fun hMem => ?_, fun hMem => ?_⟩
  · rw [String.append_assoc]
    exact h.isSnake.append (by
      rw [String.toList_append]
      exact hMark)
  · exact hFree _ (List.mem_append_left _ hMem) rfl
  · exact hFree _ (List.mem_append_right _ hMem) rfl

------------------------------------------------------------
-- Claims
------------------------------------------------------------

/-
  The name of a method is claimed for the name that the endpoint
  asks for, perhaps with the request method behind it.
-/
theorem claimMethod_eq_claim
    (names : Name.Registry)
    (e : Endpoint) :
    ∃ base, claimMethod names e = names.claim base ∧
      (base = wantedName e ∨
        base = wantedName e ++ "_" ++ smallLetters e.method) := by
  unfold claimMethod
  by_cases hTaken : names.has (wantedName e) = true
  · exact ⟨_, if_pos hTaken, Or.inr rfl⟩
  · exact ⟨_, if_neg hTaken, Or.inl rfl⟩

/- The name that a method gets was free and is taken then. -/
theorem claimMethod_fresh
    (names : Name.Registry)
    (e : Endpoint) :
    (claimMethod names e).1 ∉ names.taken ∧
      (claimMethod names e).2.taken =
        (claimMethod names e).1 :: names.taken := by
  rcases claimMethod_eq_claim names e with ⟨base, hClaim, _⟩
  rw [hClaim]
  exact ⟨names.claim_not_mem base, names.taken_claim base⟩

/- The name that a method gets is fit for it. -/
theorem isMethodName_claimMethod
    {e : Endpoint}
    {m : Schema.Method}
    (names : Name.Registry)
    (hMethod : e.method = m.verb)
    (hName : Name.IsPascal e.funcName) :
    IsMethodName (claimMethod names e).1 := by
  have hWanted := isMethodName_wantedName hName
  rcases claimMethod_eq_claim names e with ⟨base, hClaim, hBase⟩
  have hFit : IsMethodName base := by
    rcases hBase with hBase | hBase
    · exact hBase ▸ hWanted
    · rw [hBase, hMethod, smallLetters_verb]
      exact hWanted.marked m
  rw [hClaim]
  rcases names.isGivenFor_claim base with hGiven | ⟨k, hGiven⟩
  · rw [hGiven]
    exact hFit
  · rw [hGiven]
    exact hFit.numbered k

------------------------------------------------------------
-- All methods
------------------------------------------------------------

/- Every endpoint gets one name. -/
theorem length_methodNamesFrom
    (names : Name.Registry)
    (endpoints : List Endpoint) :
    (methodNamesFrom names endpoints).length =
      endpoints.length := by
  induction endpoints generalizing names with
  | nil => rfl
  | cons e es ih => simp [methodNamesFrom, ih]

/- The names of methods are none of those taken before. -/
theorem not_mem_of_mem_methodNamesFrom
    {names : Name.Registry}
    {endpoints : List Endpoint}
    {name : String}
    (h : name ∈ methodNamesFrom names endpoints) :
    name ∉ names.taken := by
  induction endpoints generalizing names with
  | nil => simp [methodNamesFrom] at h
  | cons e es ih =>
      have hFresh := claimMethod_fresh names e
      rcases List.mem_cons.1 h with h | h
      · exact h ▸ hFresh.1
      · intro hMem
        apply ih h
        rw [hFresh.2]
        exact List.mem_cons_of_mem _ hMem

/- The names of methods are pairwise distinct. -/
theorem nodup_methodNamesFrom
    (names : Name.Registry)
    (endpoints : List Endpoint) :
    (methodNamesFrom names endpoints).Nodup := by
  induction endpoints generalizing names with
  | nil => exact List.Pairwise.nil
  | cons e es ih =>
      refine List.nodup_cons.2 ⟨fun hMem => ?_, ih _⟩
      apply not_mem_of_mem_methodNamesFrom hMem
      rw [(claimMethod_fresh names e).2]
      exact List.mem_cons_self

/- The names of methods are fit for methods. -/
theorem isMethodName_of_mem_methodNamesFrom
    {names : Name.Registry}
    {endpoints : List Endpoint}
    {name : String}
    (hEndpoints : ∀ e ∈ endpoints,
      ∃ m : Schema.Method, e.method = m.verb ∧
        e.funcName = Endpoint.funcNameOf m.text e.path)
    (h : name ∈ methodNamesFrom names endpoints) :
    IsMethodName name := by
  induction endpoints generalizing names with
  | nil => simp [methodNamesFrom] at h
  | cons e es ih =>
      rcases List.mem_cons.1 h with h | h
      · rcases hEndpoints e List.mem_cons_self with
          ⟨m, hMethod, hName⟩
        rw [h]
        apply isMethodName_claimMethod names hMethod
        rw [hName]
        exact Endpoint.isPascal_funcNameOf m e.path
      · exact ih (fun d hd =>
          hEndpoints d (List.mem_cons_of_mem e hd)) h

------------------------------------------------------------
-- Emitted methods
------------------------------------------------------------

/-
  Lines that define a method of a name for an endpoint: a blank
  line, the head with the name, the line that names the endpoint,
  and the rest.
-/
def MethodOf
    (e : Endpoint)
    (name : String)
    (block : List RawText) : Prop :=
  ∃ (signature : String) (rest : List RawText),
    block =
      RawText.ofString "" ::
        RawText.ofString
          ("    def " ++ name ++ "(" ++ signature) ::
          docstringLine e :: rest

/- The lines of a method define it under its name. -/
theorem methodOf_methodLines
    (e : Endpoint)
    (name : String)
    (record : Option String) :
    MethodOf e name ([] :: methodLines e name record) := by
  let signature := commaList (Signature.ofEndpoint e).texts ++
    (") -> " ++ (returnType record ++ ":"))
  refine ⟨signature, (methodLines e name record).drop 2, ?_⟩
  simp only [methodLines, headLine, List.drop_succ_cons,
    List.drop_zero, String.append_assoc, signature]
  rfl

/- The lines that an emitted client has for each endpoint. -/
def methodBlocks
    (endpoints : List Endpoint)
    (shapes : List (RawText × Shape)) : List (List RawText) :=
  List.zipWith
    (fun e p => [] :: methodLines e p.1 p.2) endpoints
    ((methodNames endpoints).zip
      (endpoints.map (responseRecord? shapes)))

/- The lines of a client end in the lines of its methods. -/
theorem clientLines_eq_append_methodBlocks
    (endpoints : List Endpoint)
    (shapes : List (RawText × Shape)) :
    ∃ preamble, clientLines endpoints shapes =
      plain (preamble ++ clientBase) ++
        (methodBlocks endpoints shapes).flatten := by
  let named :=
    ((endpoints.map (responseRecord? shapes)).filterMap
      id).filter fun r => !r.isEmpty
  refine ⟨clientPreamble (sortedOnce named), ?_⟩
  rw [clientLines, methodBlocks, List.flatMap, List.map_zipWith]

/- The lines of each endpoint define a method of its name. -/
theorem methodOf_methodBlocks
    {endpoints : List Endpoint}
    {shapes : List (RawText × Shape)}
    {i : Nat}
    {e : Endpoint}
    (h : endpoints[i]? = some e) :
    ∃ name block,
      (methodNames endpoints)[i]? = some name ∧
        (methodBlocks endpoints shapes)[i]? = some block ∧
          MethodOf e name block := by
  have hBound : i < (methodNames endpoints).length := by
    rw [methodNames, length_methodNamesFrom]
    exact (List.getElem?_eq_some_iff.1 h).1
  have hName : (methodNames endpoints)[i]? =
      some (methodNames endpoints)[i] :=
    List.getElem?_eq_getElem hBound
  refine ⟨_, _, hName, ?_, methodOf_methodLines e _
    (responseRecord? shapes e)⟩
  simp [methodBlocks, List.getElem?_zipWith, List.zip, h, hName]

/-
  The methods of the client of a schema: there is one for each
  endpoint, in the order of emission, and their names are
  pairwise distinct identifiers in snake case, none of them a
  keyword and none a member that every client has.
-/
theorem methodNames_ofSchema
    (schema : Schema)
    (shapes : List (RawText × Shape)) :
    let endpoints := Endpoint.ofSchema schema
    let names := methodNames endpoints
    (∃ (preamble : List String) (blocks : List (List RawText)),
      client endpoints shapes =
          unitText
            (plain (preamble ++ clientBase) ++ blocks.flatten) ∧
        blocks.length = endpoints.length ∧
          ∀ (i : Nat) (e : Endpoint), endpoints[i]? = some e →
            ∃ name block, names[i]? = some name ∧
              blocks[i]? = some block ∧
                MethodOf e name block) ∧
      names.length = endpoints.length ∧
      names.Nodup ∧
      ∀ name ∈ names,
        Name.IsSnake name ∧ name ∉ Name.keywords ∧
          name ∉ ["base_url", "session", "_request",
            "__init__"] := by
  intro endpoints names
  have hLength : names.length = endpoints.length :=
    length_methodNamesFrom _ endpoints
  refine ⟨?_, hLength, nodup_methodNamesFrom _ endpoints,
    fun name hMem => ?_⟩
  · rcases clientLines_eq_append_methodBlocks endpoints shapes
      with ⟨preamble, hLines⟩
    refine ⟨preamble, methodBlocks endpoints shapes,
      congrArg unitText hLines, ?_,
      fun i e he => methodOf_methodBlocks he⟩
    simp [methodBlocks, length_methodNamesFrom, methodNames]
  · have hFit := isMethodName_of_mem_methodNamesFrom
      (fun e he => Endpoint.exists_method_of_mem_ofSchema he) hMem
    refine ⟨hFit.isSnake, hFit.not_keyword, fun hOwn => ?_⟩
    rcases List.mem_append.1
        (show name ∈ clientMembers ++ ["_request", "__init__"]
          from hOwn) with hOwn | hOwn
    · exact hFit.not_member hOwn
    · have hForm : ∀ w ∈ ["_request", "__init__"],
          ¬ Name.IsSnake w := by
        decide
      exact hForm name hOwn hFit.isSnake

end Emit

end TypedClient
