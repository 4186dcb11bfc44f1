import Mathlib.Data.List.Basic
import TypedClient.Proofs.Emit.MethodNames
import TypedClient.Proofs.Name.Spelling
import TypedClient.Schema.Parse

/-
  This file says which methods of a client have the name of a
  type that annotations of methods are written with.  Names of
  methods do not avoid these types: a method hides one exactly if
  the path of a GET request is spelled like it.

  Key definitions include:
    * `Emit.annotationTypes`
    * `Emit.KeepsTypes`

  Key theorems include:
    * `Emit.mem_methodNamesFrom_iff`
    * `Emit.mem_methodNames_iff`
    * `Emit.keepsTypes_iff`
-/

namespace TypedClient

namespace Emit

------------------------------------------------------------
-- Words
------------------------------------------------------------

/- A word that names of methods do not avoid. -/
structure IsFreeWord (word : String) : Prop where
  isWord : Name.IsWord word
  not_keyword : word ∉ Name.keywords
  not_member : word ∉ clientMembers

instance (word : String) : Decidable (IsFreeWord word) :=
  decidable_of_iff
    (Name.IsWord word ∧ word ∉ Name.keywords ∧
      word ∉ clientMembers)
    ⟨fun h => ⟨h.1, h.2.1, h.2.2⟩,
      fun h => ⟨h.isWord, h.not_keyword, h.not_member⟩⟩

------------------------------------------------------------
-- Claims
------------------------------------------------------------

/- A method is named by a word only if the word was wanted. -/
theorem wantedName_of_claimMethod
    {names : Name.Registry}
    {e : Endpoint}
    (h : Name.IsWord (claimMethod names e).1) :
    wantedName e = (claimMethod names e).1 := by
  rcases claimMethod_eq_claim names e with ⟨base, hClaim, hBase⟩
  rw [hClaim] at h ⊢
  rcases names.isGivenFor_claim base with hGiven | ⟨k, hGiven⟩
  · rw [hGiven] at h ⊢
    rcases hBase with hBase | hBase
    · exact hBase.symm
    · rw [hBase] at h
      refine (Name.not_isWord_of_underscore ?_ h).elim
      rw [String.toList_append]
      exact List.mem_append_left _ (Name.underscore_mem _)
  · rw [hGiven] at h
    exact (Name.not_isWord_numbered base k h).elim

/- A wanted name is given out if it is free. -/
theorem claimMethod_of_not_mem
    {names : Name.Registry}
    {e : Endpoint}
    (h : wantedName e ∉ names.taken) :
    (claimMethod names e).1 = wantedName e := by
  have hHas : names.has (wantedName e) = false :=
    decide_eq_false h
  unfold claimMethod
  simp only [hHas]
  exact names.claim_eq_of_not_mem h

/- Methods are named by a word if some endpoint wants it. -/
theorem mem_methodNamesFrom_iff
    {word : String}
    (hWord : Name.IsWord word)
    {names : Name.Registry}
    (hFree : word ∉ names.taken)
    (endpoints : List Endpoint) :
    word ∈ methodNamesFrom names endpoints ↔
      ∃ e ∈ endpoints, wantedName e = word := by
  induction endpoints generalizing names with
  | nil => simp [methodNamesFrom]
  | cons e es ih =>
      rw [methodNamesFrom, List.mem_cons, List.exists_mem_cons_iff]
      by_cases hGiven : word = (claimMethod names e).1
      · have hWanted : wantedName e = word := by
          rw [hGiven]
          rw [hGiven] at hWord
          exact wantedName_of_claimMethod hWord
        exact iff_of_true (Or.inl hGiven) (Or.inl hWanted)
      · have hOther : wantedName e ≠ word := by
          intro hWanted
          apply hGiven
          rw [← hWanted] at hFree ⊢
          exact (claimMethod_of_not_mem hFree).symm
        have hLater : word ∉ (claimMethod names e).2.taken := by
          rw [(claimMethod_fresh names e).2]
          exact not_or.2 ⟨hGiven, hFree⟩ ∘ List.mem_cons.1
        rw [or_iff_right hGiven, or_iff_right hOther, ih hLater]

/- A free word is wanted if it is the spelling of the name. -/
theorem wantedName_eq_iff
    {word : String}
    (h : IsFreeWord word)
    (e : Endpoint) :
    wantedName e = word ↔ Name.snake e.funcName = word := by
  unfold wantedName Name.avoid
  split
  next hReserved =>
    constructor
    · intro hWanted
      have hMem := Name.underscore_mem (Name.snake e.funcName)
      rw [hWanted] at hMem
      exact (Name.not_isWord_of_underscore hMem h.isWord).elim
    · intro hSnake
      rw [hSnake] at hReserved
      rcases hReserved with hMem | hMem
      · exact (h.not_keyword hMem).elim
      · exact (h.not_member hMem).elim
  next hFree => exact Iff.rfl

------------------------------------------------------------
-- Paths
------------------------------------------------------------

/- Only one method has the text of GET. -/
theorem verb_ne_get
    {m : Schema.Method}
    (h : m ≠ .get) : m.verb ≠ "GET" := by
  cases m with
  | get => exact (h rfl).elim
  | _ => decide

/- A method other than GET has a small letter in its name. -/
theorem exists_small_title
    {m : Schema.Method}
    (h : m ≠ .get) :
    ∃ a cs, Text.title m.verb.toList = a :: cs ∧
      ∃ d ∈ cs, d.isLower = true := by
  have hTail : (Text.title m.verb.toList).tail.any Char.isLower =
      true := by
    cases m with
    | get => exact (h rfl).elim
    | _ => decide
  cases hTitle : Text.title m.verb.toList with
  | nil =>
      rw [hTitle] at hTail
      cases hTail
  | cons a cs =>
      rw [hTitle] at hTail
      exact ⟨a, cs, rfl, List.any_eq_true.1 hTail⟩

/- The name of a method other than GET spells no word. -/
theorem funcNameOf_not_mem_spellings
    {word : String}
    (hWord : Name.IsWord word)
    {m : Schema.Method}
    (h : m ≠ .get)
    (path : RawText) :
    Endpoint.funcNameOf m.text path ∉ Name.spellings word := by
  intro hMem
  rcases exists_small_title h with ⟨a, cs, hTitle, d, hd, hSmall⟩
  have hVerb := verb_ne_get h
  have hName : (Endpoint.funcNameOf m.text path).toList =
      a :: (cs ++ (Endpoint.pathName path).toList) := by
    simp only [Endpoint.funcNameOf, Endpoint.capitals_text,
      if_neg hVerb, String.toList_append, String.toList_ofList,
      hTitle, List.cons_append]
  have hTail := Name.tail_of_mem_spellings hWord hMem
  rw [hName, List.tail_cons] at hTail
  rcases (Endpoint.isPascal_pathName path).exists_cons with
    ⟨p, ps, hPath, hCapital, _⟩
  rw [hPath] at hTail
  rcases hTail with hTail | hTail
  · -- the path starts with a capital
    have hp := hTail p
      (List.mem_append_right cs List.mem_cons_self)
    rw [Name.isUpper_of_isLower hp] at hCapital
    cases hCapital
  · -- the method goes on with a small letter
    have hUpper := hTail d (List.mem_append_left _ hd)
    rw [Name.isUpper_of_isLower hSmall] at hUpper
    cases hUpper

/- The name of a method and a path spells a word. -/
theorem snake_funcNameOf_eq_iff
    {word : String}
    (hWord : Name.IsWord word)
    (m : Schema.Method)
    (path : RawText) :
    Name.snake (Endpoint.funcNameOf m.text path) = word ↔
      m = .get ∧ Endpoint.pathName path ∈ Name.spellings word := by
  rw [Name.snake_eq_iff (Endpoint.isPascal_funcNameOf m path) hWord]
  by_cases hGet : m = .get
  · have hName : Endpoint.funcNameOf m.text path =
        Endpoint.pathName path := by
      rw [hGet, Endpoint.funcNameOf, Endpoint.capitals_text]
      exact if_pos rfl
    rw [hName, and_iff_right hGet]
  · exact iff_of_false
      (funcNameOf_not_mem_spellings hWord hGet path)
      fun hBoth => hGet hBoth.1

/- A path that can be requested with GET. -/
def OffersGet (schema : Schema) (path : RawText) : Prop :=
  ∃ item operation, (path, item) ∈ schema.paths ∧
    (Schema.Method.get, operation) ∈ item

/-
  A method of a client is named by a word that is not reserved if
  and only if a path that can be requested with GET spells it.
-/
theorem mem_methodNames_iff
    {word : String}
    (hWord : IsFreeWord word)
    (schema : Schema) :
    word ∈ methodNames (Endpoint.ofSchema schema) ↔
      ∃ path, OffersGet schema path ∧
        Endpoint.pathName path ∈ Name.spellings word := by
  have hNone : word ∉ Name.Registry.empty.taken :=
    List.not_mem_nil
  rw [methodNames, mem_methodNamesFrom_iff hWord.isWord hNone]
  constructor
  · rintro ⟨e, hMem, hWanted⟩
    rcases Endpoint.mem_ofSchema.1 hMem with
      ⟨⟨path, item⟩, hItem, ⟨m, operation⟩, hOperation, rfl⟩
    have hSnake := (wantedName_eq_iff hWord _).1 hWanted
    rcases (snake_funcNameOf_eq_iff hWord.isWord m path).1 hSnake
      with ⟨rfl, hSpelled⟩
    exact ⟨path, ⟨item, operation, hItem, hOperation⟩, hSpelled⟩
  · rintro ⟨path, ⟨item, operation, hItem, hOperation⟩, hSpelled⟩
    let e := Endpoint.ofOperation path .get operation
    have hMem : e ∈ Endpoint.ofSchema schema :=
      Endpoint.mem_ofSchema.2
        ⟨(path, item), hItem, (.get, operation), hOperation, rfl⟩
    have hSnake : Name.snake e.funcName = word :=
      (snake_funcNameOf_eq_iff hWord.isWord .get path).2
        ⟨rfl, hSpelled⟩
    exact ⟨e, hMem, (wantedName_eq_iff hWord e).2 hSnake⟩

------------------------------------------------------------
-- Types
------------------------------------------------------------

/-
  The types that annotations of methods are written with, besides
  records: those of kinds of values, and that of a response that
  is not decoded.
-/
def annotationTypes : List String :=
  kindTypes.map Prod.snd ++ [returnType none]

/- Every kind of values is annotated with one of these types. -/
theorem kindType_mem_annotationTypes (kind : String) :
    kindType kind ∈ annotationTypes := by
  unfold kindType
  cases hFound : kindTypes.lookup kind with
  | none => decide
  | some type =>
      rcases List.lookup_eq_some_iff.1 hFound with
        ⟨before, after, hSplit, _⟩
      apply List.mem_append_left
      rw [hSplit, List.map_append, List.map_cons]
      exact List.mem_append_right _ List.mem_cons_self

theorem isFreeWord_annotationTypes :
    ∀ type ∈ annotationTypes, IsFreeWord type := by
  decide

/- A client in which no method hides one of the types. -/
def KeepsTypes (schema : Schema) : Prop :=
  ∀ type ∈ annotationTypes,
    type ∉ methodNames (Endpoint.ofSchema schema)

/-
  A client keeps the types if and only if no path that can be
  requested with GET is spelled like one of them.
-/
theorem keepsTypes_iff (schema : Schema) :
    KeepsTypes schema ↔
      ∀ path, OffersGet schema path →
        Endpoint.pathName path ∉
          annotationTypes.flatMap Name.spellings := by
  constructor
  · intro hKeeps path hGet hMem
    rcases List.mem_flatMap.1 hMem with ⟨type, hType, hSpelled⟩
    apply hKeeps type hType
    have hFree := isFreeWord_annotationTypes type hType
    exact (mem_methodNames_iff hFree schema).2
      ⟨path, hGet, hSpelled⟩
  · intro hPaths type hType hMem
    have hFree := isFreeWord_annotationTypes type hType
    rcases (mem_methodNames_iff hFree schema).1 hMem with
      ⟨path, hGet, hSpelled⟩
    exact hPaths path hGet
      (List.mem_flatMap.2 ⟨type, hType, hSpelled⟩)

/- The names of paths that hide a type. -/
example : annotationTypes.flatMap Name.spellings =
    ["Int", "INT", "Float", "FLOAT", "Bool", "BOOL", "Str",
      "STR", "Bytes", "BYTES"] := by
  decide

/-
  A document with a path that is spelled like a type, and with a
  parameter of that type behind it.
-/
def strDocument : Document :=
  let parameter : Document :=
    .mapping [(.ofString "name", .ofString "q")]
  .mapping
    [(.ofString "paths",
      .mapping
        [(.ofString "/str",
            .mapping [(.ofString "get", .mapping [])]),
          (.ofString "/users",
            .mapping
              [(.ofString "get",
                .mapping
                  [(.ofString "parameters",
                    .list [parameter])])])])]

/- The schema with a path that is spelled like a type. -/
def strSchema : Schema :=
  ⟨"", "",
    [("/str", [(.get, ⟨[], []⟩)]),
      ("/users", [(.get, ⟨[⟨"q", "query", "string"⟩], []⟩)])]⟩

/- A method hides the type of texts. -/
theorem not_keepsTypes_str :
    Schema.ofDocument strDocument = .ok strSchema ∧
      ¬ KeepsTypes strSchema := by
  refine ⟨rfl, fun hKeeps => ?_⟩
  have hType : "str" ∈ annotationTypes := by
    decide
  have hFree := isFreeWord_annotationTypes "str" hType
  apply hKeeps "str" hType
  refine (mem_methodNames_iff hFree strSchema).2 ⟨"/str", ?_, ?_⟩
  · exact ⟨[(.get, ⟨[], []⟩)], ⟨[], []⟩, List.mem_cons_self,
      List.mem_cons_self⟩
  · decide

end Emit

end TypedClient
