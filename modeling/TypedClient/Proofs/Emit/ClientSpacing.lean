import TypedClient.Proofs.Emit.Foreign
import TypedClient.Proofs.Emit.Spacing

/-
  This file shows that formatting leaves a client as it is if it
  has a method and nothing in the paths of its endpoints ends a
  line.  The class ends with an empty line, and one more stands in
  front of each method; so there are two of them in front of the
  first method.

  Key definitions include:
    * `Emit.classLines`
    * `Emit.KeepsLines`

  Key theorems include:
    * `Emit.isFull_of_mem_methodLines`
    * `Emit.isSpaced_classLines`
    * `Emit.exists_clientLines`
    * `Emit.staysAsIs_client`
-/

namespace TypedClient

namespace Emit

open Source (StaysAsIs)

------------------------------------------------------------
-- Methods
------------------------------------------------------------

section

variable {e : Endpoint}
variable {name : String}
variable {line : RawText}
variable {record : Option String}

/- Nothing ends a line in a docstring if nothing does in its path. -/
theorem isUnbroken_docstringLine
    (hMethod : Printable e.method)
    (hPath : IsUnbroken e.path) :
    IsUnbroken (docstringLine e) := by
  intro c hc
  by_cases hPrintable : Text.IsPrintable c
  · exact isLineBoundary_of_isPrintable hPrintable
  · have hOther : IsUnprintable (.scalar c) := fun d hd hEq =>
      hPrintable (CodePoint.scalar.inj hEq ▸ hd)
    exact hPath c ((mem_docstringLine_iff hOther hMethod).1 hc)

/- Every line that makes a request ends visibly if it does. -/
theorem endsShown_of_mem_requestLines
    {request line : String}
    (hRequest : EndsShown request)
    (h : line ∈ requestLines request record) :
    EndsShown line := by
  cases record with
  | none =>
      rw [List.mem_singleton.1 h]
      exact endsShown_append hRequest _
  | some r =>
      simp only [requestLines, decodingLines, List.mem_cons,
        List.not_mem_nil, or_false] at h
      rcases h with rfl | rfl | rfl | rfl | rfl
      · exact endsShown_append hRequest _
      · decide
      · exact endsShown_append (by decide) _
      · decide
      · exact endsShown_append (by decide) _

theorem endsShown_of_mem_methodLines
    (h : line ∈ methodLines e name record) : EndsShown line := by
  rcases List.mem_cons.1 h with rfl | h
  · exact endsShown_append (by decide) _
  rcases List.mem_cons.1 h with rfl | h
  · exact EndsShown.behind (by decide) _
  rcases List.mem_map.1 h with ⟨s, hs, rfl⟩
  exact endsShown_of_mem_requestLines
    (endsShown_append (by decide) _) hs

/- The lines of a method of a printable record are full. -/
theorem isFull_of_mem_methodLines
    (hMethod : Printable e.method)
    (hPath : IsUnbroken e.path)
    (hName : Printable name)
    (hRecord : ∀ r, record = some r → Printable r)
    (h : line ∈ methodLines e name record) : IsFull line := by
  refine ⟨?_, endsShown_of_mem_methodLines h⟩
  rcases printable_of_mem_methodLines hName hRecord h with
    ⟨s, hPrintable, rfl⟩ | rfl
  · exact isUnbroken_of_printable hPrintable
  · exact isUnbroken_docstringLine hMethod hPath

end

------------------------------------------------------------
-- Lines above the methods
------------------------------------------------------------

/- The lines of the class up to the empty one in front of methods. -/
def classLines : List String :=
  clientBase.dropLast

/- An empty line stands between the class and its methods. -/
theorem clientBase_eq_append : clientBase = classLines ++ [""] :=
  rfl

theorem forall_isTrimmed_cons
    {cs : List Char}
    {lines : List String}
    (h : IsTrimmed (.ofChars cs))
    (hLines : ∀ line ∈ lines, IsTrimmed line) :
    ∀ line ∈ String.ofList cs :: lines, IsTrimmed line := by
  refine List.forall_mem_cons.2 ⟨?_, hLines⟩
  rw [RawText.ofString_ofList]
  exact h

theorem isTrimmed_clientBase :
    ∀ line ∈ clientBase, IsTrimmed line := by
  unfold clientBase
  repeat
    apply forall_isTrimmed_cons (by decide)
  exact List.forall_mem_nil _

theorem getLast?_classLines :
    classLines.getLast? = some "        return resp.content" :=
  rfl

/- The class is spaced, with two empty lines in front of it. -/
theorem isSpaced_classLines :
    IsSpaced (plain ("" :: "" :: classLines)) where
  unbroken := by
    intro line hLine
    rcases List.mem_map.1 hLine with ⟨s, hs, rfl⟩
    refine isUnbroken_of_printable ?_
    simp only [List.mem_cons] at hs
    rcases hs with rfl | rfl | hs
    · decide
    · decide
    · exact printable_clientBase s (List.dropLast_subset _ hs)
  trimmed := by
    intro line hLine
    rcases List.mem_map.1 hLine with ⟨s, hs, rfl⟩
    simp only [List.mem_cons] at hs
    rcases hs with rfl | rfl | hs
    · rfl
    · rfl
    · exact isTrimmed_clientBase s (List.dropLast_subset _ hs)
  few := by
    apply Source.fewEmpty_of_limitEmpty
    exact limitEmpty_of_hasFew (by decide)
  last := by
    rw [plain, List.getLast?_map, List.getLast?_cons,
      List.getLast?_cons, getLast?_classLines]
    decide

section

variable {records : List String}

/- The lines above the import of a client are spaced. -/
theorem isSpaced_clientHead : IsSpaced (plain clientHead) := by
  have hHeader : IsSpaced (plain [header]) :=
    isSpaced_printable 0 (by decide) (List.cons_ne_nil _ _)
      (by decide)
  have hTyping : IsSpaced (plain ["", "from typing import Any"]) :=
    isSpaced_printable 1 (by decide) (List.cons_ne_nil _ _)
      (by decide)
  have hOthers : IsSpaced (plain ["", "import requests",
      "from pydantic import ValidationError"]) :=
    isSpaced_printable 1 (by decide) (List.cons_ne_nil _ _)
      (by decide)
  exact hHeader.append (hTyping.append hOthers)

/- The import of printable records is a block. -/
theorem isSpaced_import
    (h : ∀ r ∈ records, Printable r) :
    IsSpaced (plain
      ("" :: importMark :: (records.map itemLine ++ [")"]))) := by
  refine isSpaced_printable 1 (by decide) (List.cons_ne_nil _ _) ?_
  refine List.forall_mem_cons.2 ⟨by decide, ?_⟩
  refine List.forall_mem_append.2
    ⟨fun line hLine => ?_, by decide⟩
  rcases List.mem_map.1 hLine with ⟨r, hr, rfl⟩
  exact ⟨(Printable.append (by decide) (h r hr)).append (by decide),
    endsShown_append (by decide) _⟩

/- The lines above the class are spaced, but for the last two. -/
theorem exists_clientPreamble
    (h : ∀ r ∈ records, Printable r) :
    ∃ others,
      clientPreamble records = header :: others ++ ["", ""] ∧
        IsSpaced (plain (header :: others)) := by
  by_cases hNone : records = []
  · rw [hNone, clientPreamble_nil]
    exact ⟨_, rfl, isSpaced_clientHead⟩
  · rw [clientPreamble_of_ne_nil hNone]
    refine ⟨clientHead.tail ++
      "" :: importMark :: (records.map itemLine ++ [")"]), ?_, ?_⟩
    · simp [clientHead]
    · have hBoth := isSpaced_clientHead.append (isSpaced_import h)
      rwa [← plain_append] at hBoth

end

------------------------------------------------------------
-- Clients
------------------------------------------------------------

section

variable {endpoints : List Endpoint}
variable {shapes : List (RawText × Shape)}

/- Endpoints for which nothing breaks the lines of their methods. -/
structure KeepsLines
    (endpoints : List Endpoint)
    (shapes : List (RawText × Shape)) : Prop where
  methods : ∀ e ∈ endpoints, Printable e.method
  paths : ∀ e ∈ endpoints, IsUnbroken e.path
  names : ∀ name ∈ methodNames endpoints, Printable name
  records : ∀ e ∈ endpoints, ∀ r,
    responseRecord? shapes e = some r → Printable r

/- The lines for an endpoint are a block, behind a blank line. -/
theorem exists_block_of_mem_methodBlocks
    (hKeeps : KeepsLines endpoints shapes)
    {block : List RawText}
    (h : block ∈ methodBlocks endpoints shapes) :
    ∃ lines, block = [] :: lines ∧ lines ≠ [] ∧
      ∀ line ∈ lines, IsFull line := by
  rcases exists_of_mem_methodBlocks h with
    ⟨e, he, name, hName, d, hd, rfl⟩
  refine ⟨_, rfl, List.cons_ne_nil _ _, fun line hLine => ?_⟩
  exact isFull_of_mem_methodLines (hKeeps.methods e he)
    (hKeeps.paths e he) (hKeeps.names name hName)
    (hKeeps.records d hd) hLine

/- The lines of a client with methods are spaced. -/
theorem exists_clientLines
    (hSome : endpoints ≠ [])
    (hKeeps : KeepsLines endpoints shapes) :
    ∃ others : List RawText,
      clientLines endpoints shapes = .ofString header :: others ∧
        IsSpaced (.ofString header :: others) := by
  have hBlocks (block : List RawText)
      (hBlock : block ∈ methodBlocks endpoints shapes) :=
    exists_block_of_mem_methodBlocks hKeeps hBlock
  rcases exists_clientPreamble fun r hr =>
      printable_of_mem_decodedRecords hKeeps.records hr with
    ⟨others, hPreamble, hAbove⟩
  have hLength : (methodBlocks endpoints shapes).length =
      endpoints.length := by
    simp [methodBlocks, length_methodNamesFrom, methodNames]
  cases hAll : methodBlocks endpoints shapes with
  | nil =>
      rw [hAll] at hLength
      exact (hSome (List.length_eq_zero_iff.1 hLength.symm)).elim
  | cons block blocks =>
      rw [hAll] at hBlocks
      rcases hBlocks block List.mem_cons_self with
        ⟨lines, rfl, hLines, hFull⟩
      -- the empty line at the end of the class is one of the two
      have hFirst : IsSpaced ([] :: [] :: lines) :=
        isSpaced_block 2 (by decide) hLines hFull
      have hOthers : IsSpaced blocks.flatten := by
        apply isSpaced_flatten
        intro other hOther
        rcases hBlocks other (List.mem_cons_of_mem _ hOther) with
          ⟨more, rfl, hMore, hMoreFull⟩
        exact isSpaced_block 1 (by decide) hMore hMoreFull
      refine ⟨plain others ++ plain ("" :: "" :: classLines) ++
        ([] :: [] :: lines) ++ blocks.flatten, ?_, ?_⟩
      · rw [clientLines_eq_append, hAll, hPreamble,
          clientBase_eq_append]
        simp [plain, RawText.ofString, RawText.ofChars]
      · exact ((hAbove.append isSpaced_classLines).append
          hFirst).append hOthers

/- Formatting leaves a client with methods as it is. -/
theorem staysAsIs_client
    (hSome : endpoints ≠ [])
    (hKeeps : KeepsLines endpoints shapes) :
    StaysAsIs (client endpoints shapes) := by
  rcases exists_clientLines hSome hKeeps with
    ⟨others, hLines, hSpaced⟩
  rw [client, hLines]
  exact hSpaced.staysAsIs isFull_header

end

end Emit

end TypedClient
