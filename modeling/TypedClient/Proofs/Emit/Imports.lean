import TypedClient.Emit.Client
import TypedClient.Proofs.Emit.Classes

/-
  This file shows which records an emitted client imports.  The
  lines above the first class of the client are read back as they
  were emitted, and the import among them lists the records that
  responses are decoded to, each once, in order.

  Key definitions include:
    * `Emit.importedNames`
    * `Emit.decodedRecords`

  Key theorems include:
    * `Emit.preambleOf_client`
    * `Emit.importedNames_client`
    * `Emit.mem_decodedRecords`
    * `Emit.pairwise_decodedRecords`
-/

namespace TypedClient

namespace Emit

------------------------------------------------------------
-- Imports
------------------------------------------------------------

/- The lines of a unit above its first class. -/
def preambleOf (unit : RawText) : List RawText :=
  (linesOf unit).takeWhile fun line => (className? line).isNone

/- The line above the records that a client imports. -/
def importMark : String :=
  "from .models import ("

/- The letters and digits of a line. -/
def lettersOf (line : RawText) : String :=
  RawText.blanked (line.filter fun p => p.isChar Char.isAlphanum)

/- The names that are listed in the import of a preamble. -/
def listedNames (preamble : List RawText) : List String :=
  (((preamble.dropWhile (· ≠ RawText.ofString importMark)).drop
    1).takeWhile (· ≠ RawText.ofString ")")).map lettersOf

/- The records that a client imports, in order. -/
def importedNames (unit : RawText) : List String :=
  listedNames (preambleOf unit)

/- The line that lists a record in an import. -/
def itemLine (name : String) : String :=
  "    " ++ name ++ ","

theorem isPlain_itemLine
    {name : String}
    (h : Name.IsPascal name) : IsPlain (itemLine name) := by
  constructor
  · exact (OneLine.append (by decide)
      (oneLine_of_isPascal h)).append (by decide)
  · apply className?_ofString_eq_none
    simp [itemLine, String.toList_append]

theorem itemLine_ne (name : String) : itemLine name ≠ ")" := by
  intro hEq
  have hHead := congrArg (fun s => s.toList.head?) hEq
  simp [itemLine, String.toList_append] at hHead

/- The name of a record is read back from its line. -/
theorem lettersOf_itemLine
    {name : String}
    (h : Name.IsPascal name) :
    lettersOf (itemLine name) = name := by
  have hName : (RawText.ofString name).filter
      (fun p => p.isChar Char.isAlphanum) = name := by
    rw [List.filter_eq_self]
    intro p hp
    rcases RawText.mem_ofString.1 hp with ⟨c, hc, rfl⟩
    exact h.isAlphanum c hc
  have hMargin : (RawText.ofString "    ").filter
      (fun p => p.isChar Char.isAlphanum) = [] := by
    decide
  have hEnd : (RawText.ofString ",").filter
      (fun p => p.isChar Char.isAlphanum) = [] := by
    decide
  rw [lettersOf, itemLine, RawText.ofString_append,
    RawText.ofString_append, List.filter_append,
    List.filter_append, hName, hMargin, hEnd, List.nil_append,
    List.append_nil, RawText.blanked_ofString]

------------------------------------------------------------
-- Preambles
------------------------------------------------------------

variable {records : List String}

/- The lines above the import of a client. -/
def clientHead : List String :=
  [header,
    "",
    "from typing import Any",
    "",
    "import requests",
    "from pydantic import ValidationError"]

theorem clientPreamble_nil :
    clientPreamble [] = clientHead ++ ["", ""] :=
  rfl

/- With records, the import lists each of them. -/
theorem clientPreamble_of_ne_nil
    (h : records ≠ []) :
    clientPreamble records =
      clientHead ++ "" :: importMark ::
        (records.map itemLine ++ [")", "", ""]) := by
  cases records with
  | nil => exact (h rfl).elim
  | cons name names =>
      have hItems : (fun r => "    " ++ r ++ ",") = itemLine := rfl
      simp only [clientPreamble, importLines, List.isEmpty_cons,
        Bool.false_eq_true, if_false, hItems, List.append_assoc]
      rfl

/- What holds of the fixed lines above a client and of items. -/
theorem forall_mem_clientPreamble
    {P : String → Prop}
    (hHead : ∀ l ∈ clientHead, P l)
    (hFixed : ∀ l ∈ ["", importMark, ")"], P l)
    (hItem : ∀ name ∈ records, P (itemLine name))
    {line : String}
    (hLine : line ∈ clientPreamble records) : P line := by
  by_cases hNone : records = []
  · rw [hNone, clientPreamble_nil] at hLine
    rcases List.mem_append.1 hLine with hLine | hLine
    · exact hHead line hLine
    · simp only [List.mem_cons, List.not_mem_nil, or_false,
        or_self] at hLine
      exact hFixed line (hLine ▸ List.mem_cons_self)
  · rw [clientPreamble_of_ne_nil hNone] at hLine
    simp only [List.mem_append, List.mem_cons, List.mem_map,
      List.not_mem_nil, or_false] at hLine
    rcases hLine with hLine | rfl | rfl |
      ⟨name, hName, rfl⟩ | rfl | rfl | rfl
    · exact hHead line hLine
    · exact hFixed _ (by decide)
    · exact hFixed _ (by decide)
    · exact hItem name hName
    · exact hFixed _ (by decide)
    · exact hFixed _ (by decide)
    · exact hFixed _ (by decide)

/- The lines above a client define no class. -/
theorem isPlain_of_mem_clientPreamble
    (h : ∀ name ∈ records, Name.IsPascal name)
    {line : RawText}
    (hLine : line ∈ plain (clientPreamble records)) :
    IsPlain line := by
  rcases List.mem_map.1 hLine with ⟨s, hs, rfl⟩
  have hHead : ∀ l ∈ clientHead, IsPlain l := by
    decide
  have hFixed : ∀ l ∈ ["", importMark, ")"], IsPlain l := by
    decide
  exact forall_mem_clientPreamble hHead hFixed
    (fun name hName => isPlain_itemLine (h name hName)) hs

/- The records of an import are read back from its lines. -/
theorem listedNames_clientPreamble
    (h : ∀ name ∈ records, Name.IsPascal name) :
    listedNames (plain (clientPreamble records)) = records := by
  by_cases hNone : records = []
  · rw [hNone, clientPreamble_nil]
    decide
  · have hHead : ∀ l ∈ plain clientHead ++ plain [""],
        decide (l ≠ RawText.ofString importMark) = true := by
      decide
    have hItems : ∀ l ∈ plain (records.map itemLine),
        decide (l ≠ RawText.ofString ")") = true := by
      intro l hl
      rw [plain, List.map_map] at hl
      rcases List.mem_map.1 hl with ⟨name, _, rfl⟩
      exact decide_eq_true fun hEq =>
        itemLine_ne name (RawText.ofString_injective hEq)
    rw [clientPreamble_of_ne_nil hNone, listedNames,
      List.append_cons, plain_append, plain_append,
      plain_cons importMark,
      List.dropWhile_append_of_pos hHead,
      List.dropWhile_cons_of_neg (by simp), List.drop_one,
      List.tail_cons, plain_append,
      List.takeWhile_append_of_pos hItems, plain_cons,
      List.takeWhile_cons_of_neg (by simp),
      List.append_nil, plain, List.map_map, List.map_map]
    calc
      records.map (lettersOf ∘ RawText.ofString ∘ itemLine) =
          records.map id :=
        List.map_congr_left fun name hName =>
          lettersOf_itemLine (h name hName)
      _ = records := List.map_id records

theorem importMark_mem_clientPreamble :
    importMark ∈ clientPreamble records ↔ records ≠ [] := by
  constructor
  · rintro hMark rfl
    rw [clientPreamble_nil] at hMark
    exact absurd hMark (by decide)
  · intro hSome
    rw [clientPreamble_of_ne_nil hSome]
    simp

------------------------------------------------------------
-- Clients
------------------------------------------------------------

/- The records that responses are decoded to, in order. -/
def decodedRecords
    (endpoints : List Endpoint)
    (shapes : List (RawText × Shape)) : List String :=
  sortedOnce (((endpoints.map (responseRecord? shapes)).filterMap
    id).filter fun r => !r.isEmpty)

variable {endpoints : List Endpoint}
variable {shapes : List (RawText × Shape)}

/- The lines above the first class of a client. -/
theorem preambleOf_client
    (h : ∀ name ∈ decodedRecords endpoints shapes,
      Name.IsPascal name) :
    preambleOf (client endpoints shapes) =
      plain
        (clientPreamble (decodedRecords endpoints shapes)) := by
  have hPlain : ∀ line ∈
      plain (clientPreamble (decodedRecords endpoints shapes)),
        IsPlain line :=
    fun line hLine => isPlain_of_mem_clientPreamble h hLine
  have hFirst : OneLine "class ApiError(Exception):" := by
    decide
  have hClass :
      className? "class ApiError(Exception):" ≠ none := by
    decide
  have hClient : ∃ lines, client endpoints shapes =
      unitText
        (plain (clientPreamble (decodedRecords endpoints shapes)) ++
          RawText.ofString "class ApiError(Exception):" ::
            lines) := by
    rw [client, clientLines, plain_append, List.append_assoc]
    exact ⟨_, rfl⟩
  rcases hClient with ⟨lines, hClient⟩
  rcases exists_linesOf_unitText hFirst lines with
    ⟨others, hOthers⟩
  have hPreamble : ∀ line ∈
      plain (clientPreamble (decodedRecords endpoints shapes)),
        (className? line).isNone = true := by
    intro line hLine
    rw [(hPlain line hLine).className?]
    rfl
  rw [preambleOf, hClient,
    linesOf_unitText_append (fun l hl => (hPlain l hl).oneLine)
      (List.cons_ne_nil _ _),
    hOthers, List.takeWhile_append_of_pos hPreamble,
    List.takeWhile_cons_of_neg (by simpa using hClass),
    List.append_nil]

/- The records that a client imports are those it decodes to. -/
theorem importedNames_client
    (h : ∀ name ∈ decodedRecords endpoints shapes,
      Name.IsPascal name) :
    importedNames (client endpoints shapes) =
      decodedRecords endpoints shapes := by
  rw [importedNames, preambleOf_client h,
    listedNames_clientPreamble h]

------------------------------------------------------------
-- Decoded records
------------------------------------------------------------

/- Without repetitions, texts are pairwise distinct. -/
theorem nodup_eraseDups (texts : List String) :
    texts.eraseDups.Nodup := by
  induction hLength : texts.length using Nat.strongRecOn
    generalizing texts with
  | ind n ih =>
      cases texts with
      | nil => exact List.Pairwise.nil
      | cons s ss =>
          rw [List.eraseDups_cons]
          refine List.nodup_cons.2 ⟨?_, ?_⟩
          · rw [List.mem_eraseDups, List.mem_filter]
            simp
          · refine ih _ ?_ _ rfl
            have hLe := List.length_filter_le
              (fun b => !b == s) ss
            rw [← hLength, List.length_cons]
            omega

theorem mem_sortedOnce
    {texts : List String}
    {s : String} : s ∈ sortedOnce texts ↔ s ∈ texts := by
  rw [sortedOnce, List.mem_mergeSort, List.mem_eraseDups]

/- Texts in order, each once, go up strictly. -/
theorem pairwise_sortedOnce (texts : List String) :
    (sortedOnce texts).Pairwise (· < ·) := by
  have hTrans : ∀ s t u : String, decide (s ≤ t) = true →
      decide (t ≤ u) = true → decide (s ≤ u) = true :=
    fun s t u hst htu => decide_eq_true
      (String.le_trans (of_decide_eq_true hst)
        (of_decide_eq_true htu))
  have hTotal : ∀ s t : String,
      (decide (s ≤ t) || decide (t ≤ s)) = true := by
    intro s t
    simp [String.le_total]
  have hSorted : (sortedOnce texts).Pairwise fun s t =>
      decide (s ≤ t) = true :=
    List.pairwise_mergeSort hTrans hTotal texts.eraseDups
  have hNodup : (sortedOnce texts).Nodup :=
    (List.mergeSort_perm _ _).nodup_iff.2 (nodup_eraseDups texts)
  exact hSorted.imp₂
    (fun s t hLe hNe =>
      Std.lt_of_le_of_ne (of_decide_eq_true hLe) hNe) hNodup

/- The record of an endpoint is one of the shapes of responses. -/
theorem mem_of_responseRecord?
    {e : Endpoint}
    {name : String}
    (h : responseRecord? shapes e = some name) :
    (e.key, Shape.record name) ∈ shapes := by
  rcases Option.bind_eq_some_iff.1 h with ⟨shape, hLookup, hName⟩
  cases shape <;> cases hName
  rcases List.lookup_eq_some_iff.1 hLookup with
    ⟨front, behind, rfl, _⟩
  exact List.mem_append_right front List.mem_cons_self

/- A record is decoded if some endpoint responds with it. -/
theorem mem_decodedRecords
    {name : String} :
    name ∈ decodedRecords endpoints shapes ↔
      name ≠ "" ∧ ∃ e ∈ endpoints,
        responseRecord? shapes e = some name := by
  rw [decodedRecords, mem_sortedOnce, List.mem_filter,
    List.mem_filterMap]
  simp [and_comm]

end Emit

end TypedClient
