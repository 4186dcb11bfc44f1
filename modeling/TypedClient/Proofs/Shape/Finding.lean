import TypedClient.Proofs.Json.Order
import TypedClient.Proofs.Shape.Table
import TypedClient.Shape.Infer

/-
  This file separates what an inference finds from the table that
  it works on.  A finding is a result with the records that were
  found on the way, in the order in which they are put into a
  table; inference on any table puts in the records of one and
  the same finding.

  Key definitions include:
    * `Shape.Finding`
    * `Shape.find`
    * `Shape.findResponse`

  Key theorems include:
    * `Shape.Finding.result_andThen`
    * `Shape.Finding.mem_records_andThen`
    * `Shape.infer_eq_onto`
    * `Shape.find_induction`
-/

namespace TypedClient

namespace Shape

------------------------------------------------------------
-- Findings
------------------------------------------------------------

/- A result and the records that were found on the way to it. -/
structure Finding (α : Type) where
  result : Option α
  records : List Record

namespace Finding

variable {α β : Type}

/- A finding without records. -/
def plain (result : Option α) : Finding α :=
  ⟨result, []⟩

/- Change the result of a finding. -/
def map (f : α → β) (found : Finding α) : Finding β :=
  ⟨found.result.map f, found.records⟩

/- Go on with the result of a finding, if there is one. -/
def andThen
    (found : Finding α)
    (next : α → Finding β) : Finding β :=
  match found.result with
  | none => ⟨none, found.records⟩
  | some a => ⟨(next a).result, found.records ++ (next a).records⟩

/- The inference that puts the records of a finding in a table. -/
def onto (found : Finding α) (table : Table) : Inference α :=
  ⟨found.result, table.insertAll found.records⟩

/- A result goes on from a result. -/
theorem result_andThen
    {found : Finding α}
    {next : α → Finding β}
    {b : β} :
    (found.andThen next).result = some b ↔
      ∃ a, found.result = some a ∧ (next a).result = some b := by
  unfold andThen
  split
  next hNone => simp [hNone]
  next a hSome => simp [hSome]

/- The records of what goes on lie behind those found before. -/
theorem mem_records_andThen
    {found : Finding α}
    {next : α → Finding β}
    {r : Record} :
    r ∈ (found.andThen next).records ↔
      r ∈ found.records ∨
        ∃ a, found.result = some a ∧ r ∈ (next a).records := by
  unfold andThen
  split
  next hNone => simp [hNone]
  next a hSome => simp [hSome]

theorem result_map
    {found : Finding α}
    {f : α → β}
    {b : β} :
    (found.map f).result = some b ↔
      ∃ a, found.result = some a ∧ f a = b :=
  Option.map_eq_some_iff

end Finding

------------------------------------------------------------
-- Search
------------------------------------------------------------

/- A search in one value below a name. -/
abbrev Find :=
  String → Json → Finding Shape

/- The fields for members, and the records below them. -/
def findFields
    (find : Find)
    (owner : String)
    (names attrs : Name.Registry) :
    List (RawText × Json) → Finding (List Field)
  | [] => .plain (some [])
  | (key, value) :: ms =>
      let name := names.claim (fieldName key)
      let attr := attrs.claim (Name.ofField name.1)
      (find (owner ++ name.1) value).andThen fun shape =>
        (findFields find owner name.2 attr.2 ms).map
          (⟨name.1, attr.1, shape, key⟩ :: ·)

/- The record of an object, behind the records below it. -/
def findRecord
    (find : Find)
    (name : String)
    (members : List (RawText × Json)) : Finding Shape :=
  (findFields find name .empty .empty members).andThen
    fun fields => ⟨some (record name), [⟨name, fields⟩]⟩

/- The shape of an object with members in the order of keys. -/
def findObject
    (find : Find)
    (name : String)
    (members : List (RawText × Json)) : Finding Shape :=
  match members with
  | [] => .plain (some (map untyped))
  | m :: ms =>
      if isNumbered (m :: ms) then
        (find (name ++ itemSuffix) m.2).map map
      else findRecord find name (m :: ms)

/- The shape of a value, and the records below it. -/
def find (budget : Nat) : Find :=
  fun name value =>
    match budget with
    | 0 => .plain none
    | budget + 1 =>
        match value with
        | .null => .plain (some untyped)
        | .bool _ => .plain (some (primitive .bool))
        | .int n => .plain (some (primitive (.ofInteger n)))
        | .double x => .plain (some (primitive (.ofDouble x)))
        | .string _ => .plain (some (primitive .text))
        | .array [] => .plain (some (list untyped))
        | .array (v :: _) =>
            (find budget (name ++ itemSuffix) v).map list
        | .object members =>
            match budget with
            | 0 => .plain none
            | budget + 1 =>
                findObject (find budget) name
                  (Json.sortMembers members)

/- What the response of an endpoint gives. -/
def findResponse (funcName : String) (value : Json) : Finding Shape :=
  find budget (funcName ++ responseSuffix) value

------------------------------------------------------------
-- Inference
------------------------------------------------------------

/- An inference puts the records of a search into the table. -/
def Searches (infer : Infer) (find : Find) : Prop :=
  ∀ name value table,
    infer name value table = (find name value).onto table

/- The fields of members are found by a search. -/
theorem fieldsFrom_eq_onto
    {infer : Infer}
    {find : Find}
    (h : Searches infer find)
    (owner : String)
    (names attrs : Name.Registry)
    (members : List (RawText × Json))
    (table : Table) :
    fieldsFrom infer owner names attrs members table =
      (findFields find owner names attrs members).onto table := by
  induction members generalizing names attrs table with
  | nil => rfl
  | cons m ms ih =>
      rcases m with ⟨key, value⟩
      let field := owner ++ (names.claim (fieldName key)).1
      have hFirst : infer field value table =
          (find field value).onto table :=
        h field value table
      simp only [field] at hFirst
      simp only [fieldsFrom, findFields, hFirst,
        Finding.andThen, Finding.onto]
      split
      next hNone => simp only [hNone]
      next shape hSome =>
        simp only [hSome, ih, Finding.onto, Finding.map,
          Inference.map, Table.insertAll_append]

/- The record of an object is found by a search. -/
theorem inferRecord_eq_onto
    {infer : Infer}
    {find : Find}
    (h : Searches infer find)
    (name : String)
    (members : List (RawText × Json))
    (table : Table) :
    inferRecord infer name members table =
      (findRecord find name members).onto table := by
  simp only [inferRecord, findRecord, fieldsFrom_eq_onto h,
    Finding.onto, Finding.andThen]
  split
  next hNone => simp only [hNone]
  next fields hSome =>
    simp only [hSome, Table.insertAll_concat]

/- The shape of an object is found by a search. -/
theorem inferObject_eq_onto
    {infer : Infer}
    {find : Find}
    (h : Searches infer find)
    (name : String)
    (members : List (RawText × Json))
    (table : Table) :
    inferObject infer name members table =
      (findObject find name members).onto table := by
  cases members with
  | nil => rfl
  | cons m ms =>
      simp only [inferObject, findObject]
      split
      · rw [h]
        rfl
      · exact inferRecord_eq_onto h name (m :: ms) table

/- The shape of a value is found by a search. -/
theorem searches_infer (budget : Nat) :
    Searches (infer budget) (find budget) := by
  induction budget using Nat.strongRecOn with
  | ind budget ih =>
      intro name value table
      cases budget with
      | zero => rfl
      | succ budget =>
          cases value with
          | array items =>
              cases items with
              | nil => rfl
              | cons v vs =>
                  have hItem := ih budget (Nat.lt_succ_self _)
                    (name ++ itemSuffix) v table
                  simp only [infer, find, hItem]
                  rfl
          | object members =>
              cases budget with
              | zero => rfl
              | succ budget =>
                  have hValue : Searches (infer budget)
                      (find budget) :=
                    ih budget (by omega)
                  simp only [infer, find]
                  exact inferObject_eq_onto hValue name _ table
          | _ => rfl

/- Inference on any table puts in the records of one finding. -/
theorem infer_eq_onto
    (budget : Nat)
    (name : String)
    (value : Json)
    (table : Table) :
    infer budget name value table =
      (find budget name value).onto table :=
  searches_infer budget name value table

/- The response of an endpoint gives the same on any table. -/
theorem inferResponse_eq_onto
    (funcName : String)
    (value : Json)
    (table : Table) :
    inferResponse funcName value table =
      (findResponse funcName value).onto table :=
  infer_eq_onto budget _ value table

------------------------------------------------------------
-- Induction
------------------------------------------------------------

/-
  The shapes that do not depend on a name: those of scalars, of
  null and of containers without items.
-/
inductive IsLeaf : Json → Shape → Prop where
  | null : IsLeaf .null untyped
  | bool (b : Bool) : IsLeaf (.bool b) (.primitive .bool)
  | int (n : Int) : IsLeaf (.int n) (.primitive (.ofInteger n))
  | double (x : Double) :
      IsLeaf (.double x) (.primitive (.ofDouble x))
  | string (t : RawText) : IsLeaf (.string t) (.primitive .text)
  | array : IsLeaf (.array []) (.list untyped)
  | object : IsLeaf (.object []) (.map untyped)

theorem mem_of_sortMembers_eq_cons
    {members ms : List (RawText × Json)}
    {m : RawText × Json}
    (h : Json.sortMembers members = m :: ms) :
    ∀ n ∈ m :: ms, n ∈ members := by
  intro n hn
  exact (Json.perm_sortMembers members).mem_iff.1 (h ▸ hn)

/-
  What holds of every search holds of all findings.  The cases
  are those of values: nothing is found in a value that is nested
  too deeply, a leaf gives its shape, an array and a numbered
  object pass on what one item gives, and any other object gives
  a record behind what its members give.
-/
theorem find_induction
    {P : String → Json → Finding Shape → Prop}
    (tooDeep : ∀ name value, P name value (.plain none))
    (leaf : ∀ name value shape, IsLeaf value shape →
      P name value (.plain (some shape)))
    (array : ∀ name v vs found,
      P (name ++ itemSuffix) v found →
        P name (.array (v :: vs)) (found.map list))
    (numbered : ∀ name members m ms found,
      Json.sortMembers members = m :: ms →
        isNumbered (m :: ms) = true →
          P (name ++ itemSuffix) m.2 found →
            P name (.object members) (found.map map))
    (object : ∀ name members m ms (find : Find),
      Json.sortMembers members = m :: ms →
        isNumbered (m :: ms) = false →
          (∀ name value, P name value (find name value)) →
            P name (.object members)
              (findRecord find name (m :: ms)))
    (budget : Nat)
    (name : String)
    (value : Json) :
    P name value (find budget name value) := by
  induction budget using Nat.strongRecOn generalizing name value
    with
  | ind budget ih =>
      cases budget with
      | zero => exact tooDeep name value
      | succ budget =>
          cases value with
          | null => exact leaf _ _ _ .null
          | bool b => exact leaf _ _ _ (.bool b)
          | int n => exact leaf _ _ _ (.int n)
          | double x => exact leaf _ _ _ (.double x)
          | string t => exact leaf _ _ _ (.string t)
          | array items =>
              cases items with
              | nil => exact leaf _ _ _ .array
              | cons v vs =>
                  exact array name v vs _
                    (ih budget (Nat.lt_succ_self _) _ v)
          | object members =>
              -- an object takes two levels of the budget
              cases budget with
              | zero => exact tooDeep name _
              | succ budget =>
                  have hValue := ih budget (by omega)
                  simp only [Shape.find]
                  cases hSorted : Json.sortMembers members with
                  | nil =>
                      have hNil : members = [] := by
                        have hPerm := Json.perm_sortMembers members
                        rw [hSorted] at hPerm
                        exact hPerm.symm.eq_nil
                      rw [hNil]
                      exact leaf _ _ _ .object
                  | cons m ms =>
                      rw [findObject]
                      split
                      next hNumbered =>
                        exact numbered name members m ms _
                          hSorted hNumbered (hValue _ m.2)
                      next hNamed =>
                        exact object name members m ms _ hSorted
                          (Bool.eq_false_iff.2 hNamed) hValue

end Shape

end TypedClient
