import TypedClient.Name.Registry
import TypedClient.Name.Reserved
import TypedClient.Shape.Table

/-
  This file infers shapes from JSON values.  A non-empty object
  becomes a record, unless its keys are all numbers; the first
  item of a sequence, and the first value of an object with
  numbers for keys, stand for the others.

  Key definitions include:
    * `Shape.Inference`
    * `Shape.infer`
    * `Shape.inferResponse`
-/

namespace TypedClient

namespace Shape

------------------------------------------------------------
-- Results
------------------------------------------------------------

/-
  The result of an inference and the table behind it.  There is
  no result for a value that is nested too deeply; the records
  that were found in it stay in the table.
-/
structure Inference (α : Type) where
  result : Option α
  table : Table

/- Change the result of an inference. -/
def Inference.map
    {α β : Type}
    (f : α → β)
    (i : Inference α) : Inference β :=
  ⟨i.result.map f, i.table⟩

------------------------------------------------------------
-- Keys
------------------------------------------------------------

/- What the records below a sequence or a mapping are called. -/
def itemSuffix : String :=
  "Item"

/- What the record of a response is called. -/
def responseSuffix : String :=
  "Response"

/- Whether a key consists of digits only. -/
def isNumericKey (key : RawText) : Bool :=
  key.all fun p => (p.toChar?.map Char.isDigit).getD false

/- The name that a key asks for. -/
def fieldName (key : RawText) : String :=
  Name.guardDigit 'N' (Name.pascal key.blanked)

------------------------------------------------------------
-- Objects
------------------------------------------------------------

/- An inference of one value below a name. -/
abbrev Infer :=
  String → Json → Table → Inference Shape

/-
  The fields for members in the order of their keys.  `names` and
  `attrs` hold the names and attributes given out so far.
-/
def fieldsFrom
    (infer : Infer)
    (owner : String)
    (names attrs : Name.Registry)
    (members : List (RawText × Json))
    (table : Table) : Inference (List Field) :=
  match members with
  | [] => ⟨some [], table⟩
  | (key, value) :: ms =>
      let name := names.claim (fieldName key)
      let attr := attrs.claim (Name.ofField name.1)
      let found := infer (owner ++ name.1) value table
      match found.result with
      | none => ⟨none, found.table⟩
      | some shape =>
          (fieldsFrom infer owner name.2 attr.2 ms
            found.table).map
              (⟨name.1, attr.1, shape, key⟩ :: ·)

/- The record of an object, put into the table. -/
def inferRecord
    (infer : Infer)
    (name : String)
    (members : List (RawText × Json))
    (table : Table) : Inference Shape :=
  let found := fieldsFrom infer name .empty .empty members table
  match found.result with
  | none => ⟨none, found.table⟩
  | some fields =>
      ⟨some (record name), found.table.insert ⟨name, fields⟩⟩

/- Whether members are the entries of a table of numbered items. -/
def isNumbered (members : List (RawText × Json)) : Bool :=
  1 < members.length && members.all fun m => isNumericKey m.1

/- The shape of an object with members in the order of keys. -/
def inferObject
    (infer : Infer)
    (name : String)
    (members : List (RawText × Json))
    (table : Table) : Inference Shape :=
  match members with
  | [] => ⟨some (map untyped), table⟩
  | m :: ms =>
      if isNumbered (m :: ms) then
        (infer (name ++ itemSuffix) m.2 table).map map
      else inferRecord infer name (m :: ms) table

------------------------------------------------------------
-- Values
------------------------------------------------------------

/-
  The shape of a value.  `budget` bounds the nesting: a value
  takes one unit of it, and an object another one.
-/
def infer (budget : Nat) : Infer :=
  fun name value table =>
    match budget with
    | 0 => ⟨none, table⟩
    | budget + 1 =>
        match value with
        | .null => ⟨some untyped, table⟩
        | .bool _ => ⟨some (primitive .bool), table⟩
        | .int n => ⟨some (primitive (.ofInteger n)), table⟩
        | .double x => ⟨some (primitive (.ofDouble x)), table⟩
        | .string _ => ⟨some (primitive .text), table⟩
        | .array [] => ⟨some (list untyped), table⟩
        | .array (v :: _) =>
            (infer budget (name ++ itemSuffix) v table).map list
        | .object members =>
            match budget with
            | 0 => ⟨none, table⟩
            | budget + 1 =>
                inferObject (infer budget) name
                  (Json.sortMembers members) table

/- The budget of every inference. -/
def budget : Nat :=
  970

/- The shape of the response of an endpoint. -/
def inferResponse
    (funcName : String)
    (value : Json)
    (table : Table) : Inference Shape :=
  infer budget (funcName ++ responseSuffix) value table

end Shape

end TypedClient
